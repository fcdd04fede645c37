/-
The names in MDX, written and read back.

`parse_unique_name` of `tm1/services/mdx_table.py` reads a member's name, and `_mdx_cubes` of
`change_service.py` looks for FROM outside of brackets. Both come to the end of a bracketed name
where the builder put it (`bracketEnd_bracketed`), and apart from the names nothing that the
builder writes is taken for a FROM (`Quiet`).
-/
import PaCopilot.Change.Create
import PaCopilot.Tm1.Query.Builder
import PaCopilot.Tm1.Rules.Areas

set_option autoImplicit false

namespace PaCopilot

open Python (isspace strip)
open rules (Text)

/-! ## The readers -/

namespace mdx_table

/-- `(?:[^\]]|\]\])*\]` at the front of a text: what is in the brackets, and what follows them.
Where no bracket closes it, the last doubled one does, with one half of it. -/
def bracketEnd : Text → Option (Text × Text)
  | [] => none
  | ']' :: ']' :: rest =>
    some ((bracketEnd rest).elim ([], ']' :: rest) fun found => (']' :: ']' :: found.1, found.2))
  | c :: rest =>
    if c = ']' then some ([], rest) else (bracketEnd rest).map fun found => (c :: found.1, found.2)

/-- `_PART`. A name is not empty. -/
def _PART : Text → Option (Text × Text)
  | '[' :: rest => (bracketEnd rest).filter fun found => found.1 ≠ []
  | _ => none

/-- `part.replace("]]", "]")`. -/
def unescape : Text → Text
  | ']' :: ']' :: rest => ']' :: unescape rest
  | c :: rest => c :: unescape rest
  | [] => []

/-- `_UNIQUE_NAME`: dimension, hierarchy and element, two or three parts with dots between. -/
def _UNIQUE_NAME (text : Text) : Option (Text × Option Text × Text) :=
  (_PART text).bind fun first =>
    match first.2 with
    | '.' :: rest =>
      (_PART rest).bind fun second =>
        match second.2 with
        | [] => some (first.1, none, second.1)
        | '.' :: rest =>
          (_PART rest).bind fun third =>
            if third.2 = [] then some (first.1, some second.1, third.1) else none
        | _ => none
    | _ => none

/-- The dimension's label and the element of a member's unique name. -/
def parse_unique_name (unique_name : Text) : Text × Text :=
  match _UNIQUE_NAME (strip unique_name) with
  | none => ([], unique_name)
  | some (dimension, hierarchy, element) =>
    let dimension := unescape dimension
    let label :=
      match hierarchy.map unescape with
      | none => dimension
      | some hierarchy =>
        if hierarchy = dimension then dimension else dimension ++ ':' :: hierarchy
    (label, unescape element)

end mdx_table

namespace change_service

open mdx_table (bracketEnd _PART unescape)

/-- `_MDX_FROM_TARGET`: a name in brackets or a bare one, behind white space. -/
def _MDX_FROM_TARGET (text : Text) : Option Text :=
  let rest := text.dropWhile isspace
  match _PART rest with
  | some found => some (unescape found.1)
  | none =>
    let bare := rest.takeWhile fun c => !isspace c && c ∉ ['[', ']', '(', ')']
    if bare = [] then none else some bare

/-- `\bFROM\b` in either case, with the character before it. `word` is `\w`. -/
def fromAt (word : Char → Bool) (before : Option Char) (text : Text) : Bool :=
  (text.take 4).map Char.toLower = "from".toList && !before.any word && !(text[4]?).any word

/-- The targets of the FROM clauses. So many characters of the last match are left; `before` is
the last character. -/
def cubesFrom (word : Char → Bool) : ℕ → Option Char → Text → List Text
  | _, _, [] => []
  | left + 1, _, c :: rest => cubesFrom word left (some c) rest
  | 0, before, c :: rest =>
    if c = '[' then
      cubesFrom word ((bracketEnd rest).elim 0 fun found => found.1.length + 1) (some c) rest
    else if fromAt word before (c :: rest) then
      (_MDX_FROM_TARGET (rest.drop 3)).toList ++ cubesFrom word 3 (some c) rest
    else cubesFrom word 0 (some c) rest

/-- Every cube the MDX selects FROM. -/
def _mdx_cubes (word : Char → Bool) (mdx : String) : List String :=
  (cubesFrom word 0 none mdx.toList).map String.ofList

/-- `\w` of a character in ASCII. -/
def KnowsAscii (word : Char → Bool) : Prop :=
  ∀ c : Char, c.toNat < 128 → word c = (c.isAlphanum || c == '_')

end change_service

/-! ## A bracketed name -/

open mdx_table query_builder

theorem unescape_escape (name : Text) : unescape (_escape name) = name := by
  induction name with
  | nil => rfl
  | cons c name ih =>
    rw [_escape, List.flatMap_cons, ← _escape]
    by_cases hc : c = ']'
    · rw [if_pos hc, hc]
      show unescape (']' :: ']' :: _escape name) = _
      rw [unescape, ih]
    · rw [if_neg hc, List.singleton_append, unescape, ih]
      rintro rest rfl
      exact absurd rfl hc

/-- **A bracketed name ends** at its own bracket, if no other follows. -/
theorem bracketEnd_escape (name : Text) {rest : Text} (h : rest.head? ≠ some ']') :
    bracketEnd (_escape name ++ ']' :: rest) = some (_escape name, rest) := by
  induction name with
  | nil =>
    show bracketEnd (']' :: rest) = some ([], rest)
    rw [bracketEnd, if_pos rfl]
    rintro after - rfl
    exact h rfl
  | cons c name ih =>
    rw [_escape, List.flatMap_cons, ← _escape]
    by_cases hc : c = ']'
    · rw [if_pos hc]
      show bracketEnd (']' :: ']' :: (_escape name ++ ']' :: rest)) = _
      rw [bracketEnd, ih]
      rfl
    · rw [if_neg hc, List.singleton_append, List.cons_append, bracketEnd, if_neg hc, ih]
      · rfl
      · rintro after rfl
        exact absurd rfl hc

theorem escape_ne_nil {name : Text} (h : name ≠ []) : _escape name ≠ [] := by
  intro hnil
  apply h
  rw [← unescape_escape name, hnil]
  rfl

theorem part_bracketed {name rest : Text} (hname : name ≠ []) (h : rest.head? ≠ some ']') :
    _PART (bracketed name ++ rest) = some (_escape name, rest) := by
  have happend : bracketed name ++ rest = '[' :: (_escape name ++ ']' :: rest) := by
    rw [bracketed, List.cons_append, List.append_assoc, List.singleton_append]
  rw [happend, _PART, bracketEnd_escape name h]
  have hne := escape_ne_nil hname
  simp [Option.filter, hne]

theorem getLast?_member (dimension element : Text) :
    (member dimension element).getLast? = some ']' := by
  have hlast : (bracketed element).getLast? = some ']' := by
    rw [bracketed, ← List.cons_append]
    exact List.getLast?_concat
  rw [member, List.getLast?_append, List.getLast?_cons, List.getLast?_append, List.getLast?_cons,
    hlast]
  rfl

theorem strip_member (dimension element : Text) :
    strip (member dimension element) = member dimension element := by
  have hfirst : (member dimension element).head? = some '[' := rfl
  apply rules.strip_eq_self
  · intro c hc
    rw [hfirst] at hc
    rw [← Option.some.inj hc]
    decide
  · intro c hc
    rw [getLast?_member] at hc
    rw [← Option.some.inj hc]
    decide

/-- **A member's name is read back.** -/
theorem parse_unique_name_member {dimension element : Text} (hdimension : dimension ≠ [])
    (helement : element ≠ []) :
    parse_unique_name (member dimension element) = (dimension, element) := by
  have hdot : ∀ rest : Text, ('.' :: rest).head? ≠ some ']' := fun rest heq => by cases heq
  have hend : ([] : Text).head? ≠ some ']' := fun heq => by cases heq
  have hlast : _PART (bracketed element ++ []) = some (_escape element, []) :=
    part_bracketed helement hend
  rw [List.append_nil] at hlast
  have hname : _UNIQUE_NAME (member dimension element)
      = some (_escape dimension, some (_escape dimension), _escape element) := by
    rw [_UNIQUE_NAME, member, part_bracketed hdimension (hdot _), Option.bind_some]
    simp only [part_bracketed hdimension (hdot _), Option.bind_some, hlast, if_true]
  rw [parse_unique_name, strip_member, hname]
  simp only [Option.map_some, unescape_escape, if_true]

/-! ## What holds no FROM -/

open change_service

section

variable {word : Char → Bool}

/-- A text that the search for FROM leaves as it came to it, whatever follows. -/
structure Quiet (word : Char → Bool) (s : Text) : Prop where
  starts : s.head? ≠ some ']'
  passed : ∀ (before : Option Char) (rest : Text), rest.head? ≠ some ']' →
    ∃ last, cubesFrom word 0 before (s ++ rest) = cubesFrom word 0 last rest

/-- No bracket, and after each `f` another letter than `r`. -/
def calm : Text → Bool
  | [] => true
  | c :: rest => c ≠ '[' && c ≠ ']'
      && (c.toLower ≠ 'f' || rest.head?.any fun d => d.toLower ≠ 'r') && calm rest

theorem fromAt_eq_false {before : Option Char} {c : Char} {rest : Text}
    (h : c.toLower = 'f' → ∃ d after, rest = d :: after ∧ d.toLower ≠ 'r') :
    fromAt word before (c :: rest) = false := by
  by_contra htrue
  rw [Bool.not_eq_false, fromAt, Bool.and_eq_true, Bool.and_eq_true, decide_eq_true_eq] at htrue
  have hletters : c.toLower :: (rest.take 3).map Char.toLower = 'f' :: "rom".toList := htrue.1.1
  rw [List.cons.injEq] at hletters
  obtain ⟨d, after, rfl, hd⟩ := h hletters.1
  have hsecond : d.toLower :: (after.take 2).map Char.toLower = 'r' :: "om".toList := hletters.2
  exact hd (List.cons.inj hsecond).1

theorem cubesFrom_step {before : Option Char} {c : Char} {rest : Text} (hc : c ≠ '[')
    (h : fromAt word before (c :: rest) = false) :
    cubesFrom word 0 before (c :: rest) = cubesFrom word 0 (some c) rest := by
  rw [cubesFrom, if_neg hc, if_neg (by rw [h]; decide)]

theorem Quiet.of_calm {s : Text} (h : calm s = true) : Quiet word s := by
  induction s with
  | nil =>
    refine ⟨fun heq => (by cases heq), fun before rest _ => ⟨before, rfl⟩⟩
  | cons c s ih =>
    simp only [calm, Bool.and_eq_true, Bool.or_eq_true, decide_eq_true_eq] at h
    obtain ⟨⟨⟨hopen, hclose⟩, hletter⟩, hcalm⟩ := h
    refine ⟨fun heq => hclose (Option.some.inj heq), fun before rest hrest => ?_⟩
    have hfrom : fromAt word before (c :: (s ++ rest)) = false := by
      apply fromAt_eq_false
      intro hf
      have hnext := hletter.resolve_left fun hne => hne hf
      cases s with
      | nil => cases hnext
      | cons d s =>
        refine ⟨d, s ++ rest, rfl, ?_⟩
        simpa using hnext
    obtain ⟨last, hlast⟩ := (ih hcalm).passed (some c) rest hrest
    exact ⟨last, by rw [List.cons_append, cubesFrom_step hopen hfrom, hlast]⟩

/-- The rest of a match is passed over. -/
theorem cubesFrom_matched (word : Char → Bool) (s rest : Text) (before : Option Char) :
    ∃ last, cubesFrom word s.length before (s ++ rest) = cubesFrom word 0 last rest := by
  induction s generalizing before with
  | nil => exact ⟨before, rfl⟩
  | cons c s ih =>
    obtain ⟨last, hlast⟩ := ih (some c)
    exact ⟨last, by rw [List.length_cons, List.cons_append, cubesFrom, hlast]⟩

/-- **A name in brackets** is passed over whole. -/
theorem Quiet.bracketed (name : Text) : Quiet word (bracketed name) := by
  refine ⟨fun heq => (by cases heq), fun before rest hrest => ?_⟩
  have happend : query_builder.bracketed name ++ rest = '[' :: (_escape name ++ ']' :: rest) := by
    rw [query_builder.bracketed, List.cons_append, List.append_assoc, List.singleton_append]
  obtain ⟨last, hlast⟩ := cubesFrom_matched word (_escape name ++ [']']) rest (some '[')
  rw [List.length_append, List.append_assoc] at hlast
  refine ⟨last, ?_⟩
  rw [happend, cubesFrom, if_pos rfl, bracketEnd_escape name hrest]
  exact hlast

theorem Quiet.append {s t : Text} (h : Quiet word s) (h' : Quiet word t) :
    Quiet word (s ++ t) := by
  refine ⟨?_, fun before rest hrest => ?_⟩
  · cases s with
    | nil => exact h'.starts
    | cons c s => exact h.starts
  · have hfollows : (t ++ rest).head? ≠ some ']' := by
      cases t with
      | nil => exact hrest
      | cons c t => exact h'.starts
    obtain ⟨last, hlast⟩ := h.passed before (t ++ rest) hfollows
    obtain ⟨last', hlast'⟩ := h'.passed last rest hrest
    exact ⟨last', by rw [List.append_assoc, hlast, hlast']⟩

theorem Quiet.intercalate {sep : Text} (hsep : Quiet word sep) {parts : List Text}
    (h : ∀ part ∈ parts, Quiet word part) : Quiet word (List.intercalate sep parts) := by
  induction parts with
  | nil => exact .of_calm rfl
  | cons part parts ih =>
    rw [List.forall_mem_cons] at h
    cases parts with
    | nil =>
      rw [List.intercalate_singleton]
      exact h.1
    | cons following parts =>
      rw [List.intercalate_cons_cons]
      exact (h.1.append hsep).append (ih h.2)

/-! ## A query that is built -/

theorem Quiet.dotted {s t : Text} (h : Quiet word s) (h' : Quiet word t) :
    Quiet word (s ++ '.' :: t) := by
  have hdot : Quiet word (['.'] ++ t) := (Quiet.of_calm (by decide)).append h'
  exact h.append hdot

theorem Quiet.member (dimension element : Text) : Quiet word (member dimension element) :=
  (Quiet.bracketed dimension).dotted ((Quiet.bracketed dimension).dotted (.bracketed element))

theorem quiet_memberSet (dimension : Text) (elements : List Text) :
    Quiet word (memberSet dimension elements) := by
  have hmembers : Quiet word (List.intercalate ", ".toList (elements.map (member dimension))) := by
    apply Quiet.intercalate (.of_calm (by decide))
    intro part hpart
    obtain ⟨element, -, rfl⟩ := List.mem_map.mp hpart
    exact .member dimension element
  have hset : memberSet dimension elements = ['\x7b']
      ++ (List.intercalate ", ".toList (elements.map (member dimension)) ++ ['\x7d']) := rfl
  rw [hset]
  exact (Quiet.of_calm (by decide)).append (hmembers.append (.of_calm (by decide)))

theorem quiet_childrenSet (dimension element : Text) :
    Quiet word (childrenSet dimension element) := by
  have hset : childrenSet dimension element = ['\x7b']
      ++ (member dimension element ++ ".Children\x7d".toList) := rfl
  rw [hset]
  exact (Quiet.of_calm (by decide)).append
    ((Quiet.member dimension element).append (.of_calm (by decide)))

theorem quiet_hierarchy (dimension : Text) :
    Quiet word (query_builder.bracketed dimension ++ '.' :: query_builder.bracketed dimension) :=
  (Quiet.bracketed dimension).dotted (.bracketed dimension)

theorem quiet_subsetAll (dimension : Text) : Quiet word (subsetAll dimension) :=
  ((Quiet.of_calm (by decide)).append (quiet_hierarchy dimension)).append (.of_calm (by decide))

theorem quiet_leaves (dimension : Text) : Quiet word (leaves dimension) :=
  ((Quiet.of_calm (by decide)).append (quiet_hierarchy dimension)).append (.of_calm (by decide))

theorem quiet_axis_set (spec : AxisSpec) (top_elements : Dict Text (List Text)) :
    Quiet word (axis_set spec top_elements) := by
  unfold axis_set
  simp only
  split_ifs
  · exact quiet_memberSet _ _
  · exact quiet_childrenSet _ _
  · exact quiet_leaves _
  · exact quiet_subsetAll _
  · exact quiet_memberSet _ _
  · exact quiet_subsetAll _
  · split
    · exact quiet_subsetAll _
    · exact quiet_childrenSet _ _
    · exact quiet_memberSet _ _

theorem quiet_where_clause (pins : Dict Text Text) : Quiet word (where_clause pins) := by
  unfold where_clause
  split
  · exact .of_calm rfl
  · refine ((Quiet.of_calm (by decide)).append (.intercalate (.of_calm (by decide)) ?_)).append
      (.of_calm (by decide))
    intro part hpart
    obtain ⟨pin, -, rfl⟩ := List.mem_map.mp hpart
    exact .member pin.1 pin.2

theorem word_blank (hword : KnowsAscii word) : word ' ' = false := by
  rw [hword ' ' (by decide)]
  decide

theorem head?_where_clause (pins : Dict Text Text) : (where_clause pins).head? ≠ some ']' := by
  have hquiet : Quiet (fun _ => false) (where_clause pins) := quiet_where_clause pins
  exact hquiet.starts

/-- The target behind the keyword. -/
theorem from_target {cube : Text} (hcube : cube ≠ []) (pins : Dict Text Text) :
    _MDX_FROM_TARGET (' ' :: (query_builder.bracketed cube ++ where_clause pins)) = some cube := by
  have hstart : (' ' :: (query_builder.bracketed cube ++ where_clause pins)).dropWhile isspace
      = query_builder.bracketed cube ++ where_clause pins := by
    rw [List.dropWhile_cons_of_pos (by decide)]
    exact List.dropWhile_cons_of_neg (by decide)
  rw [_MDX_FROM_TARGET, hstart]
  simp only [part_bracketed hcube (head?_where_clause pins), unescape_escape]

/-- The keyword, with blanks around it. -/
theorem fromAt_keyword (hword : KnowsAscii word) (rest : Text) :
    fromAt word (some ' ') ('F' :: 'R' :: 'O' :: 'M' :: ' ' :: rest) = true := by
  have hletters : (('F' :: 'R' :: 'O' :: 'M' :: ' ' :: rest).take 4).map Char.toLower
      = "from".toList := rfl
  have hbefore : (some ' ').any word = false := word_blank hword
  have hafter : (('F' :: 'R' :: 'O' :: 'M' :: ' ' :: rest)[4]?).any word = false := word_blank hword
  rw [fromAt, hletters, hbefore, hafter]
  rfl

theorem quiet_axesText (columns : AxisSpec) (rows : List AxisSpec)
    (top_elements : Dict Text (List Text)) : Quiet word (axesText columns rows top_elements) := by
  have hcolumns : Quiet word ("SELECT NON EMPTY ".toList ++ axis_set columns top_elements
      ++ " ON 0".toList) :=
    ((Quiet.of_calm (by decide)).append (quiet_axis_set columns top_elements)).append
      (.of_calm (by decide))
  refine hcolumns.append ?_
  split
  · exact .of_calm rfl
  · refine ((Quiet.of_calm (by decide)).append (.intercalate (.of_calm (by decide)) ?_)).append
      (.of_calm (by decide))
    intro part hpart
    obtain ⟨r, -, rfl⟩ := List.mem_map.mp hpart
    exact quiet_axis_set r top_elements

/-- **The cube that a query reads from** is the one that it was built for. -/
theorem cubesFrom_statement (hword : KnowsAscii word) {cube : Text} (hcube : cube ≠ [])
    (columns : AxisSpec) (rows : List AxisSpec) (pinned : Dict Text Text)
    (top_elements : Dict Text (List Text)) :
    cubesFrom word 0 none (statement cube columns rows pinned top_elements) = [cube] := by
  have hback : Quiet word ([' '] ++ (query_builder.bracketed cube ++ where_clause pinned)) :=
    (Quiet.of_calm (by decide)).append ((Quiet.bracketed cube).append (quiet_where_clause pinned))
  obtain ⟨last, hlast⟩ := (quiet_axesText columns rows top_elements).passed none
    (" FROM ".toList ++ (query_builder.bracketed cube ++ where_clause pinned))
    (fun heq => by cases heq)
  obtain ⟨last', hlast'⟩ := hback.passed (some 'M') [] (fun heq => by cases heq)
  rw [List.append_nil, cubesFrom] at hlast'
  have hkeyword : " FROM ".toList ++ (query_builder.bracketed cube ++ where_clause pinned)
      = ' ' :: 'F' :: 'R' :: 'O' :: 'M' :: ' '
        :: (query_builder.bracketed cube ++ where_clause pinned) := rfl
  have hblank : fromAt word last (' ' :: 'F' :: 'R' :: 'O' :: 'M' :: ' '
      :: (query_builder.bracketed cube ++ where_clause pinned)) = false :=
    fromAt_eq_false fun heq => absurd heq (by decide)
  rw [statement, hlast, hkeyword, cubesFrom_step (by decide) hblank, cubesFrom,
    if_neg (by decide), if_pos (fromAt_keyword hword _)]
  -- the keyword is left behind, and then the blank
  show (_MDX_FROM_TARGET (' ' :: (query_builder.bracketed cube ++ where_clause pinned))).toList
    ++ cubesFrom word 0 (some 'M')
      ([' '] ++ (query_builder.bracketed cube ++ where_clause pinned)) = [cube]
  rw [from_target hcube, hlast']
  rfl

end

/-! ## The two readers together -/

section

variable {Graph : Type} {word : Char → Bool}

/-- The check of a draft, with its reader of MDX. -/
def readingMdx (a : Analyzers Graph) (word : Char → Bool) : Analyzers Graph :=
  { a with mdx_cubes := _mdx_cubes word }

theorem sortedSet_eq_nil {names : List String} : sortedSet names = [] ↔ names = [] := by
  rw [sortedSet]
  constructor
  · intro h
    have hlength := congrArg List.length h
    rw [List.length_insertionSort, List.length_nil, List.length_eq_zero_iff] at hlength
    exact (List.dedup_eq_nil names).mp hlength
  · rintro rfl
    rfl

/-- **Names come back**: a member's name is read to its dimension and its element, and a query
that is built for a cube reads from it and from no other, so that the check takes it for that
cube alone. -/
theorem names_read_back (a : Analyzers Graph) (hword : KnowsAscii word) :
    (∀ dimension element : Text, dimension ≠ [] → element ≠ [] →
      parse_unique_name (member dimension element) = (dimension, element)) ∧
    ∀ (cube : Text) (dimensions : List Text) (columns : AxisSpec) (rows : List AxisSpec)
      (pins : Dict Text Text) (top_elements : Dict Text (List Text)) (mdx : Text)
      (pinned : Dict Text Text), cube ≠ [] →
      build_mdx cube dimensions columns rows pins top_elements = .ok (mdx, pinned) →
      _mdx_cubes word (String.ofList mdx) = [String.ofList cube] ∧
      ∀ name : String, _mdx_cube_problem (readingMdx a word) (String.ofList mdx) name = none ↔
        _tm1_name a (String.ofList cube) = _tm1_name a name := by
  refine ⟨fun dimension element hd he => parse_unique_name_member hd he, ?_⟩
  intro cube dimensions columns rows pins top_elements mdx pinned hcube hbuild
  obtain ⟨-, -, -, rfl⟩ := build_mdx_eq_ok.mp hbuild
  -- the one `FROM` of a built query names the cube
  have hcubes : _mdx_cubes word (String.ofList (statement cube columns rows pinned top_elements))
      = [String.ofList cube] := by
    rw [_mdx_cubes, String.toList_ofList, cubesFrom_statement hword hcube]
    rfl
  refine ⟨hcubes, fun name => ?_⟩
  have hread : (readingMdx a word).mdx_cubes
      (String.ofList (statement cube columns rows pinned top_elements)) = [String.ofList cube] :=
    hcubes
  have hname : ∀ n, _tm1_name (readingMdx a word) n = _tm1_name a n := fun _ => rfl
  unfold _mdx_cube_problem
  rw [hread, hname name]
  simp only [List.cons_ne_nil, if_false]
  by_cases hsame : _tm1_name a (String.ofList cube) = _tm1_name a name
  · have hnone : sortedSet ([String.ofList cube].filter fun c =>
        _tm1_name (readingMdx a word) c ≠ _tm1_name a name) = [] := by
      rw [sortedSet_eq_nil, List.filter_eq_nil_iff]
      intro c hc
      rw [List.mem_singleton.mp hc, hname]
      simpa using hsame
    rw [if_neg (not_not.mpr hnone)]
    exact iff_of_true rfl hsame
  · have hsome : sortedSet ([String.ofList cube].filter fun c =>
        _tm1_name (readingMdx a word) c ≠ _tm1_name a name) ≠ [] := by
      rw [ne_eq, sortedSet_eq_nil, List.filter_eq_nil_iff]
      intro hall
      have hcube' := hall _ (List.mem_singleton_self _)
      rw [hname] at hcube'
      exact hcube' (by simpa using hsame)
    rw [if_pos hsome]
    exact iff_of_false nofun hsame

end

/-- A cube whose name closes a bracket and goes on with a FROM. -/
def awkward : Text := "x] FROM [y".toList

/-- `names_read_back` for it. -/
theorem awkward_read_back :
    parse_unique_name (member "a]b".toList "].[".toList) = ("a]b".toList, "].[".toList) ∧
      ∃ mdx pinned, build_mdx awkward [awkward] ⟨awkward, [awkward], none, none⟩ [] .empty .empty
          = .ok (mdx, pinned) ∧
        _mdx_cubes (fun c => c.isAlphanum || c == '_') (String.ofList mdx)
          = [String.ofList awkward] := by
  have hword : KnowsAscii fun c => c.isAlphanum || c == '_' := fun _ _ => rfl
  have hbuild : build_mdx awkward [awkward] ⟨awkward, [awkward], none, none⟩ [] .empty .empty
      = .ok (statement awkward ⟨awkward, [awkward], none, none⟩ [] .empty .empty, .empty) := by
    refine build_mdx_eq_ok.mpr ⟨fun d hd => ?_, List.nodup_singleton _, rfl, rfl⟩
    rcases hd with hd | hd
    · exact hd
    · cases hd
  obtain ⟨hnames, hcubes⟩ := names_read_back noFindings hword
  refine ⟨hnames _ _ (by decide) (by decide), _, _, hbuild, ?_⟩
  exact (hcubes _ _ _ _ _ _ _ _ (by decide) hbuild).1

end PaCopilot
