/-
The edges between cubes.

`extract_rule_cube_references` (`tm1/metadata/reference_parser.py`) looks for `DB('...')` in
the raw text of a cube's rules. It does not know comments, literals and longer identifiers,
and `extract_metadata` compares what it finds with the names of the cubes letter by letter.
Against this stand the calls of `DB` that are active in the text, and names as TM1 compares
them.
-/
import Mathlib.Data.List.Dedup
import PaCopilot.Metadata.Extracted
import PaCopilot.Tm1.Rules.Statements

set_option autoImplicit false

namespace PaCopilot.references

open Python (isspace)
open rules (Text Mark marks)

/-! ## The scan -/

/-- A letter, in either case. -/
def isLetter (upper lower c : Char) : Bool := c == upper || c == lower

/-- `_RULE_DB_PATTERN` at the front of a text: the name, and what follows the match. -/
def _RULE_DB_PATTERN : Text → Option (Text × Text)
  | d :: b :: rest =>
    if isLetter 'D' 'd' d && isLetter 'B' 'b' b then
      match rest.dropWhile isspace with
      | '(' :: rest =>
        match rest.dropWhile isspace with
        | '\'' :: rest =>
          match rest.span (· != '\'') with
          | (c :: name, _ :: after) => some (c :: name, after)
          | _ => none
        | _ => none
      | _ => none
    else none
  | _ => none

/-- `_RULE_DB_PATTERN.findall(rule_text)`. A match and a character that begins none take at
least one character each. -/
def findall : ℕ → Text → List Text
  | 0, _ => []
  | _, [] => []
  | fuel + 1, c :: rest =>
    match _RULE_DB_PATTERN (c :: rest) with
    | some (name, after) => name :: findall fuel after
    | none => findall fuel rest

def extract_rule_cube_references (rule_text : String) : List String :=
  ((findall rule_text.toList.length rule_text.toList).map String.ofList).dedup

/-! ### What the scan finds -/

/-- A text begins with a match: `DB` in either case, blanks, a parenthesis, blanks, and a name
in quotes. -/
def Matches (text name after : Text) : Prop :=
  ∃ (d b : Char) (blanks blanks' : Text), isLetter 'D' 'd' d = true ∧ isLetter 'B' 'b' b = true ∧
    (∀ c ∈ blanks, isspace c = true) ∧ (∀ c ∈ blanks', isspace c = true) ∧
    name ≠ [] ∧ (∀ c ∈ name, c ≠ '\'') ∧
    text = d :: b :: (blanks ++ '(' :: (blanks' ++ '\'' :: (name ++ '\'' :: after)))

/-- A search from left to right comes to a rest of the text: it goes on after each match, and
by one character where there is none. -/
inductive Reaches (text : Text) : Text → Prop
  | start : Reaches text text
  | step {c : Char} {rest : Text} : Reaches text (c :: rest) →
      (∀ name after, ¬ Matches (c :: rest) name after) → Reaches text rest
  | found {rest name after : Text} : Reaches text rest → Matches rest name after →
      Reaches text after

/-- The search meets a match with the name. -/
def Meets (text name : Text) : Prop := ∃ rest after, Reaches text rest ∧ Matches rest name after

theorem dropWhile_blanks {blanks : Text} {c : Char} (rest : Text) (h : ∀ c ∈ blanks, isspace c = true)
    (hc : isspace c = false) : (blanks ++ c :: rest).dropWhile isspace = c :: rest := by
  induction blanks with
  | nil => simp [hc]
  | cons x blanks ih =>
    rw [List.cons_append, List.dropWhile_cons_of_pos (h x List.mem_cons_self)]
    exact ih fun c hc => h c (List.mem_cons_of_mem _ hc)

theorem span_name {name : Text} (rest : Text) (h : ∀ c ∈ name, c ≠ '\'') :
    (name ++ '\'' :: rest).span (· != '\'') = (name, '\'' :: rest) := by
  rw [List.span_eq_takeWhile_dropWhile]
  induction name with
  | nil => rfl
  | cons c name ih =>
    have hc : (c != '\'') = true := bne_iff_ne.mpr (h c List.mem_cons_self)
    have htail := ih fun c hc => h c (List.mem_cons_of_mem _ hc)
    rw [Prod.mk.injEq] at htail
    rw [List.cons_append, List.takeWhile_cons_of_pos (p := (· != '\'')) hc,
      List.dropWhile_cons_of_pos (p := (· != '\'')) hc, htail.1, htail.2]

theorem dropWhile_eq_cons {blanks rest : Text} {c : Char} (h : blanks.dropWhile isspace = c :: rest) :
    ∃ before, (∀ c ∈ before, isspace c = true) ∧ blanks = before ++ c :: rest := by
  refine ⟨blanks.takeWhile isspace, fun x hx => List.mem_takeWhile_imp hx, ?_⟩
  rw [← h, List.takeWhile_append_dropWhile]

theorem pattern_eq_some {text name after : Text} :
    _RULE_DB_PATTERN text = some (name, after) ↔ Matches text name after := by
  constructor
  · intro h
    unfold _RULE_DB_PATTERN at h
    split at h
    · rename_i d b rest
      split at h
      · rename_i hletters
        split at h
        · rename_i rest₁ hopen
          split at h
          · rename_i rest₂ hquote
            split at h
            · rename_i c name' q after' hspan
              cases h
              -- white space before the bracket, white space before the quote, and the name
              obtain ⟨blanks, hblanks, rfl⟩ := dropWhile_eq_cons hopen
              obtain ⟨blanks', hblanks', rfl⟩ := dropWhile_eq_cons hquote
              rw [List.span_eq_takeWhile_dropWhile, Prod.mk.injEq] at hspan
              have hname : ∀ x ∈ c :: name', x ≠ '\'' := by
                intro x hx
                rw [← hspan.1] at hx
                exact bne_iff_ne.mp (List.mem_takeWhile_imp (p := (· != '\'')) hx)
              have hq : q = '\'' := by
                have := List.head?_dropWhile_not (· != '\'') rest₂
                rw [hspan.2] at this
                simpa using this
              have hrest : rest₂ = c :: name' ++ '\'' :: after := by
                rw [← hq, ← hspan.1, ← hspan.2, List.takeWhile_append_dropWhile]
              rw [Bool.and_eq_true] at hletters
              exact ⟨d, b, blanks, blanks', hletters.1, hletters.2, hblanks, hblanks', by simp,
                hname, by rw [hrest]⟩
            · cases h
          · cases h
        · cases h
      · cases h
    · cases h
  · rintro ⟨d, b, blanks, blanks', hd, hb, hblanks, hblanks', hne, hname, rfl⟩
    obtain ⟨c, name, rfl⟩ := List.exists_cons_of_ne_nil hne
    have hopen := dropWhile_blanks (blanks' ++ '\'' :: (c :: name ++ '\'' :: after)) hblanks
      (show isspace '(' = false by decide)
    have hquote := dropWhile_blanks (c :: name ++ '\'' :: after) hblanks'
      (show isspace '\'' = false by decide)
    have hspan := span_name after hname
    simp only [_RULE_DB_PATTERN, hd, hb, Bool.and_self, if_true, hopen, hquote, hspan]

/-- A match takes a character at least. -/
theorem Matches.length_lt {text name after : Text} (h : Matches text name after) :
    after.length < text.length := by
  obtain ⟨d, b, blanks, blanks', -, -, -, -, -, -, rfl⟩ := h
  simp only [List.length_cons, List.length_append]
  omega

/-- A search goes on from where it has come. -/
theorem Reaches.trans {text rest last : Text} (h : Reaches text rest) (h' : Reaches rest last) :
    Reaches text last := by
  induction h' with
  | start => exact h
  | step _ hnone ih => exact .step ih hnone
  | found _ hmatch ih => exact .found ih hmatch

/-- What a search reaches is the text itself or lies after its first step. -/
theorem reaches_cons {c : Char} {rest last : Text} : Reaches (c :: rest) last ↔
    last = c :: rest ∨ ((∀ name after, ¬ Matches (c :: rest) name after) ∧ Reaches rest last) ∨
      ∃ name after, Matches (c :: rest) name after ∧ Reaches after last := by
  constructor
  · intro h
    induction h with
    | start => exact .inl rfl
    | step _ hnone ih =>
      rcases ih with heq | ⟨hno, hlater⟩ | ⟨name, after, hmatch, hlater⟩
      · cases heq
        exact .inr (.inl ⟨hnone, .start⟩)
      · exact .inr (.inl ⟨hno, .step hlater hnone⟩)
      · exact .inr (.inr ⟨name, after, hmatch, .step hlater hnone⟩)
    | found _ hmatch ih =>
      rcases ih with heq | ⟨hno, hlater⟩ | ⟨name, after, hfirst, hlater⟩
      · cases heq
        exact .inr (.inr ⟨_, _, hmatch, .start⟩)
      · exact .inr (.inl ⟨hno, .found hlater hmatch⟩)
      · exact .inr (.inr ⟨name, after, hfirst, .found hlater hmatch⟩)
  · rintro (rfl | ⟨hnone, hlater⟩ | ⟨name, after, hmatch, hlater⟩)
    · exact .start
    · exact (Reaches.step .start hnone).trans hlater
    · exact (Reaches.found .start hmatch).trans hlater

theorem not_meets_nil {name : Text} : ¬ Meets [] name := by
  rintro ⟨rest, after, hreach, hmatch⟩
  have hnil : rest = [] := by
    clear hmatch
    induction hreach with
    | start => rfl
    | step _ _ ih => exact absurd ih (by simp)
    | found _ hfirst ih =>
      have hlt := hfirst.length_lt
      rw [ih] at hlt
      exact absurd hlt (by simp)
  have hlt := hmatch.length_lt
  rw [hnil] at hlt
  exact absurd hlt (by simp)

/-- A match is unique: the pattern finds it. -/
theorem Matches.unique {text name after name' after' : Text} (h : Matches text name after)
    (h' : Matches text name' after') : name = name' ∧ after = after' := by
  rw [← pattern_eq_some] at h h'
  rw [h] at h'
  cases h'
  exact ⟨rfl, rfl⟩

/-- The scan finds the names that the search meets. -/
theorem mem_findall {fuel : ℕ} {text name : Text} (hfuel : text.length ≤ fuel) :
    name ∈ findall fuel text ↔ Meets text name := by
  induction fuel generalizing text with
  | zero =>
    rw [List.length_eq_zero_iff.mp (Nat.le_zero.mp hfuel)]
    exact ⟨fun h => absurd h List.not_mem_nil, fun h => absurd h not_meets_nil⟩
  | succ fuel ih =>
    cases text with
    | nil => exact ⟨fun h => absurd h List.not_mem_nil, fun h => absurd h not_meets_nil⟩
    | cons c rest =>
      rw [List.length_cons, Nat.succ_le_succ_iff] at hfuel
      cases hpattern : _RULE_DB_PATTERN (c :: rest) with
      | none =>
        -- no match begins here, and the scan goes on with the next character
        have hnone : ∀ name after, ¬ Matches (c :: rest) name after := by
          intro name after hmatch
          rw [← pattern_eq_some, hpattern] at hmatch
          cases hmatch
        have hlater : findall (fuel + 1) (c :: rest) = findall fuel rest := by
          simp only [findall, hpattern]
        rw [hlater, ih hfuel]
        constructor
        · rintro ⟨last, after, hreach, hmatch⟩
          exact ⟨last, after, reaches_cons.mpr (.inr (.inl ⟨hnone, hreach⟩)), hmatch⟩
        · rintro ⟨last, after, hreach, hmatch⟩
          rcases reaches_cons.mp hreach with rfl | ⟨-, hlater⟩ | ⟨_, _, hfirst, -⟩
          · exact absurd hmatch (hnone _ _)
          · exact ⟨last, after, hlater, hmatch⟩
          · exact absurd hfirst (hnone _ _)
      | some found =>
        obtain ⟨first, after⟩ := found
        -- a match begins here, and the scan goes on behind it
        have hfirst := pattern_eq_some.mp hpattern
        have hshort : after.length ≤ fuel :=
          (Nat.le_of_lt_succ hfirst.length_lt).trans hfuel
        have hlater : findall (fuel + 1) (c :: rest) = first :: findall fuel after := by
          simp only [findall, hpattern]
        rw [hlater, List.mem_cons, ih hshort]
        constructor
        · rintro (rfl | ⟨last, after', hreach, hmatch⟩)
          · exact ⟨_, _, .start, hfirst⟩
          · exact ⟨last, after', (Reaches.found .start hfirst).trans hreach, hmatch⟩
        · rintro ⟨last, after', hreach, hmatch⟩
          rcases reaches_cons.mp hreach with rfl | ⟨hnone, -⟩ | ⟨_, _, hother, hnext⟩
          · exact .inl (hmatch.unique hfirst).1
          · exact absurd hfirst (hnone _ _)
          · obtain ⟨-, rfl⟩ := hother.unique hfirst
            exact .inr ⟨last, after', hnext, hmatch⟩

theorem mem_references {rule_text name : String} :
    name ∈ extract_rule_cube_references rule_text ↔ Meets rule_text.toList name.toList := by
  rw [extract_rule_cube_references, List.mem_dedup, List.mem_map, ← mem_findall le_rfl]
  constructor
  · rintro ⟨found, hfound, rfl⟩
    rwa [String.toList_ofList]
  · intro h
    exact ⟨name.toList, h, String.ofList_toList⟩

/-! ## The calls that are active -/

/-- A character of an identifier. -/
def isWord (c : Char) : Bool := c.isAlphanum || c == '_'

/-- The name in a literal, from after its opening quote. -/
def literalName : Text → Option Text
  | '\'' :: '\'' :: rest => (literalName rest).map ('\'' :: ·)
  | '\'' :: _ => some []
  | c :: rest => (literalName rest).map (c :: ·)
  | [] => none

/-- A mark that is code. -/
def isCode (test : Char → Bool) (m : Mark) : Bool := m.kind == .code && test m.char

/-- The name that a call of `DB` at the front of a text gives first, as a literal. -/
def callAt : List Mark → Option Text
  | d :: b :: rest =>
    if isCode (isLetter 'D' 'd') d && isCode (isLetter 'B' 'b') b then
      match rest.dropWhile (isCode isspace) with
      | p :: rest =>
        if isCode (· == '(') p then
          match rest.dropWhile (isCode isspace) with
          | quote :: rest =>
            -- the quote opens a literal, and its text is the name
            if quote.kind == .literal && quote.char == '\'' then literalName (rest.map Mark.char)
            else none
          | [] => none
        else none
      | [] => none
    else none
  | _ => none

/-- The names of the calls of `DB`. An identifier that only ends in `DB` calls something else;
`word` says whether an identifier goes on. -/
def callsFrom (word : Bool) : List Mark → List Text
  | [] => []
  | m :: rest =>
    (if word then [] else (callAt (m :: rest)).toList) ++ callsFrom (isCode isWord m) rest

/-- The cubes that the active calls of `DB` in a rule text name. -/
def activeReferences (rule_text : String) : List String :=
  (callsFrom false (rules.visible (marks rule_text.toList))).map String.ofList

example : extract_rule_cube_references "x = MYDB('A') + db ( 'B', !y); # DB('C')" =
    ["A", "B", "C"] := by decide +kernel

example : activeReferences "x = MYDB('A') + db ( 'B''s', 'DB(''C'')'); # DB('D')" = ["B's"] := by
  decide +kernel

end PaCopilot.references

namespace PaCopilot.metadata

open references (activeReferences)

/-! ## Edges between cubes -/

/-- A reader whose scan of rules is the one of the extraction. -/
def Reader.scanning (rd : Reader) : Reader :=
  { rd with extract_rule_cube_references := references.extract_rule_cube_references }

/-- What the rules of a cube are: nothing where it has none. -/
def CubeInfo.ruleText (cube : CubeInfo) : String := if cube.has_rules then cube.rules else ""

/-- An active call of `DB` in the rules of one cube names the other, as TM1 compares names. -/
def Refers {rd : Reader} (m : Model rd) (a b : String) : Prop :=
  ∃ c ∈ m.cubes, c.name = a ∧ ∃ name ∈ activeReferences c.ruleText, rd.key name = rd.key b

/-- The pattern meets the name of the cube, letter by letter, in the rules of the other. -/
def Spells {rd : Reader} (m : Model rd) (a b : String) : Prop :=
  ∃ c ∈ m.cubes, c.name = a ∧ references.Meets c.ruleText.toList b.toList

/-- The edges between cubes are the references of their rules. -/
def ReferencesRecorded (rd : Reader) (organization_id : ℕ) (m : Model rd.scanning) : Prop :=
  ∀ a ∈ m.cubes, ∀ b ∈ m.cubes,
    (extract_metadata rd.scanning organization_id m).1.Named ("cube", a.name) ("cube", b.name)
      "references_cube" ↔ Refers m a.name b.name

/-- No rules refer to their own cube, every reference to another cube is where the pattern meets
it and spelled as the cube is, and the pattern meets the name of another cube in the rules only
where they refer to it. -/
structure PlainReferences {rd : Reader} (m : Model rd) : Prop where
  others : ∀ a ∈ m.cubes, ¬ Refers m a.name a.name
  spelled : ∀ a ∈ m.cubes, ∀ b ∈ m.cubes, a.name ≠ b.name → Refers m a.name b.name →
    Spells m a.name b.name
  active : ∀ a ∈ m.cubes, ∀ b ∈ m.cubes, a.name ≠ b.name → Spells m a.name b.name →
    Refers m a.name b.name

section Edges

variable {rd : Reader} {organization_id : ℕ} {g g' : Graph} {x y k a b : Key} {t u : String}

/-- An edge of one type is no edge of another. -/
theorem named_add_relationship_of_ne (h : u ≠ t) :
    (g.add_relationship a b t).Named x y u ↔ g.Named x y u := by
  by_cases hends : a ∈ g.keys ∧ b ∈ g.keys
  · rw [Graph.named_add_relationship hends.1 hends.2]
    exact ⟨fun hold => hold.elim id fun hnew => absurd hnew.2.2 h, .inl⟩
  · have hnone : g.row a b t = none := by
      rw [Option.eq_none_iff_forall_ne_some]
      intro r hr
      obtain ⟨-, o, ho, p, hp, -, -, hoa, hpb⟩ := Graph.row_ends hr
      exact hends ⟨Graph.mem_keys.mpr ⟨o, ho, hoa⟩, Graph.mem_keys.mpr ⟨p, hp, hpb⟩⟩
    unfold Graph.add_relationship
    split
    · rfl
    · rename_i r hr
      rw [hnone] at hr
      cases hr

/-- Both graphs have the same cubes and the same edges between cubes. -/
structure SameCubes (g g' : Graph) : Prop where
  cube : ∀ name, ("cube", name) ∈ g'.keys ↔ ("cube", name) ∈ g.keys
  edge : ∀ x y, g'.Named x y "references_cube" ↔ g.Named x y "references_cube"

namespace SameCubes

theorem refl (g : Graph) : SameCubes g g := ⟨fun _ => Iff.rfl, fun _ _ => Iff.rfl⟩

theorem trans {g'' : Graph} (h : SameCubes g g') (h' : SameCubes g' g'') : SameCubes g g'' :=
  ⟨fun name => (h'.cube name).trans (h.cube name), fun x y => (h'.edge x y).trans (h.edge x y)⟩

theorem foldl {α : Type} {f : Graph → α → Graph} {xs : List α}
    (h : ∀ g, ∀ x ∈ xs, SameCubes g (f g x)) (g : Graph) : SameCubes g (xs.foldl f g) := by
  induction xs generalizing g with
  | nil => exact refl g
  | cons x xs ih =>
    have hfirst := h g x (List.mem_cons_self ..)
    exact hfirst.trans (ih (fun g y hy => h g y (List.mem_cons_of_mem _ hy)) (f g x))

/-- Another object is attached with another edge. -/
theorem attach (hk : k.1 ≠ "cube") (ht : t ≠ "references_cube") (g : Graph) :
    SameCubes g (attach organization_id k a b t g) := by
  constructor
  · intro name
    rw [metadata.attach, Graph.keys_add_relationship, Graph.mem_keys_add_object]
    exact ⟨fun h => h.elim id fun heq => absurd (congrArg Prod.fst heq).symm hk, .inl⟩
  · intro x y
    rw [metadata.attach, named_add_relationship_of_ne ht.symm, Graph.named_add_object]

end SameCubes

theorem extract_cube_spec (g : Graph) (cube : CubeInfo) :
    (∀ name, ("cube", name) ∈ (extract_cube organization_id g cube).keys ↔
      ("cube", name) ∈ g.keys ∨ name = cube.name) ∧
      ∀ x y, (extract_cube organization_id g cube).Named x y "references_cube" ↔
        g.Named x y "references_cube" := by
  have hsame : SameCubes (g.add_object organization_id ("cube", cube.name))
      (extract_cube organization_id g cube) :=
    .foldl (fun g dimension _ => .attach (by simp) (by simp) g) _
  constructor
  · intro name
    rw [hsame.cube, Graph.mem_keys_add_object, Prod.mk.injEq]
    simp
  · intro x y
    rw [hsame.edge, Graph.named_add_object]

/-- The cubes of the model become objects, and have no edges yet. -/
theorem extract_cubes_spec (organization_id : ℕ) (cubes : List CubeInfo) :
    (∀ name, ("cube", name) ∈ (cubes.foldl (extract_cube organization_id) Graph.empty).keys ↔
      ∃ c ∈ cubes, c.name = name) ∧
      ∀ x y, ¬ (cubes.foldl (extract_cube organization_id) Graph.empty).Named x y
        "references_cube" := by
  let adds : CubeInfo → String ⊕ (Key × Key) → Prop := fun c i =>
    match i with
    | .inl name => c.name = name
    | .inr _ => False
  let holds : Graph → String ⊕ (Key × Key) → Prop := fun g i =>
    match i with
    | .inl name => ("cube", name) ∈ g.keys
    | .inr (x, y) => g.Named x y "references_cube"
  have hround : ∀ g, ∀ c ∈ cubes, True → ∀ i,
      holds (extract_cube organization_id g c) i ↔ holds g i ∨ adds c i := by
    rintro g c - - (name | ⟨x, y⟩)
    · exact ((extract_cube_spec g c).1 name).trans (or_congr Iff.rfl eq_comm)
    · exact ((extract_cube_spec g c).2 x y).trans ⟨.inl, fun h => h.elim id False.elim⟩
  have hcollects := (foldl_collects (extract_cube organization_id) (fun _ => True) holds adds
    (fun _ _ _ _ => trivial) hround (s := Graph.empty) trivial).2
  constructor
  · intro name
    refine (hcollects (.inl name)).trans ⟨fun h => h.elim (fun hmem => ?_) id, .inr⟩
    exact absurd hmem List.not_mem_nil
  · intro x y hnamed
    rcases (hcollects (.inr (x, y))).mp hnamed with ⟨r, hr, -⟩ | ⟨c, -, hfalse⟩
    · cases hr
    · exact hfalse

/-- The rules of a cube: an edge to each other cube whose name the scan finds. -/
theorem extract_rules_spec {cube : CubeInfo} (hcube : ("cube", cube.name) ∈ g.keys) :
    (extract_rules rd g cube).keys = g.keys ∧
      ∀ x y, (extract_rules rd g cube).Named x y "references_cube" ↔
        g.Named x y "references_cube" ∨ ∃ name ∈ rd.extract_rule_cube_references cube.rules,
          name ≠ cube.name ∧ ("cube", name) ∈ g.keys ∧ x = ("cube", cube.name) ∧
            y = ("cube", name) := by
  -- the loop over the names that the scan finds, and what one round adds
  let f : Graph → String → Graph := fun g referenced =>
    if referenced = cube.name then g
    else if ("cube", referenced) ∈ g.keys then
      g.add_relationship ("cube", cube.name) ("cube", referenced) "references_cube"
    else g
  have hkeys : ∀ g', ∀ name ∈ rd.extract_rule_cube_references cube.rules, g'.keys = g.keys →
      (f g' name).keys = g.keys := by
    intro g' name _ hg'
    by_cases hself : name = cube.name
    · rw [show f g' name = g' from if_pos hself, hg']
    · by_cases hthere : ("cube", name) ∈ g'.keys
      · rw [show f g' name = _ from (if_neg hself).trans (if_pos hthere),
          Graph.keys_add_relationship, hg']
      · rw [show f g' name = g' from (if_neg hself).trans (if_neg hthere), hg']
  let adds : String → Key × Key → Prop := fun name i =>
    name ≠ cube.name ∧ ("cube", name) ∈ g.keys ∧ i.1 = ("cube", cube.name) ∧ i.2 = ("cube", name)
  have hnamed : ∀ g', ∀ name ∈ rd.extract_rule_cube_references cube.rules, g'.keys = g.keys →
      ∀ i, (f g' name).Named i.1 i.2 "references_cube" ↔
        g'.Named i.1 i.2 "references_cube" ∨ adds name i := by
    intro g' name _ hg' i
    by_cases hself : name = cube.name
    · rw [show f g' name = g' from if_pos hself]
      exact ⟨.inl, fun h => h.elim id fun hnew => absurd hself hnew.1⟩
    · by_cases hthere : ("cube", name) ∈ g'.keys
      · rw [show f g' name = _ from (if_neg hself).trans (if_pos hthere),
          Graph.named_add_relationship (hg' ▸ hcube) hthere]
        rw [hg'] at hthere
        exact or_congr Iff.rfl
          ⟨fun h => ⟨hself, hthere, h.1, h.2.1⟩, fun h => ⟨h.2.2.1, h.2.2.2, rfl⟩⟩
      · rw [show f g' name = g' from (if_neg hself).trans (if_neg hthere)]
        rw [hg'] at hthere
        exact ⟨.inl, fun h => h.elim id fun hnew => absurd hnew.2.1 hthere⟩
  obtain ⟨hlast, hiff⟩ := foldl_collects f (fun g' => g'.keys = g.keys)
    (fun g' (i : Key × Key) => g'.Named i.1 i.2 "references_cube") adds hkeys hnamed rfl
  exact ⟨hlast, fun x y => hiff (x, y)⟩

/-- The edges between cubes that an extraction draws among the structures. -/
theorem named_structures (s : Structures) (x y : Key) :
    (extract_structures rd organization_id s).Named x y "references_cube" ↔
      ∃ c ∈ s.cubes.filter CubeInfo.has_rules, ∃ name ∈ rd.extract_rule_cube_references c.rules,
        name ≠ c.name ∧ (∃ b ∈ s.cubes, b.name = name) ∧ x = ("cube", c.name) ∧
          y = ("cube", name) := by
  obtain ⟨hcubes, hnone⟩ := extract_cubes_spec organization_id s.cubes
  have hhierarchies : ∀ (names : List String) (g : Graph),
      SameCubes g (names.foldl (extract_hierarchies organization_id s) g) := fun names =>
    .foldl fun g dimension _ => .foldl (fun g name _ => .attach (by simp) (by simp) g) g
  have hviews : ∀ (names : List String) (g : Graph),
      SameCubes g (names.foldl (extract_views organization_id s) g) := fun names =>
    .foldl fun g cube _ => .foldl (fun g name _ => .attach (by simp) (by simp) g) g
  have hsubsets : ∀ (names : List String) (g : Graph),
      SameCubes g (names.foldl (extract_subsets organization_id s) g) := fun names =>
    .foldl fun g dimension _ => .foldl (fun g name _ => .attach (by simp) (by simp) g) g
  -- What the loop over the rules adds, with all cubes there.
  let adds : CubeInfo → Key × Key → Prop := fun c i =>
    ∃ name ∈ rd.extract_rule_cube_references c.rules, name ≠ c.name ∧
      (∃ b ∈ s.cubes, b.name = name) ∧ i.1 = ("cube", c.name) ∧ i.2 = ("cube", name)
  let I : Graph → Prop := fun g => ∀ name, ("cube", name) ∈ g.keys ↔ ∃ c ∈ s.cubes, c.name = name
  have hcube : ∀ g, I g → ∀ c ∈ s.cubes.filter CubeInfo.has_rules, ("cube", c.name) ∈ g.keys :=
    fun g hg c hc => (hg c.name).mpr ⟨c, (List.mem_filter.mp hc).1, rfl⟩
  have hkeys : ∀ g, ∀ c ∈ s.cubes.filter CubeInfo.has_rules, I g → I (extract_rules rd g c) := by
    intro g c hc hg name
    rw [(extract_rules_spec (hcube g hg c hc)).1]
    exact hg name
  have hround : ∀ g, ∀ c ∈ s.cubes.filter CubeInfo.has_rules, I g → ∀ i : Key × Key,
      (extract_rules rd g c).Named i.1 i.2 "references_cube" ↔
        g.Named i.1 i.2 "references_cube" ∨ adds c i := by
    intro g c hc hg i
    have hthere : ∀ name, ("cube", name) ∈ g.keys ↔ ∃ c ∈ s.cubes, c.name = name := hg
    refine ((extract_rules_spec (hcube g hg c hc)).2 i.1 i.2).trans (or_congr Iff.rfl ?_)
    simp only [adds, hthere]
  have hstart := hhierarchies
    ((s.cubes.foldl (extract_cube organization_id) Graph.empty).list_names "dimension")
    (s.cubes.foldl (extract_cube organization_id) Graph.empty)
  have hI : I _ := fun name => (hstart.cube name).trans (hcubes name)
  have hrules := (foldl_collects (extract_rules rd) I
    (fun g (i : Key × Key) => g.Named i.1 i.2 "references_cube") adds hkeys hround hI).2 (x, y)
  rw [extract_structures, (hsubsets _ _).edge, (hviews _ _).edge]
  refine hrules.trans ⟨fun h => h.elim (fun hold => ?_) id, .inr⟩
  exact absurd ((hstart.edge x y).mp hold) (hnone x y)

/-- The edges from a cube to cubes are those among the structures. -/
theorem named_references (m : Model rd) (cube : String) (y : Key) :
    (extract_metadata rd organization_id m).1.Named ("cube", cube) y "references_cube" ↔
      (extract_structures rd organization_id m.toStructures).Named ("cube", cube) y
        "references_cube" := by
  rw [named_extracted]
  refine ⟨fun h => h.elim id ?_, .inl⟩
  rintro (⟨q, -, hprocess, -⟩ | ⟨c, -, name, -, -, hchore, -⟩)
  · exact absurd (congrArg Prod.fst hprocess) (by simp)
  · exact absurd (congrArg Prod.fst hchore) (by simp)

/-- The edges between cubes of a model are drawn to the other cubes that the scan finds. -/
theorem named_cubes (m : Model rd) (a b : String) :
    (extract_metadata rd organization_id m).1.Named ("cube", a) ("cube", b) "references_cube" ↔
      a ≠ b ∧ (∃ c ∈ m.cubes, c.name = b) ∧
        ∃ c ∈ m.cubes, c.name = a ∧ c.has_rules = true ∧
          b ∈ rd.extract_rule_cube_references c.rules := by
  rw [named_references, named_structures]
  constructor
  · rintro ⟨c, hc, name, hname, hother, hthere, hx, hy⟩
    obtain rfl : a = c.name := congrArg Prod.snd hx
    obtain rfl : b = name := congrArg Prod.snd hy
    obtain ⟨hmem, hrules⟩ := List.mem_filter.mp hc
    exact ⟨hother.symm, hthere, c, hmem, rfl, hrules, hname⟩
  · rintro ⟨hother, hthere, c, hmem, rfl, hrules, hname⟩
    exact ⟨c, List.mem_filter.mpr ⟨hmem, hrules⟩, b, hname, hother.symm, hthere, rfl, rfl⟩

end Edges

theorem found_iff {cube : CubeInfo} {b : String} :
    cube.has_rules = true ∧ b ∈ references.extract_rule_cube_references cube.rules ↔
      references.Meets cube.ruleText.toList b.toList := by
  rw [references.mem_references, CubeInfo.ruleText]
  cases cube.has_rules with
  | true => simp
  | false =>
    refine ⟨fun h => absurd h.1 (by simp), fun h => ?_⟩
    rw [if_neg (by simp), String.toList_empty] at h
    exact absurd h references.not_meets_nil

/-- An edge leads to each other cube whose name the pattern meets. -/
theorem named_iff_spells {rd : Reader} {organization_id : ℕ} (m : Model rd.scanning) {b : CubeInfo}
    (hb : b ∈ m.cubes) (a : String) :
    (extract_metadata rd.scanning organization_id m).1.Named ("cube", a) ("cube", b.name)
      "references_cube" ↔ a ≠ b.name ∧ Spells m a b.name := by
  rw [named_cubes]
  constructor
  · rintro ⟨hother, -, c, hc, hname, hrules, hfound⟩
    exact ⟨hother, c, hc, hname, found_iff.mp ⟨hrules, hfound⟩⟩
  · rintro ⟨hother, c, hc, hname, hmeets⟩
    obtain ⟨hrules, hfound⟩ := found_iff.mpr hmeets
    exact ⟨hother, ⟨b, hb, rfl⟩, c, hc, hname, hrules, hfound⟩

theorem references_recorded_iff (rd : Reader) (organization_id : ℕ) (m : Model rd.scanning) :
    ReferencesRecorded rd organization_id m ↔ PlainReferences m := by
  constructor
  · intro h
    refine ⟨fun a ha href => ?_, fun a ha b hb _ href => ?_, fun a ha b hb hne hspells => ?_⟩
    · exact absurd rfl ((named_iff_spells m ha a.name).mp ((h a ha a ha).mpr href)).1
    · exact ((named_iff_spells m hb a.name).mp ((h a ha b hb).mpr href)).2
    · exact (h a ha b hb).mp ((named_iff_spells m hb a.name).mpr ⟨hne, hspells⟩)
  · intro h a ha b hb
    rw [named_iff_spells m hb a.name]
    constructor
    · rintro ⟨hne, hspells⟩
      exact h.active a ha b hb hne hspells
    · intro href
      by_cases hne : a.name = b.name
      · rw [← hne] at href
        exact absurd href (h.others a ha)
      · exact ⟨hne, h.spelled a ha b hb hne href⟩

/-! ### A reference and a comment -/

def cubeReader : Reader where
  lower := Python.lowerAscii
  key name := String.ofList ((Python.lowerAscii name).toList.filter (· != ' '))
  key_of_lower a b h := by rw [h]
  control name := name.toList.head? = some '}'
  parse_process_code _ := []
  extract_rule_cube_references _ := []

def salesRules : CubeInfo where
  name := "Sales"
  dimensions := []
  has_rules := true
  rules := "['Cost'] = DB('unit costs', 'Unit'); # was DB('Rates', 'Unit')"

def unruled (name : String) : CubeInfo where
  name := name
  dimensions := []
  has_rules := false
  rules := ""

/-- The rules of Sales read Unit Costs, and speak of Rates in a comment. -/
def salesModel : Model cubeReader.scanning where
  cubes := [salesRules, unruled "Unit Costs", unruled "Rates"]
  hierarchy_names _ := []
  views _ := none
  subsets _ := none
  processes := []
  chores := []
  cube_names := by decide +kernel
  dimension_names c hc c' _ d hd := by
    have hempty : c.dimensions = [] := by
      simp only [List.mem_cons, List.not_mem_nil, or_false] at hc
      rcases hc with rfl | rfl | rfl <;> rfl
    rw [hempty] at hd
    exact absurd hd List.not_mem_nil
  process_names := List.nodup_nil

/-- Sales has no edge to Unit Costs, which is not spelled as the cube is. -/
theorem sales_edges_wrong : ¬ ReferencesRecorded cubeReader 1 salesModel := by
  intro h
  have hrefers : Refers salesModel "Sales" "Unit Costs" := by
    refine ⟨salesRules, List.mem_cons_self, rfl, "unit costs", by decide +kernel, by decide +kernel⟩
  have hedge := (h salesRules List.mem_cons_self (unruled "Unit Costs")
    (List.mem_cons_of_mem _ List.mem_cons_self)).mpr hrefers
  exact absurd hedge (by decide +kernel)

end PaCopilot.metadata
