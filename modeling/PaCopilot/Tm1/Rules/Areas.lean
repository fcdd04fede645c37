/-
Areas and the element names in them.

The rules language writes an area `['n1','n2']`, with an apostrophe in a name doubled.
`_AREA` cuts the area out by its brackets and does not look at quotes, and `_QUOTED` finds
the names by their quotes and does not know that an apostrophe is doubled. So what is read
back is the names that were written as long as no name has an apostrophe, and no bracket
closes in a name for good.
-/
import PaCopilot.Tm1.Rules.Arrows

set_option autoImplicit false

namespace PaCopilot.rules

open Python (isspace strip)

/-! ## Areas as they are written -/

/-- A name in quotes, each apostrophe in it doubled. -/
def quoted (name : Text) : Text :=
  '\'' :: (name.flatMap fun c => if c = '\'' then ['\'', '\''] else [c]) ++ ['\'']

/-- What stands between the brackets of an area. -/
def contentText (names : List Text) : Text := List.intercalate [','] (names.map quoted)

def areaText (names : List Text) : Text := '[' :: contentText names ++ [']']

/-- A name of an element: neither blank nor with white space at its ends, and without line
breaks and double quotes. -/
structure ElementName (name : Text) : Prop where
  nonempty : name ≠ []
  trimmed : strip name = name
  one_line : ∀ c ∈ name, isLineBreak c = false
  no_double : '"' ∉ name

/-- The next character that is not blank opens a bracket. -/
def reopens (rest : Text) : Bool := (lstrip rest).head? == some '['

/-- Each bracket that closes in a text is followed by one that opens. -/
def bracketsReopen : Text → Bool
  | [] => true
  | c :: rest => (c != ']' || reopens rest) && bracketsReopen rest

/-- A name that `_AREA` and `_QUOTED` leave whole. -/
structure PlainName (name : Text) : Prop where
  apostrophe : '\'' ∉ name
  brackets : bracketsReopen name = true

theorem quoted_of_no_apostrophe {name : Text} (h : '\'' ∉ name) :
    quoted name = '\'' :: name ++ ['\''] := by
  have hsame : (name.flatMap fun c => if c = '\'' then ['\'', '\''] else [c]) = name := by
    induction name with
    | nil => rfl
    | cons c name ih =>
      rw [List.mem_cons, not_or] at h
      rw [List.flatMap_cons, ih h.2, if_neg (Ne.symm h.1)]
      rfl
  rw [quoted, hsame]

/-! ## The names between quotes -/

/-- `_QUOTED` goes over a character that is no quote. -/
theorem _QUOTED_cons {c : Char} (hc : isQuote c = false) (fuel : ℕ) (rest : Text) :
    _QUOTED (fuel + 1) (c :: rest) = _QUOTED fuel rest := by
  rw [_QUOTED, if_neg (by rw [hc]; decide)]

/-- `_QUOTED` reads a name up to its closing quote. -/
theorem _QUOTED_quoted {name : Text} (h : '\'' ∉ name) (fuel : ℕ) (rest : Text) :
    _QUOTED (fuel + 1) ('\'' :: (name ++ '\'' :: rest)) = name :: _QUOTED fuel rest := by
  have hname : ∀ c ∈ name, (c != '\'') = true := fun c hc => by
    rw [bne_iff_ne]
    rintro rfl
    exact h hc
  have hspan : (name ++ '\'' :: rest).span (· != '\'') = (name, '\'' :: rest) := by
    rw [List.span_eq_takeWhile_dropWhile, List.takeWhile_append_of_pos hname,
      List.dropWhile_append_of_pos hname]
    simp
  rw [_QUOTED, if_pos (by decide), hspan]

/-- Text without quotes has no names. -/
theorem _QUOTED_of_no_quote {s : Text} (h : ∀ c ∈ s, isQuote c = false) (fuel : ℕ) :
    _QUOTED fuel s = [] := by
  induction s generalizing fuel with
  | nil => cases fuel <;> rfl
  | cons c s ih =>
    rw [List.forall_mem_cons] at h
    cases fuel with
    | zero => rfl
    | succ fuel =>
      rw [_QUOTED_cons h.1]
      exact ih h.2 fuel

/-- What is found in text without double quotes has no apostrophe in it, and takes two
apostrophes of the text each. -/
theorem _QUOTED_spec (fuel : ℕ) {s : Text} (h : '"' ∉ s) :
    (∀ value ∈ _QUOTED fuel s, '\'' ∉ value) ∧
      2 * (_QUOTED fuel s).length ≤ s.count '\'' := by
  induction fuel generalizing s with
  | zero => cases s <;> exact ⟨by simp [_QUOTED], by simp [_QUOTED]⟩
  | succ fuel ih =>
    cases s with
    | nil => exact ⟨by simp [_QUOTED], by simp [_QUOTED]⟩
    | cons c rest =>
      rw [List.mem_cons, not_or] at h
      have ihRest := ih h.2
      have hcount : rest.count '\'' ≤ (c :: rest).count '\'' := List.count_le_count_cons
      rw [_QUOTED]
      by_cases hquote : isQuote c = true
      · have hc : c = '\'' := by
          rw [isQuote, Bool.or_eq_true, beq_iff_eq, beq_iff_eq] at hquote
          exact hquote.resolve_right (Ne.symm h.1)
        subst hc
        rw [if_pos hquote]
        split
        · rename_i value close after hspan
          rw [List.span_eq_takeWhile_dropWhile, Prod.mk.injEq] at hspan
          have hrest : value ++ close :: after = rest := by
            rw [← hspan.1, ← hspan.2, List.takeWhile_append_dropWhile]
          -- a name stands between two apostrophes, and the search goes on behind it
          have hclose : close = '\'' := by
            have hhead := List.head?_dropWhile_not (· != '\'') rest
            rw [hspan.2] at hhead
            simpa using hhead
          have hvalue : '\'' ∉ value := fun hmem => by
            rw [← hspan.1] at hmem
            simpa using List.mem_takeWhile_imp hmem
          have hafter : '"' ∉ after := fun hmem => h.2 (by simp [← hrest, hmem])
          obtain ⟨hfound, hlength⟩ := ih hafter
          refine ⟨List.forall_mem_cons.mpr ⟨hvalue, hfound⟩, ?_⟩
          rw [← hrest, hclose, List.length_cons, List.count_cons_self, List.count_append,
            List.count_cons_self]
          omega
        -- nothing closes it: this apostrophe is passed over
        · exact ⟨ihRest.1, ihRest.2.trans hcount⟩
      · rw [if_neg hquote]
        exact ⟨ihRest.1, ihRest.2.trans hcount⟩

/-! ## Where an area ends -/

/-- A text up to the first bracket that closes and is not followed by one that opens, and what
follows that bracket. -/
def firstShut : Text → Option (Text × Text)
  | [] => none
  | c :: rest =>
    if c == ']' && !reopens rest then some ([], rest)
    else (firstShut rest).map fun (front, after) => (c :: front, after)

theorem reopens_cons_space {c : Char} (hc : isspace c = true) (rest : Text) :
    reopens (c :: rest) = reopens rest := by
  rw [reopens, lstrip, List.dropWhile_cons_of_pos hc]
  rfl

/-- Another bracket may be what comes first in what follows, but not what was there before. -/
theorem reopens_append {d : Char} (hd : isspace d = false) (hopen : d ≠ '[') (rest after : Text) :
    reopens (rest ++ d :: after) = reopens rest := by
  induction rest with
  | nil =>
    have hbeq : (d == '[') = false := beq_false_of_ne hopen
    rw [List.nil_append, reopens, lstrip, List.dropWhile_cons_of_neg (by rw [hd]; decide)]
    simp [reopens, lstrip, hopen]
  | cons c rest ih =>
    by_cases hc : isspace c = true
    · rw [List.cons_append, reopens_cons_space hc, reopens_cons_space hc, ih]
    · rw [List.cons_append, reopens, lstrip, List.dropWhile_cons_of_neg hc, reopens, lstrip,
        List.dropWhile_cons_of_neg hc]
      rfl

theorem firstShut_cons {c : Char} {rest : Text} (h : c ≠ ']' ∨ reopens rest = true) :
    firstShut (c :: rest) = (firstShut rest).map fun (front, after) => (c :: front, after) := by
  rw [firstShut, if_neg]
  rcases h with hc | hreopens
  · simp [hc]
  · simp [hreopens]

/-- Text without brackets that close is gone over. -/
theorem firstShut_append {s : Text} (h : ']' ∉ s) (rest : Text) :
    firstShut (s ++ rest) = (firstShut rest).map fun (front, after) => (s ++ front, after) := by
  induction s with
  | nil => simp
  | cons c s ih =>
    rw [List.mem_cons, not_or] at h
    rw [List.cons_append, firstShut_cons (.inl (Ne.symm h.1)), ih h.2, Option.map_map]
    rfl

theorem bracketGroups_of_not_open {s : Text} (h : s.head? ≠ some '[') (fuel : ℕ) :
    bracketGroups fuel s = ([], s) := by
  cases fuel with
  | zero => rfl
  | succ fuel =>
    have hnone : bracketGroup s = none := by
      rw [bracketGroup.eq_def]
      split
      · exact absurd rfl h
      · rfl
    rw [bracketGroups, hnone]

theorem bracketGroup_of_first {s tail : Text} (h : ']' ∉ s) :
    bracketGroup ('[' :: (s ++ ']' :: tail)) = some ('[' :: s ++ [']'], tail) := by
  have hs : ∀ c ∈ s, (c != ']') = true := fun c hc => by
    rw [bne_iff_ne]
    rintro rfl
    exact h hc
  have hspan : (s ++ ']' :: tail).span (· != ']') = (s, ']' :: tail) := by
    rw [List.span_eq_takeWhile_dropWhile, List.takeWhile_append_of_pos hs,
      List.dropWhile_append_of_pos hs]
    simp
  rw [bracketGroup, hspan]

/-- The groups of brackets go up to the first bracket that closes for good. -/
theorem bracketGroups_of_firstShut {fuel : ℕ} {s front after : Text}
    (h : firstShut s = some (front, after)) (hfuel : s.length < fuel) :
    bracketGroups fuel ('[' :: s) =
      ('[' :: front ++ ']' :: after.takeWhile isspace, after.dropWhile isspace) := by
  induction fuel generalizing s front with
  | zero => exact absurd hfuel (Nat.not_lt_zero _)
  | succ fuel ih =>
    obtain ⟨first, tail, hfirst, rfl⟩ : ∃ first tail, ']' ∉ first ∧ s = first ++ ']' :: tail := by
      have hmem : ']' ∈ s := by
        by_contra hmem
        have hnone := firstShut_append hmem []
        rw [List.append_nil, h] at hnone
        cases hnone
      obtain ⟨first, tail, hsplit, hfirst⟩ := List.eq_append_cons_of_mem hmem
      exact ⟨first, tail, hfirst, hsplit⟩
    rw [bracketGroups, bracketGroup_of_first hfirst]
    dsimp only
    rw [firstShut_append hfirst] at h
    by_cases hreopens : reopens tail = true
    · -- The next group is read in the same way.
      obtain ⟨rest, hrest⟩ : ∃ rest, tail.dropWhile isspace = '[' :: rest := by
        rw [reopens, beq_iff_eq, lstrip, List.head?_eq_some_iff] at hreopens
        exact hreopens
      have htail : tail = (tail.takeWhile isspace ++ ['[']) ++ rest := by
        rw [List.append_assoc, List.singleton_append, ← hrest, List.takeWhile_append_dropWhile]
      have hblank : ']' ∉ tail.takeWhile isspace ++ ['['] := by
        rw [List.mem_append, not_or]
        exact ⟨fun hmem => absurd (List.mem_takeWhile_imp hmem) (by decide), by decide⟩
      have hlength := congrArg List.length htail
      rw [firstShut_cons (.inr hreopens), htail, firstShut_append hblank] at h
      cases hnext : firstShut rest with
      | none =>
        rw [hnext] at h
        cases h
      | some found =>
        obtain ⟨front', after'⟩ := found
        rw [hnext] at h
        cases h
        have hfuel : rest.length < fuel := by
          simp only [List.length_append, List.length_cons, List.length_nil] at hfuel hlength
          omega
        rw [hrest, ih hnext hfuel]
        simp
    · rw [firstShut, if_pos (by simpa using hreopens)] at h
      cases h
      rw [bracketGroups_of_not_open (by simpa [reopens, lstrip] using hreopens)]
      simp

/-- The first bracket that closes for good is no later than one that does. -/
theorem firstShut_of_shut {after : Text} (h : reopens after = false) (s : Text) :
    ∃ front between rest, firstShut (s ++ ']' :: after) = some (front, rest) ∧
      s = front ++ between := by
  induction s with
  | nil =>
    refine ⟨[], [], after, ?_, rfl⟩
    rw [List.nil_append, firstShut, if_pos (by simp [h])]
  | cons c s ih =>
    rw [List.cons_append, firstShut]
    split
    · exact ⟨[], c :: s, _, rfl, rfl⟩
    · obtain ⟨front, between, rest, hfirst, hs⟩ := ih
      rw [hfirst, hs]
      exact ⟨c :: front, between, rest, rfl, rfl⟩

/-- A name whose brackets reopen is gone over. -/
theorem firstShut_plain {name : Text} (h : bracketsReopen name = true) (after : Text) :
    firstShut (name ++ '\'' :: after) =
      (firstShut ('\'' :: after)).map fun (front, rest) => (name ++ front, rest) := by
  induction name with
  | nil => simp
  | cons c name ih =>
    have hopen : reopens (name ++ '\'' :: after) = reopens name :=
      reopens_append (by decide) (by decide) name after
    rw [bracketsReopen, Bool.and_eq_true] at h
    have hc : c ≠ ']' ∨ reopens (name ++ '\'' :: after) = true := by
      rw [hopen]
      simpa using h.1
    rw [List.cons_append, firstShut_cons hc, ih h.2, Option.map_map]
    rfl

/-- The area ends in a name with a bracket that closes for good. -/
theorem firstShut_in_name {name : Text} (h : bracketsReopen name = false) (after : Text) :
    ∃ front between rest, firstShut (name ++ '\'' :: after) = some (front, rest) ∧
      name = front ++ between := by
  induction name with
  | nil => cases h
  | cons c name ih =>
    have hopen : reopens (name ++ '\'' :: after) = reopens name :=
      reopens_append (by decide) (by decide) name after
    rw [List.cons_append, firstShut]
    split
    · exact ⟨[], c :: name, _, rfl, rfl⟩
    · rename_i hc
      have hname : bracketsReopen name = false := by
        rw [hopen] at hc
        rw [bracketsReopen, Bool.and_eq_false_iff] at h
        exact h.resolve_left (by simpa using hc)
      obtain ⟨front, between, rest, hfirst, heq⟩ := ih hname
      rw [hfirst, heq]
      exact ⟨c :: front, between, rest, rfl, rfl⟩

/-! ## The elements of an area -/

/-- What follows a name in an area. -/
def afterName (names : List Text) (after : Text) : Text :=
  if names = [] then after else ',' :: (contentText names ++ after)

theorem contentText_cons {name : Text} (h : '\'' ∉ name) (names : List Text) (after : Text) :
    contentText (name :: names) ++ after = '\'' :: (name ++ '\'' :: afterName names after) := by
  rw [contentText, List.map_cons, quoted_of_no_apostrophe h, afterName]
  cases names with
  | nil => simp
  | cons next names =>
    rw [List.map_cons, List.intercalate_cons_cons, if_neg (List.cons_ne_nil next names),
      contentText, List.map_cons]
    simp

/-- Names without apostrophes: `_AREA` stops at the end of the area when their brackets reopen,
and else inside a name. -/
theorem firstShut_contentText {after : Text} (h : reopens after = false) {names : List Text}
    (hnames : names ≠ []) (hapostrophe : ∀ name ∈ names, '\'' ∉ name) :
    ∃ front rest, firstShut (contentText names ++ ']' :: after) = some (front, rest) ∧
      ((∀ name ∈ names, bracketsReopen name = true) → front = contentText names ∧ rest = after) ∧
      ((∃ name ∈ names, bracketsReopen name = false) → front.count '\'' < 2 * names.length) := by
  induction names with
  | nil => exact absurd rfl hnames
  | cons name names ih =>
    rw [List.forall_mem_cons] at hapostrophe
    have hcontent := contentText_cons hapostrophe.1 names
    rw [hcontent, firstShut_cons (.inl (by decide))]
    cases hname : bracketsReopen name with
    | false =>
      -- the scan stops in this name, and has passed no apostrophe but its first
      obtain ⟨front, between, rest, hfirst, heq⟩ := firstShut_in_name hname
        (afterName names (']' :: after))
      have hcount : front.count '\'' = 0 := by
        rw [List.count_eq_zero]
        intro hmem
        exact hapostrophe.1 (heq ▸ List.mem_append_left between hmem)
      refine ⟨'\'' :: front, rest, by rw [hfirst]; rfl, fun hall => ?_, fun _ => ?_⟩
      · rw [hall name (List.mem_cons_self ..)] at hname
        cases hname
      · rw [List.count_cons_self, hcount, List.length_cons]
        omega
    | true =>
      -- the scan passes the name, and stops at the bracket after it or in a later name
      rw [firstShut_plain hname, firstShut_cons (.inl (by decide)), Option.map_map, Option.map_map]
      by_cases hlast : names = []
      · subst hlast
        have hshut : firstShut (afterName [] (']' :: after)) = some ([], after) := by
          rw [afterName, if_pos rfl, firstShut, if_pos (by simp [h])]
        rw [hshut]
        refine ⟨'\'' :: (name ++ ['\'']), after, rfl, fun _ => ⟨?_, rfl⟩, fun hex => ?_⟩
        · have hself := hcontent []
          rw [List.append_nil, afterName, if_pos rfl] at hself
          exact hself.symm
        · obtain ⟨other, hmem, hother⟩ := hex
          rw [List.mem_singleton.mp hmem, hname] at hother
          cases hother
      · obtain ⟨front, rest, hfirst, hplain, hcut⟩ := ih hlast hapostrophe.2
        have hshut : firstShut (afterName names (']' :: after)) = some (',' :: front, rest) := by
          rw [afterName, if_neg hlast, firstShut_cons (.inl (by decide)), hfirst]
          rfl
        rw [hshut]
        refine ⟨'\'' :: (name ++ '\'' :: ',' :: front), rest, rfl, fun hall => ?_, fun hex => ?_⟩
        · obtain ⟨hfront, hrest⟩ := hplain fun other hmem =>
            hall other (List.mem_cons_of_mem _ hmem)
          refine ⟨?_, hrest⟩
          have hself := hcontent []
          rw [List.append_nil, afterName, if_neg hlast, List.append_nil] at hself
          rw [hfront, hself]
        · have hlater : ∃ other ∈ names, bracketsReopen other = false := by
            obtain ⟨other, hmem, hother⟩ := hex
            rcases List.mem_cons.mp hmem with rfl | hmem
            · rw [hname] at hother
              cases hother
            · exact ⟨other, hmem, hother⟩
          have hcount := hcut hlater
          have hzero : name.count '\'' = 0 := List.count_eq_zero.mpr hapostrophe.1
          rw [List.count_cons_self, List.count_append, List.count_cons_self, hzero,
            List.count_cons_of_ne (by decide), List.length_cons]
          omega

/-- The names of an area that has no apostrophe in a name. -/
theorem _QUOTED_contentText {names : List Text} (hapostrophe : ∀ name ∈ names, '\'' ∉ name)
    {after : Text} (hafter : ∀ c ∈ after, isQuote c = false) {fuel : ℕ}
    (hfuel : (contentText names ++ after).length ≤ fuel) :
    _QUOTED fuel (contentText names ++ after) = names := by
  induction names generalizing fuel with
  | nil => exact _QUOTED_of_no_quote hafter fuel
  | cons name names ih =>
    rw [List.forall_mem_cons] at hapostrophe
    rw [contentText_cons hapostrophe.1, afterName] at hfuel ⊢
    obtain ⟨fuel, rfl⟩ : ∃ n, fuel = n + 1 := Nat.exists_eq_add_one_of_ne_zero (by
      rw [List.length_cons] at hfuel
      omega)
    rw [_QUOTED_quoted hapostrophe.1]
    rw [List.length_cons, List.length_append, List.length_cons] at hfuel
    split at hfuel
    · rename_i hlast
      rw [if_pos hlast, hlast, _QUOTED_of_no_quote hafter fuel]
    · rename_i hmore
      rw [List.length_cons] at hfuel
      obtain ⟨fuel, rfl⟩ : ∃ n, fuel = n + 1 := Nat.exists_eq_add_one_of_ne_zero (by omega)
      rw [if_neg hmore, _QUOTED_cons (by decide), ih hapostrophe.2 (by omega)]

theorem mem_quoted {c : Char} {name : Text} (h : c ∈ quoted name) : c = '\'' ∨ c ∈ name := by
  rw [quoted, List.mem_append, List.mem_cons, List.mem_singleton, List.mem_flatMap] at h
  rcases h with (hquote | ⟨d, hd, hc⟩) | hquote
  · exact .inl hquote
  · split at hc
    · rename_i heq
      simp only [List.mem_cons, List.not_mem_nil, or_false, or_self] at hc
      exact .inl hc
    · rw [List.mem_singleton] at hc
      exact .inr (hc ▸ hd)
  · exact .inl hquote

theorem mem_intercalate {c : Char} {sep : Text} {parts : List Text}
    (h : c ∈ List.intercalate sep parts) : c ∈ sep ∨ ∃ part ∈ parts, c ∈ part := by
  induction parts with
  | nil => cases h
  | cons part parts ih =>
    cases parts with
    | nil =>
      rw [List.intercalate_singleton] at h
      exact .inr ⟨part, List.mem_cons_self .., h⟩
    | cons next parts =>
      rw [List.intercalate_cons_cons, List.mem_append, List.mem_append] at h
      rcases h with (hpart | hsep) | hrest
      · exact .inr ⟨part, List.mem_cons_self .., hpart⟩
      · exact .inl hsep
      · rcases ih hrest with hsep | ⟨other, hmem, hc⟩
        · exact .inl hsep
        · exact .inr ⟨other, List.mem_cons_of_mem _ hmem, hc⟩

/-- The characters of an area are commas, apostrophes and those of its names. -/
theorem mem_contentText {c : Char} {names : List Text} (h : c ∈ contentText names) :
    c = ',' ∨ c = '\'' ∨ ∃ name ∈ names, c ∈ name := by
  rcases mem_intercalate h with hcomma | ⟨part, hpart, hc⟩
  · exact .inl (List.mem_singleton.mp hcomma)
  · obtain ⟨name, hname, rfl⟩ := List.mem_map.mp hpart
    rcases mem_quoted hc with hquote | hmem
    · exact .inr (.inl hquote)
    · exact .inr (.inr ⟨name, hname, hmem⟩)

theorem mem_of_mem_strip {c : Char} {s : Text} (h : c ∈ strip s) : c ∈ s := by
  rw [strip, List.mem_reverse] at h
  have hback := List.dropWhile_subset isspace h
  rw [List.mem_reverse] at hback
  exact List.dropWhile_subset isspace hback

/-- The elements of a text without double quotes have no apostrophe, and take two of the
text's apostrophes each. -/
theorem elements_spec {area : Text} (h : '"' ∉ area) :
    (∀ element ∈ _elements_of area, '\'' ∉ element) ∧
      2 * (_elements_of area).length ≤ area.count '\'' := by
  obtain ⟨hvalues, hlength⟩ := _QUOTED_spec area.length h
  rw [_elements_of]
  constructor
  · intro element helement hmem
    obtain ⟨value, hvalue, rfl⟩ := List.mem_map.mp (List.mem_filter.mp helement).1
    exact hvalues value hvalue (mem_of_mem_strip hmem)
  · have hfilter := List.length_filter_le (fun value : Text => !value.isEmpty)
      ((_QUOTED area.length area).map strip)
    rw [List.length_map] at hfilter
    omega

/-- The elements of an area as it is written, with no apostrophe in a name. -/
theorem elements_of_contentText {names : List Text} (hnames : ∀ name ∈ names, ElementName name)
    (hapostrophe : ∀ name ∈ names, '\'' ∉ name) {blank : Text}
    (hblank : ∀ c ∈ blank, isspace c = true) :
    _elements_of ('[' :: contentText names ++ ']' :: blank) = names := by
  have hafter : ∀ c ∈ ']' :: blank, isQuote c = false := by
    refine List.forall_mem_cons.mpr ⟨rfl, fun c hc => ?_⟩
    by_contra hquote
    have hspace := hblank c hc
    rw [Bool.not_eq_false, isQuote, Bool.or_eq_true, beq_iff_eq, beq_iff_eq] at hquote
    rcases hquote with rfl | rfl <;> cases hspace
  have hfound : _QUOTED ('[' :: contentText names ++ ']' :: blank).length
      ('[' :: contentText names ++ ']' :: blank) = names := by
    rw [List.cons_append, List.length_cons, _QUOTED_cons (by decide)]
    exact _QUOTED_contentText hapostrophe hafter le_rfl
  have htrimmed : names.map strip = names := by
    conv_rhs => rw [← List.map_id names]
    exact List.map_congr_left fun name hmem => (hnames name hmem).trimmed
  rw [_elements_of, hfound, htrimmed, List.filter_eq_self]
  intro name hmem
  simpa using (hnames name hmem).nonempty

/-- What an area is read as. -/
theorem elements_of_areaText {names : List Text} (hne : names ≠ [])
    (hnames : ∀ name ∈ names, ElementName name) {after : Text} (hafter : reopens after = false) :
    _elements_of (areaOf (areaText names ++ after)).1 = names ↔ ∀ name ∈ names, PlainName name := by
  obtain ⟨front, between, rest, hfirst, hcontent⟩ := firstShut_of_shut hafter (contentText names)
  have harea : (areaOf (areaText names ++ after)).1 =
      '[' :: front ++ ']' :: rest.takeWhile isspace := by
    have hraw : lstrip (areaText names ++ after) = '[' :: (contentText names ++ ']' :: after) := by
      rw [areaText, lstrip, List.cons_append, List.cons_append,
        List.dropWhile_cons_of_neg (by decide)]
      simp
    rw [areaOf, _AREA, hraw, List.length_cons,
      bracketGroups_of_firstShut hfirst (Nat.lt_add_one _)]
    rfl
  have hdouble : '"' ∉ '[' :: front ++ ']' :: rest.takeWhile isspace := by
    intro hmem
    simp only [List.mem_append, List.mem_cons] at hmem
    rcases hmem with (hopen | hfront) | hclose | hspace
    · cases hopen
    · have hmem : '"' ∈ contentText names := hcontent ▸ List.mem_append_left between hfront
      rcases mem_contentText hmem with hcomma | hquote | ⟨name, hname, hc⟩
      · cases hcomma
      · cases hquote
      · exact (hnames name hname).no_double hc
    · cases hclose
    · exact absurd (List.mem_takeWhile_imp hspace) (by decide)
  rw [harea]
  obtain ⟨hfound, hlength⟩ := elements_spec hdouble
  constructor
  · intro helements
    rw [helements] at hfound hlength
    -- an area that is cut inside a name has too few apostrophes for so many names
    obtain ⟨front', rest', hfirst', -, hcut⟩ := firstShut_contentText hafter hne hfound
    rw [hfirst, Option.some.injEq, Prod.mk.injEq] at hfirst'
    obtain ⟨rfl, rfl⟩ := hfirst'
    refine fun name hname => ⟨hfound name hname, ?_⟩
    by_contra hreopen
    have hcount := hcut ⟨name, hname, by simpa using hreopen⟩
    have hblank : (rest.takeWhile isspace).count '\'' = 0 := by
      rw [List.count_eq_zero]
      exact fun hmem => absurd (List.mem_takeWhile_imp hmem) (by decide)
    rw [List.count_append, List.count_cons_of_ne (by decide), List.count_cons_of_ne (by decide),
      hblank] at hlength
    omega
  · intro hplain
    have hapostrophe : ∀ name ∈ names, '\'' ∉ name := fun name hname =>
      (hplain name hname).apostrophe
    obtain ⟨front', rest', hfirst', hwhole, -⟩ := firstShut_contentText hafter hne hapostrophe
    rw [hfirst, Option.some.injEq, Prod.mk.injEq] at hfirst'
    obtain ⟨rfl, rfl⟩ := hfirst'
    obtain ⟨hfront, -⟩ := hwhole fun name hname => (hplain name hname).brackets
    rw [hfront]
    exact elements_of_contentText hnames hapostrophe fun c hc => List.mem_takeWhile_imp hc

/-! ## An area in a rule text -/

/-- A text that neither begins a comment nor ends a statement, read from one mode to another. -/
structure Inert (mode mode' : Mode) (s : Text) : Prop where
  marks : ∀ line, ∀ m ∈ marksFrom mode line s,
    m.kind ≠ .comment ∧ m.ends = false ∧ (m.kind = .literal → m.char ≠ '\n')
  mode : modeAfter mode s = mode'

namespace Inert

variable {mode a b : Mode} {s t : Text} {c : Char}

theorem nil (mode : Mode) : Inert mode mode [] where
  marks _ m hm := by cases hm
  mode := rfl

theorem append {d : Mode} (hs : Inert a b s) (ht : Inert b d t) : Inert a d (s ++ t) := by
  constructor
  · intro line m hm
    rw [marksFrom_append, hs.mode, List.mem_append] at hm
    exact hm.elim (hs.marks _ m) (ht.marks _ m)
  · rw [modeAfter_append, hs.mode, ht.mode]

/-- A character of a literal that is no newline. -/
theorem literal (mode : Mode) {c : Char} (hkind : mode.kind c = .literal) (hc : c ≠ '\n') :
    Inert mode (mode.next c) [c] where
  marks line m hm := by
    rw [marksFrom, marksFrom, List.mem_singleton] at hm
    subst hm
    simp [Mark.ends, hkind, hc]
  mode := rfl

/-- A character of code that is no semicolon. -/
theorem code (mode : Mode) {c : Char} (hkind : mode.kind c = .code) (hc : c ≠ ';') :
    Inert mode (mode.next c) [c] where
  marks line m hm := by
    rw [marksFrom, marksFrom, List.mem_singleton] at hm
    subst hm
    simp [Mark.ends, hkind, hc]
  mode := rfl

/-- White space between the words of a statement. -/
theorem blank (hblank : ∀ c ∈ s, isspace c = true) : Inert .code .code s := by
  induction s with
  | nil => exact nil .code
  | cons c s ih =>
    rw [List.forall_mem_cons] at hblank
    have hcode : ∀ d, isspace d = false → c ≠ d := fun d hd heq => by
      rw [heq, hd] at hblank
      cases hblank.1
    have hkind : Mode.code.kind c = .code := by
      simp [Mode.kind, isQuote, hcode '\'' rfl, hcode '"' rfl, hcode '#' rfl]
    have hnext : Mode.code.next c = .code := by
      simp [Mode.next, isQuote, hcode '\'' rfl, hcode '"' rfl, hcode '#' rfl]
    have hfirst := code .code hkind (hcode ';' rfl)
    rw [hnext] at hfirst
    exact hfirst.append (ih hblank.2)

/-- A name in quotes is a literal, or several next to each other. -/
theorem quoted {name : Text} (hname : ∀ c ∈ name, isLineBreak c = false) :
    Inert .code .code (quoted name) := by
  have hopen : Inert .code (.literal '\'') ['\''] := literal .code (c := '\'') rfl (by decide)
  have hclose : Inert (.literal '\'') .code ['\''] :=
    literal (.literal '\'') (c := '\'') rfl (by decide)
  have hinner : Inert (.literal '\'') (.literal '\'')
      (name.flatMap fun c => if c = '\'' then ['\'', '\''] else [c]) := by
    induction name with
    | nil => exact nil _
    | cons c name ih =>
      rw [List.forall_mem_cons] at hname
      rw [List.flatMap_cons]
      refine append ?_ (ih hname.2)
      split
      · exact hclose.append hopen
      · rename_i hc
        have hbreak : c ≠ '\n' := by
          rintro rfl
          cases hname.1
        have hnext : (Mode.literal '\'').next c = .literal '\'' := by
          rw [Mode.next, if_neg (by simpa using hc)]
        have hsingle := literal (.literal '\'') rfl hbreak
        rw [hnext] at hsingle
        exact hsingle
  exact (hopen.append hinner).append hclose

theorem contentText {names : List Text} (hnames : ∀ name ∈ names, ElementName name) :
    Inert .code .code (contentText names) := by
  induction names with
  | nil => exact nil .code
  | cons name names ih =>
    rw [List.forall_mem_cons] at hnames
    have hname := quoted hnames.1.one_line
    cases names with
    | nil =>
      rw [rules.contentText, List.map_singleton, List.intercalate_singleton]
      exact hname
    | cons next names =>
      have hcomma : Inert .code .code [','] := code .code (c := ',') rfl (by decide)
      rw [rules.contentText, List.map_cons, List.map_cons, List.intercalate_cons_cons]
      exact (hname.append hcomma).append (ih hnames.2)

theorem areaText {names : List Text} (hnames : ∀ name ∈ names, ElementName name) :
    Inert .code .code (areaText names) := by
  have hopen : Inert .code .code ['['] := code .code (c := '[') rfl (by decide)
  have hclose : Inert .code .code [']'] := code .code (c := ']') rfl (by decide)
  exact (hopen.append (contentText hnames)).append hclose

/-- All of an inert text is seen. -/
theorem visible_eq (h : Inert a b s) (line : ℕ) :
    visible (marksFrom a line s) = marksFrom a line s := by
  rw [visible, List.filter_eq_self]
  intro m hm
  simpa using (h.marks line m hm).1

end Inert

/-- A text after which a statement begins: it ends in code, and after its last semicolon only
with white space and comments. -/
structure Between (before : Text) : Prop extends ClosedLines before where
  code : modeAfter .code before = .code
  blank : ∀ stretch ∈ (stretches before).getLast?, ∀ m ∈ stretch, isspace m.char = true

/-- White space without line breaks other than newlines. -/
def IsGap (gap : Text) : Prop :=
  ∀ c ∈ gap, isspace c = true ∧ (isLineBreak c = true → c = '\n')

/-- The statement an item is made of. -/
def Item.statement? : Item → Option Statement
  | .feeder statement => some statement
  | .calculation statement => some statement
  | _ => none

/-- A statement is in one of the lists of the rules. -/
def ParsedRules.Has (parsed : ParsedRules) (statement : Statement) : Prop :=
  statement ∈ parsed.feeders ∨ statement ∈ parsed.calculations ∨
    statement ∈ parsed.misplaced_calculations

/-- `parse_rules` makes a statement with these elements of the one at a place of the text. -/
def ReadAs (casing : Casing) (text : Text) (place : ℕ) (elements : List Text) : Prop :=
  ∃ x ∈ (rawStatements text)[place]?, ∃ statement ∈ (item casing x.1 x.2).statement?,
    (parse_rules casing text).Has statement ∧ statement.elements = elements

/-- Marks that end nothing go to the last stretch. -/
theorem splitOnP_append_of_none (marks : List Mark) {after : List Mark}
    (h : ∀ m ∈ after, m.ends = false) :
    ∃ done last, marks.splitOnP Mark.ends = done ++ [last] ∧
      (marks ++ after).splitOnP Mark.ends = done ++ [last ++ after] := by
  induction marks with
  | nil => exact ⟨[], [], rfl, List.splitOnP_eq_singleton h⟩
  | cons m marks ih =>
    obtain ⟨done, last, hmarks, happend⟩ := ih
    rw [List.cons_append, List.splitOnP_cons_eq_if_modifyHead, List.splitOnP_cons_eq_if_modifyHead,
      hmarks, happend]
    by_cases hends : m.ends = true
    · rw [if_pos hends, if_pos hends]
      exact ⟨[] :: done, last, rfl, rfl⟩
    · rw [if_neg hends, if_neg hends]
      cases done with
      | nil => exact ⟨[], m :: last, rfl, rfl⟩
      | cons first done => exact ⟨(m :: first) :: done, last, rfl, rfl⟩

/-- What is not blank stays so. -/
theorem strip_append_ne_nil {s : Text} (h : strip s ≠ []) (t : Text) : strip (s ++ t) ≠ [] := by
  rw [ne_eq, strip_eq_nil_iff] at h ⊢
  rw [List.find?_append, Option.or_eq_none_iff]
  exact fun hboth => h hboth.1

theorem dropWhile_of_head {p : Char → Bool} {s : Text} (h : ∀ c ∈ s.head?, p c = false) :
    s.dropWhile p = s := by
  cases s with
  | nil => rfl
  | cons c s => exact List.dropWhile_cons_of_neg (by rw [h c rfl]; decide)

/-- Nothing is stripped of a text that neither begins nor ends with white space. -/
theorem strip_eq_self {s : Text} (hfirst : ∀ c ∈ s.head?, isspace c = false)
    (hlast : ∀ c ∈ s.getLast?, isspace c = false) : strip s = s := by
  have hback : s.reverse.dropWhile isspace = s.reverse := by
    apply dropWhile_of_head
    rw [List.head?_reverse]
    exact hlast
  rw [strip, dropWhile_of_head hfirst, hback, List.reverse_reverse]

theorem rstrip_append_cons {b : Char} (hb : isspace b = false) (s rest : Text) :
    Python.rstrip (s ++ b :: rest) = s ++ b :: Python.rstrip rest := by
  have hback : (rest.reverse ++ b :: s.reverse).dropWhile isspace =
      rest.reverse.dropWhile isspace ++ b :: s.reverse := by
    rw [List.dropWhile_append]
    split
    · rename_i hempty
      rw [List.isEmpty_iff.mp hempty, List.dropWhile_cons_of_neg (by rw [hb]; decide)]
      rfl
    · rfl
  rw [Python.rstrip, List.reverse_append, List.reverse_cons, List.append_assoc,
    List.singleton_append, hback, List.reverse_append, List.reverse_cons, List.reverse_reverse,
    Python.rstrip]
  simp

/-- Stripping begins with the first character that is not blank. -/
theorem strip_append_cons (blank : Text) (hblank : ∀ c ∈ blank, isspace c = true) {a : Char}
    (ha : isspace a = false) (s : Text) : strip (blank ++ a :: s) = a :: Python.rstrip s := by
  have hfirst := rstrip_append_cons ha [] s
  rw [strip, List.dropWhile_append_of_pos hblank, List.dropWhile_cons_of_neg (by rw [ha]; decide)]
  exact hfirst

/-- The scanner's next statement, when its buffer is not blank. -/
theorem statementsFrom_first {scan : Scan} (h : strip scan.buffer ≠ []) (s : Text) :
    ∃ front rest later, s = front ++ rest ∧
      statementsFrom scan s = (scan.start_line, strip (scan.buffer ++ front)) :: later := by
  induction s generalizing scan with
  | nil =>
    refine ⟨[], [], [], rfl, ?_⟩
    rw [statementsFrom, Scan.flush, if_neg h, List.append_nil]
  | cons c s ih =>
    have hline : (scan.count c).start_line = scan.start_line ∧
        (scan.count c).buffer = scan.buffer := by
      rw [Scan.count, if_neg h]
      split <;> exact ⟨rfl, rfl⟩
    -- A character that is kept goes to the front of the statement.
    have hkeep : ∀ quote, ∃ front rest later, c :: s = front ++ rest ∧
        statementsFrom { scan.count c with buffer := scan.buffer ++ [c], quote := quote } s =
          (scan.start_line, strip (scan.buffer ++ front)) :: later := by
      intro quote
      obtain ⟨front, rest, later, hs, hfirst⟩ :=
        @ih { scan.count c with buffer := scan.buffer ++ [c], quote := quote }
          (strip_append_ne_nil h [c])
      refine ⟨c :: front, rest, later, by rw [hs]; rfl, ?_⟩
      rw [hfirst]
      dsimp only
      rw [hline.1, List.append_assoc]
      rfl
    rw [statementsFrom, Scan.next, hline.2]
    split
    · exact hkeep _
    · split
      · exact hkeep _
      · split
        · rw [Scan.flush, hline.1, hline.2, if_neg h]
          exact ⟨[], c :: s, _, rfl, by rw [List.append_nil]; rfl⟩
        · exact hkeep _

/-- What a blank text has of statements. -/
theorem stretches_of_blank {text : Text} (h : strip text = []) :
    (stretches text).filterMap statementOf = [] := by
  have hspace : ∀ c ∈ text, isspace c = true := by
    rw [strip_eq_nil_iff, List.find?_eq_none] at h
    simpa using h
  have hinert := Inert.blank hspace
  have hnone : (marks text).find? (fun m => !isspace m.char) = none := by
    rw [List.find?_eq_none]
    intro m hm
    have hmem := List.mem_map_of_mem (f := Mark.char) hm
    rw [marks, map_char_marksFrom] at hmem
    simpa using hspace _ hmem
  rw [stretches, marks, hinert.visible_eq,
    List.splitOnP_eq_singleton fun m hm => (hinert.marks 1 m hm).2.1, List.filterMap_cons,
    statementOf, ← marks, hnone]
  rfl

/-- The statements that `parse_rules` goes through. -/
theorem rawStatements_of_closed {text : Text} (h : ClosedLines text) :
    rawStatements text = (stretches text).filterMap statementOf := by
  rw [rawStatements]
  split
  · rename_i hblank
    exact (stretches_of_blank hblank).symm
  · rw [_split_statements, statementsFrom_strip_comments h, statementsFrom_visible]

/-- An area is written on one line. -/
theorem not_isLineBreak_of_mem_areaText {names : List Text}
    (hnames : ∀ name ∈ names, ElementName name) {c : Char} (hc : c ∈ areaText names) :
    isLineBreak c = false := by
  rw [areaText, List.mem_append, List.mem_cons, List.mem_singleton] at hc
  rcases hc with (rfl | hc) | rfl
  · rfl
  · rcases mem_contentText hc with rfl | rfl | ⟨name, hname, hc⟩
    · rfl
    · rfl
    · exact (hnames name hname).one_line c hc
  · rfl

/-- Where `before` ends, the statement with the area begins. -/
theorem rawStatements_area (body : Text) {before gap : Text} {names : List Text}
    (hbefore : Between before) (hnames : ∀ name ∈ names, ElementName name) (hgap : IsGap gap) :
    ∃ line tail later,
      rawStatements (before ++ (areaText names ++ (gap ++ '=' :: body))) =
        rawStatements before ++ (line, areaText names ++ (gap ++ '=' :: tail)) :: later := by
  have hinert : Inert .code .code (areaText names ++ gap) :=
    (Inert.areaText hnames).append (.blank fun c hc => (hgap c hc).1)
  have hmode : modeAfter .code (before ++ (areaText names ++ gap)) = .code := by
    rw [modeAfter_append, hbefore.code, hinert.mode]
  have hmarks : marksFrom .code 1 (before ++ (areaText names ++ gap)) =
      marks before ++ marksFrom .code (1 + before.count '\n') (areaText names ++ gap) := by
    rw [marksFrom_append, hbefore.code]
    rfl
  -- The comment stripper leaves everything up to the equals sign in its place.
  have hstripped : ∃ tail, _strip_comments (before ++ (areaText names ++ (gap ++ '=' :: body))) =
      (visible (marksFrom .code 1 (before ++ (areaText names ++ gap)))).map Mark.char ++
        '=' :: tail := by
    have hnewline : ∀ c ∈ before ++ (areaText names ++ gap), isLineBreak c = true → c = '\n' := by
      intro c hc hbreak
      rw [List.mem_append, List.mem_append] at hc
      rcases hc with hc | hc | hc
      · exact hbefore.newline c hc hbreak
      · rw [not_isLineBreak_of_mem_areaText hnames hc] at hbreak
        cases hbreak
      · exact (hgap c hc).2 hbreak
    have hliteral : ∀ m ∈ marksFrom .code 1 (before ++ (areaText names ++ gap)),
        m.kind = .literal → m.char ≠ '\n' := by
      rw [hmarks]
      exact List.forall_mem_append.mpr ⟨hbefore.literal, fun m hm => (hinert.marks _ m hm).2.2⟩
    have hfront := intercalate_cutLines_append 1 hnewline hliteral (List.cons_ne_nil '=' body)
    rw [cutLines_code, hmode, cutLines_cons rfl, List.append_assoc, List.append_assoc] at hfront
    exact ⟨_, hfront⟩
  obtain ⟨tail, hstripped⟩ := hstripped
  obtain ⟨done, last, scan', hsplit, hat, hscan⟩ :=
    statementsFrom_append (s := before ++ (areaText names ++ gap)) Scan.at_start ('=' :: tail)
  -- What follows `before` goes to its last stretch, which is blank.
  obtain ⟨done', last', hstretches, happend⟩ := splitOnP_append_of_none
    (visible (marks before))
    (fun m hm => (hinert.marks (1 + before.count '\n') m hm).2.1)
  have hblank : ∀ m ∈ last', isspace m.char = true := by
    refine hbefore.blank last' ?_
    rw [stretches, hstretches, List.getLast?_concat]
    rfl
  have hempty : (fun l : List Mark => [] ++ l) = id := rfl
  rw [hmarks, visible_append, hinert.visible_eq, hempty, List.modifyHead_id, id, happend] at hsplit
  obtain ⟨hdone, hlast⟩ := List.append_inj' hsplit rfl
  rw [List.cons.injEq] at hlast
  have hbeforeStatements : rawStatements before = done.filterMap statementOf := by
    have hnone : statementOf last' = none := by
      rw [statementOf, Option.map_eq_none_iff, List.find?_eq_none]
      intro m hm
      simpa using hblank m hm
    rw [rawStatements_of_closed hbefore.toClosedLines, stretches, hstretches, ← hdone,
      List.filterMap_append, List.filterMap_cons, hnone]
    simp
  -- The scanner keeps the equals sign, so that its buffer is the area and not blank.
  have hnext := hat.next (c := '=') (by rw [hmode]; decide)
  rw [hmode, if_neg (by simp [Mark.ends, Mode.kind])] at hnext
  obtain ⟨hnothing, hat'⟩ := hnext
  have hbuffer : (scan'.next '=').2.buffer =
      last'.map Mark.char ++ (areaText names ++ gap ++ ['=']) := by
    rw [hat'.buffer, ← hlast.1]
    simp [map_char_marksFrom]
  have hspace : ∀ c ∈ last'.map Mark.char, isspace c = true := by
    intro c hc
    obtain ⟨m, hm, rfl⟩ := List.mem_map.mp hc
    exact hblank m hm
  have hstatement : ∀ front : Text, strip ((scan'.next '=').2.buffer ++ front) =
      areaText names ++ (gap ++ '=' :: Python.rstrip front) := by
    intro front
    have hfront := strip_append_cons (a := '[') _ hspace rfl
      ((contentText names ++ ']' :: gap) ++ '=' :: front)
    rw [rstrip_append_cons rfl] at hfront
    rw [hbuffer]
    simpa [areaText] using hfront
  have hfilled : strip (scan'.next '=').2.buffer ≠ [] := by
    have hself := hstatement []
    rw [List.append_nil] at hself
    rw [hself]
    simp [areaText]
  obtain ⟨front, rest, later, -, hfirst⟩ := statementsFrom_first hfilled tail
  have hraw : strip (before ++ (areaText names ++ (gap ++ '=' :: body))) ≠ [] := by
    rw [ne_eq, strip_eq_nil_iff, List.find?_eq_none]
    intro hall
    have hopen := hall '[' (by simp [areaText])
    cases hopen rfl
  refine ⟨(scan'.next '=').2.start_line, Python.rstrip front, later, ?_⟩
  rw [rawStatements, if_neg hraw, hstripped, _split_statements, hscan, statementsFrom, hnothing,
    hfirst, hstatement front, hbeforeStatements]
  rfl

section Casing

variable {casing : Casing} (hupper : ∀ s, ∃ t, casing.upper ('[' :: s) = '[' :: t)

theorem ParsedRules.Has.add {parsed : ParsedRules} {statement : Statement}
    (h : parsed.Has statement) (item : Item) : (parsed.add item).Has statement := by
  cases item with
  | directive name => exact h
  | marker => exact h
  | feeder other => exact h.imp_left (List.mem_append_left _)
  | calculation other =>
    rw [ParsedRules.add]
    split
    · exact h.imp_right (Or.imp_right (List.mem_append_left _))
    · exact h.imp_right (Or.imp_left (List.mem_append_left _))

theorem ParsedRules.has_add (parsed : ParsedRules) {item : Item} {statement : Statement}
    (h : item.statement? = some statement) : (parsed.add item).Has statement := by
  cases item with
  | directive name => cases h
  | marker => cases h
  | feeder other =>
    cases h
    exact .inl (List.mem_append_right _ (List.mem_singleton_self _))
  | calculation other =>
    cases h
    rw [ParsedRules.add]
    split
    · exact .inr (.inr (List.mem_append_right _ (List.mem_singleton_self _)))
    · exact .inr (.inl (List.mem_append_right _ (List.mem_singleton_self _)))

/-- A statement goes into one of the lists, and stays there. -/
theorem has_parsedFrom {statements : List (ℕ × Text)} {x : ℕ × Text} (hx : x ∈ statements)
    {statement : Statement} (h : (item casing x.1 x.2).statement? = some statement) :
    (parsedFrom casing statements).Has statement := by
  induction statements using List.reverseRecOn with
  | nil => cases hx
  | append_singleton before y ih =>
    rw [parsedFrom_append]
    rcases List.mem_append.mp hx with hbefore | hlast
    · exact (ih hbefore).add _
    · rw [List.mem_singleton] at hlast
      subst hlast
      exact ParsedRules.has_add _ h

/-- The elements of a statement are those of its leading area. -/
theorem elements_of_item (casing : Casing) {raw : Text} (hraw : isKeyword casing raw = false)
    (line_number : ℕ) :
    ∃ statement, (item casing line_number raw).statement? = some statement ∧
      statement.elements = _elements_of (areaOf raw).1 := by
  rw [item_of_not_keyword hraw]
  split
  · exact ⟨_, rfl, rfl⟩
  · refine ⟨_, rfl, ?_⟩
    rw [calculationStatement]
    dsimp only
    split <;> rfl

include hupper

/-- A statement that begins with a bracket is no keyword. -/
theorem not_keyword_of_bracket (s : Text) : isKeyword casing ('[' :: s) = false := by
  have hstrip := strip_append_cons (a := '[') [] (by simp) rfl s
  obtain ⟨t, ht⟩ := hupper (Python.rstrip s)
  rw [List.nil_append] at hstrip
  have hhead : ∀ word ∈ FEEDERS_MARKER :: DIRECTIVES, word.head? ≠ some '[' := by decide
  have hdirective : '[' :: t ∉ DIRECTIVES := fun hmem =>
    hhead _ (List.mem_cons_of_mem _ hmem) rfl
  have hmarker : '[' :: t ≠ FEEDERS_MARKER := fun heq =>
    hhead FEEDERS_MARKER (List.mem_cons_self ..) (heq ▸ rfl)
  rw [isKeyword, hstrip, ht, decide_eq_false hdirective, decide_eq_false hmarker]
  rfl

/-- **Round trip of areas.** A statement that is written with an area is read with just the
names that were written if and only if these are plain. -/
theorem area_read_iff {names : List Text} (hne : names ≠ [])
    (hnames : ∀ name ∈ names, ElementName name) {before gap body : Text}
    (hbefore : Between before) (hgap : IsGap gap) :
    ReadAs casing (before ++ (areaText names ++ (gap ++ '=' :: body)))
        (rawStatements before).length names ↔
      ∀ name ∈ names, PlainName name := by
  obtain ⟨line, tail, later, hraw⟩ := rawStatements_area body hbefore hnames hgap
  have hafter : reopens (gap ++ '=' :: tail) = false := by
    have hblank : lstrip gap = [] := by
      rw [lstrip, List.dropWhile_eq_nil_iff]
      exact fun c hc => (hgap c hc).1
    rw [reopens_append (by decide) (by decide), reopens, hblank]
    rfl
  have hplace : (rawStatements (before ++ (areaText names ++ (gap ++ '=' :: body))))[
      (rawStatements before).length]? = some (line, areaText names ++ (gap ++ '=' :: tail)) := by
    rw [hraw, List.getElem?_append_right le_rfl, Nat.sub_self]
    rfl
  have hword : isKeyword casing (areaText names ++ (gap ++ '=' :: tail)) = false :=
    not_keyword_of_bracket hupper _
  obtain ⟨statement, hstatement, helements⟩ := elements_of_item casing hword line
  rw [← elements_of_areaText hne hnames hafter, ← helements]
  constructor
  · rintro ⟨x, hx, other, hother, -, hread⟩
    rw [hplace, Option.mem_some_iff] at hx
    subst hx
    rw [hstatement, Option.mem_some_iff] at hother
    rw [hother]
    exact hread
  · intro hread
    refine ⟨_, hplace, statement, hstatement, ?_, hread⟩
    exact has_parsedFrom (List.mem_of_getElem? hplace) hstatement

end Casing

theorem area_read_iff_brackets :
    ReadAs asciiCasing ("SKIPCHECK;\n# it's\n".toList ++ (areaText ["A;#".toList, "x] [y".toList] ++
        (" ".toList ++ '=' :: " 1; ['B'] = 2;".toList))) 1 ["A;#".toList, "x] [y".toList] := by
  have hbefore : Between "SKIPCHECK;\n# it's\n".toList :=
    { newline := List.all_iff_forall_prop.mp (by decide +kernel)
      literal := by decide +kernel
      closed := fun quote h => by cases h
      code := by decide +kernel
      blank := by decide +kernel }
  have hnames : ∀ name ∈ ["A;#".toList, "x] [y".toList], ElementName name := by
    simp only [List.mem_cons, List.not_mem_nil, or_false, forall_eq_or_imp, forall_eq]
    exact ⟨⟨by decide, by decide, List.all_iff_forall_prop.mp (by decide +kernel), by decide⟩,
      ⟨by decide, by decide, List.all_iff_forall_prop.mp (by decide +kernel), by decide⟩⟩
  have hgap : IsGap " ".toList := by simp [IsGap, isspace, isLineBreak]
  refine (area_read_iff (fun s => ⟨s.map Char.toUpper, rfl⟩) (by decide) hnames hbefore hgap).mpr ?_
  simp only [List.mem_cons, List.not_mem_nil, or_false, forall_eq_or_imp, forall_eq]
  exact ⟨⟨by decide, by decide⟩, ⟨by decide, by decide⟩⟩

/-- A name with an apostrophe is read as two names. -/
theorem doubled_apostrophe :
    ElementName "O'Brien".toList ∧
      areaText ["O'Brien".toList] = "['O''Brien']".toList ∧
      ¬ ReadAs asciiCasing "['O''Brien'] = 1;".toList 0 ["O'Brien".toList] := by
  refine ⟨⟨by decide, by decide, List.all_iff_forall_prop.mp (by decide +kernel), by decide⟩,
    by decide, ?_⟩
  rintro ⟨x, hx, statement, hstatement, -, hread⟩
  have hplace : (rawStatements "['O''Brien'] = 1;".toList)[0]? =
      some (1, "['O''Brien'] = 1".toList) := by decide +kernel
  rw [hplace, Option.mem_some_iff] at hx
  subst hx
  have helements : ((item asciiCasing 1 "['O''Brien'] = 1".toList).statement?).map
      Statement.elements = some [['O'], "Brien".toList] := by decide +kernel
  rw [hstatement, Option.map_some, Option.some.injEq, hread] at helements
  revert helements
  decide +kernel

end PaCopilot.rules
