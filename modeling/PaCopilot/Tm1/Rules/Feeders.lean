/-
What the feeders of a rule text target, and what the analysis takes them to target.

A feeder may list any number of targets, separated by commas. The parser reads the bracket
groups that its right side begins with, and these end where the first target does
([`parse_firstTarget`]). So the analysis knows the elements of the first target of every
feeder, and whether that one can be resolved, and nothing of the others.
-/
import PaCopilot.Tm1.Rules.Analysis
import Mathlib.Data.List.TakeWhile

set_option autoImplicit false

namespace PaCopilot.rules

open Python (isspace strip)

/-! ## Targets -/

/-- How deep a place in a list of targets is. -/
structure Depth where
  brackets : ℕ := 0
  parens : ℕ := 0
  quote : Option Char := none
  deriving DecidableEq

def Depth.next (d : Depth) (c : Char) : Depth :=
  match d.quote with
  | some quote => { d with quote := if c == quote then none else some quote }
  | none =>
    if isQuote c then { d with quote := some c }
    else if c == '[' then { d with brackets := d.brackets + 1 }
    else if c == ']' then { d with brackets := d.brackets - 1 }
    else if c == '(' then { d with parens := d.parens + 1 }
    else if c == ')' then { d with parens := d.parens - 1 }
    else d

/-- A comma that separates targets. -/
def Depth.ends (d : Depth) (c : Char) : Bool :=
  c == ',' && d.quote.isNone && d.brackets == 0 && d.parens == 0

def targetsFrom (d : Depth) : Text → List Text
  | [] => [[]]
  | c :: rest =>
    if d.ends c then [] :: targetsFrom d rest else consLine c (targetsFrom (d.next c) rest)

/-- The targets of a feeder, of the text to the right of its arrow. -/
def targets (fragment : Text) : List Text := targetsFrom {} fragment

def firstTarget (fragment : Text) : Text := (targets fragment).headD []

section Text

variable (casing : Casing) (text : Text)

/-- The feeder that a statement is: its line, its text, and the right side of its arrow. -/
def feederLine (line_number : ℕ) (raw : Text) : Option (ℕ × Text × Text) :=
  let upper := casing.upper (strip raw)
  if upper ∈ DIRECTIVES ∨ upper = FEEDERS_MARKER then none
  else (splitArrow (areaOf raw).2).map fun (_, target) => (line_number, raw, target)

/-- The feeders of a text. -/
def feederLines : List (ℕ × Text × Text) :=
  (rawStatements text).filterMap fun (line_number, raw) => feederLine casing line_number raw

/-! ## What is asked -/

/-- The calculation shares an element with a target of a feeder. -/
def fedByTarget (statement : Statement) : Bool :=
  (feederLines casing text).any fun (_, _, fragment) =>
    (targets fragment).any fun target => intersects (_parse_target target).1 statement.elements

/-- It shares one with the first target of a feeder. -/
def fedByFirst (statement : Statement) : Bool :=
  (feederLines casing text).any fun (_, _, fragment) =>
    intersects (_parse_target (firstTarget fragment)).1 statement.elements

/-- A target of a feeder is not a bracketed area. -/
def targetUnresolved : Bool :=
  (feederLines casing text).any fun (_, _, fragment) =>
    (targets fragment).any fun target => !(_parse_target target).2

/-- The area of a feeder, or its first target, is not a bracketed one. -/
def firstUnresolved : Bool :=
  (feederLines casing text).any fun (_, raw, fragment) =>
    !((_AREA raw).isSome && (_parse_target (firstTarget fragment)).2)

/-- The finding is that nothing feeds the calculation. -/
def ReportsUnfed (finding : Finding) (statement : Statement) : Prop :=
  (∃ has_unresolvable, finding.message =
      .unfed_calculation statement.elements has_unresolvable) ∧
    finding.line_number = some statement.line_number ∧ finding.statement = some statement.text

/-- No calculation that a target feeds is reported as unfed, and where a target cannot be
resolved none is reported as critical. -/
structure FeedersRespected : Prop where
  unreported : ∀ statement ∈ (parse_rules casing text).calculations,
    fedByTarget casing text statement = true →
      ∀ finding ∈ (analyze_rules casing text).findings, ¬ ReportsUnfed finding statement
  uncritical : targetUnresolved casing text = true →
    ∀ finding ∈ (analyze_rules casing text).findings,
      finding.message.code = "unfed_calculation" → finding.severity ≠ .critical

/-- The calculations that the check for feeders looks at. -/
def underCheck : List Statement :=
  let parsed := parse_rules casing text
  if parsed.skipcheck && parsed.has_feeders_section then
    parsed.calculations.filter (feedable parsed)
  else []

/-- The first targets say as much as all of them: of every calculation under check whether it
is fed, and, if one is left unfed, whether there is something that cannot be resolved. -/
structure FirstTargetsSuffice : Prop where
  fed : ∀ statement ∈ underCheck casing text,
    fedByTarget casing text statement = true → fedByFirst casing text statement = true
  resolved : targetUnresolved casing text = true →
    (∃ statement ∈ underCheck casing text, fedByFirst casing text statement = false) →
      firstUnresolved casing text = true

end Text

/-! ## The first target -/

/-- The text up to the first comma that separates targets. -/
def headOf (d : Depth) : Text → Text
  | [] => []
  | c :: rest => if d.ends c then [] else c :: headOf (d.next c) rest

theorem headD_consLine (c : Char) (lines : List Text) :
    (consLine c lines).headD [] = c :: lines.headD [] := by
  cases lines with
  | nil => rfl
  | cons line lines => rfl

theorem headD_targetsFrom (d : Depth) (s : Text) : (targetsFrom d s).headD [] = headOf d s := by
  induction s generalizing d with
  | nil => rfl
  | cons c rest ih =>
    rw [targetsFrom, headOf]
    by_cases hends : d.ends c = true
    · rw [if_pos hends, if_pos hends]
      rfl
    · rw [if_neg hends, if_neg hends, headD_consLine, ih]

/-- What the head leaves comes after it. -/
theorem exists_append_headOf (d : Depth) (s : Text) : ∃ rest, s = headOf d s ++ rest := by
  induction s generalizing d with
  | nil => exact ⟨[], rfl⟩
  | cons c rest ih =>
    rw [headOf]
    by_cases hends : d.ends c = true
    · rw [if_pos hends]
      exact ⟨c :: rest, rfl⟩
    · obtain ⟨tail, htail⟩ := ih (d.next c)
      rw [if_neg hends]
      exact ⟨tail, by rw [List.cons_append, ← htail]⟩

theorem headOf_cons_of_ne {d : Depth} {c : Char} (rest : Text) (hc : c ≠ ',') :
    headOf d (c :: rest) = c :: headOf (d.next c) rest := by
  rw [headOf, Depth.ends, beq_eq_false_iff_ne.mpr hc]
  rfl

/-! ### Bracket groups -/

/-- A text up to its first closing bracket, and from there on. -/
theorem span_close (content after : Text) (h : ∀ c ∈ content, c ≠ ']') :
    (content ++ ']' :: after).span (· != ']') = (content, ']' :: after) := by
  rw [List.span_eq_takeWhile_dropWhile]
  induction content with
  | nil => rfl
  | cons c content ih =>
    obtain ⟨hc, hcontent⟩ := List.forall_mem_cons.mp h
    have hrest := Prod.mk.inj (ih hcontent)
    have hopen : (c != ']') = true := bne_iff_ne.mpr hc
    rw [List.cons_append, List.takeWhile_cons, List.dropWhile_cons, hopen, hrest.1]
    simpa using hrest.2

theorem span_open (s : Text) (h : ∀ c ∈ s, c ≠ ']') : s.span (· != ']') = (s, []) := by
  rw [List.span_eq_takeWhile_dropWhile]
  have hall : ∀ c ∈ s, (c != ']') = true := fun c hc => bne_iff_ne.mpr (h c hc)
  rw [List.takeWhile_eq_self_iff.mpr hall, List.dropWhile_eq_nil_iff.mpr hall]

/-- A text has a closing bracket, and one that is the first, or it has none. -/
theorem close_or_open (s : Text) :
    (∃ content after, (∀ c ∈ content, c ≠ ']') ∧ s = content ++ ']' :: after) ∨
      ∀ c ∈ s, c ≠ ']' := by
  induction s with
  | nil => exact .inr (by simp)
  | cons c s ih =>
    by_cases hc : c = ']'
    · exact .inl ⟨[], s, by simp, by rw [hc]; rfl⟩
    · rcases ih with ⟨content, after, hcontent, rfl⟩ | hopen
      · exact .inl ⟨c :: content, after, List.forall_mem_cons.mpr ⟨hc, hcontent⟩, rfl⟩
      · exact .inr (List.forall_mem_cons.mpr ⟨hc, hopen⟩)

/-- A group is a bracket, what is not a closing one, and the closing one. -/
theorem bracketGroup_group (content after : Text) (h : ∀ c ∈ content, c ≠ ']') :
    bracketGroup ('[' :: content ++ ']' :: after) = some ('[' :: content ++ [']'], after) := by
  rw [List.cons_append, bracketGroup, span_close content after h]

theorem group_of_bracketGroup {s group after : Text} (h : bracketGroup s = some (group, after)) :
    ∃ content, (∀ c ∈ content, c ≠ ']') ∧ group = '[' :: content ++ [']'] ∧
      s = '[' :: content ++ ']' :: after := by
  rcases s with _ | ⟨c, rest⟩
  · cases h
  · by_cases hc : c = '['
    · subst hc
      rcases close_or_open rest with ⟨content, tail, hcontent, rfl⟩ | hopen
      · rw [← List.cons_append, bracketGroup_group content tail hcontent] at h
        cases h
        exact ⟨content, hcontent, rfl, rfl⟩
      · rw [bracketGroup, span_open rest hopen] at h
        cases h
    · rw [bracketGroup.eq_def] at h
      simp [hc] at h

/-- A text with more behind it has the group that it has. -/
theorem bracketGroup_append {s group after : Text} (rest : Text)
    (h : bracketGroup s = some (group, after)) :
    bracketGroup (s ++ rest) = some (group, after ++ rest) := by
  obtain ⟨content, hcontent, rfl, rfl⟩ := group_of_bracketGroup h
  have hrest : '[' :: content ++ ']' :: after ++ rest = '[' :: content ++ ']' :: (after ++ rest) := by
    simp
  rw [hrest, bracketGroup_group content _ hcontent]

theorem length_after_group {s group after : Text} (h : bracketGroup s = some (group, after)) :
    after.length < s.length := by
  obtain ⟨content, -, -, rfl⟩ := group_of_bracketGroup h
  simp only [List.length_append, List.length_cons]
  omega

/-- There are never more groups than characters. -/
theorem bracketGroups_fuel (n m : ℕ) (s : Text) (hn : s.length ≤ n) (hm : s.length ≤ m) :
    bracketGroups n s = bracketGroups m s := by
  induction n generalizing m s with
  | zero =>
    have hnil : s = [] := List.length_eq_zero_iff.mp (Nat.le_zero.mp hn)
    cases m with
    | zero => rfl
    | succ m =>
      rw [hnil]
      rfl
  | succ n ih =>
    cases m with
    | zero =>
      have hnil : s = [] := List.length_eq_zero_iff.mp (Nat.le_zero.mp hm)
      rw [hnil]
      rfl
    | succ m =>
      rw [bracketGroups, bracketGroups]
      rcases hgroup : bracketGroup s with _ | ⟨group, after⟩
      · rfl
      · have hshorter := length_after_group hgroup
        have hdropped := (List.dropWhile_sublist isspace : (after.dropWhile isspace).Sublist after).length_le
        dsimp only
        rw [ih m (after.dropWhile isspace) (by omega) (by omega)]

/-! ### Where the first target ends -/

/-- Inside a string literal there is a bracket open. So it is between the groups that a
right side begins with. -/
def Depth.Between (d : Depth) : Prop := d.quote ≠ none → 1 ≤ d.brackets

theorem ne_of_isspace {c mark : Char} (h : isspace c = true) (hmark : isspace mark = false) :
    c ≠ mark := by
  rintro rfl
  rw [h] at hmark
  cases hmark

theorem Depth.Between.space {d : Depth} (hd : d.Between) {c : Char} (h : isspace c = true) :
    (d.next c).Between := by
  rcases hquote : d.quote with _ | quote
  · have hne : ∀ mark, isspace mark = false → c ≠ mark := fun _ => ne_of_isspace h
    have hnext : d.next c = d := by
      simp [Depth.next, hquote, isQuote, hne '\'' (by decide), hne '"' (by decide),
        hne '[' (by decide), hne ']' (by decide), hne '(' (by decide), hne ')' (by decide)]
    rw [hnext]
    exact hd
  · intro _
    rw [Depth.next, hquote]
    exact hd (by rw [hquote]; simp)

/-- White space belongs to the target it is in. -/
theorem headOf_space (d : Depth) (hd : d.Between) (s : Text) :
    ∃ d' : Depth, d'.Between ∧ (headOf d s).takeWhile isspace = s.takeWhile isspace ∧
      (headOf d s).dropWhile isspace = headOf d' (s.dropWhile isspace) := by
  induction s generalizing d with
  | nil => exact ⟨d, hd, rfl, rfl⟩
  | cons c rest ih =>
    by_cases hspace : isspace c = true
    · obtain ⟨d', hd', htake, hdrop⟩ := ih (d.next c) (hd.space hspace)
      rw [headOf_cons_of_ne rest (ne_of_isspace hspace (by decide))]
      refine ⟨d', hd', ?_, ?_⟩
      · rw [List.takeWhile_cons_of_pos hspace, List.takeWhile_cons_of_pos hspace, htake]
      · rw [List.dropWhile_cons_of_pos hspace, List.dropWhile_cons_of_pos hspace, hdrop]
    · refine ⟨d, hd, ?_⟩
      rw [List.takeWhile_cons_of_neg hspace, List.dropWhile_cons_of_neg hspace, headOf]
      split
      · exact ⟨rfl, rfl⟩
      · exact ⟨List.takeWhile_cons_of_neg hspace, List.dropWhile_cons_of_neg hspace⟩

/-- Nothing ends inside a bracket group. -/
theorem next_inside {d : Depth} (hd : 1 ≤ d.brackets) {c : Char} (hc : c ≠ ']') :
    1 ≤ (d.next c).brackets ∧ d.ends c = false := by
  constructor
  · unfold Depth.next
    split
    · exact hd
    · split
      · exact hd
      · split
        · exact Nat.le_succ_of_le hd
        · split
          · rename_i hclose
            exact absurd (beq_iff_eq.mp hclose) hc
          · split
            · exact hd
            · split <;> exact hd
  · have hbrackets : (d.brackets == 0) = false := beq_eq_false_iff_ne.mpr (by omega)
    rw [Depth.ends, hbrackets]
    simp

theorem headOf_inside (content rest : Text) (hcontent : ∀ c ∈ content, c ≠ ']') (d : Depth)
    (hd : 1 ≤ d.brackets) :
    ∃ d' : Depth, 1 ≤ d'.brackets ∧ headOf d (content ++ rest) = content ++ headOf d' rest := by
  induction content generalizing d with
  | nil => exact ⟨d, hd, rfl⟩
  | cons c content ih =>
    obtain ⟨hc, hrest⟩ := List.forall_mem_cons.mp hcontent
    obtain ⟨hnext, hends⟩ := next_inside hd hc
    obtain ⟨d', hd', heq⟩ := ih hrest (d.next c) hnext
    refine ⟨d', hd', ?_⟩
    rw [List.cons_append, headOf, hends]
    simp only [Bool.false_eq_true, if_false, List.cons_append]
    rw [heq]

/-- A group belongs to the target it begins in. -/
theorem headOf_group (content after : Text) (hcontent : ∀ c ∈ content, c ≠ ']') (d : Depth)
    (hd : d.Between) :
    ∃ d' : Depth, d'.Between ∧
      headOf d ('[' :: content ++ ']' :: after) = '[' :: content ++ ']' :: headOf d' after := by
  have hopen : 1 ≤ (d.next '[').brackets := by
    rcases hquote : d.quote with _ | quote
    · rw [Depth.next, hquote]
      exact Nat.le_add_left 1 _
    · rw [Depth.next, hquote]
      exact hd (by rw [hquote]; simp)
  obtain ⟨d', hd', heq⟩ := headOf_inside content (']' :: after) hcontent (d.next '[') hopen
  refine ⟨d'.next ']', ?_, ?_⟩
  · rcases hquote : d'.quote with _ | quote
    · intro hsome
      rw [Depth.next, hquote] at hsome
      exact absurd rfl hsome
    · intro _
      rw [Depth.next, hquote]
      exact hd'
  · rw [List.cons_append, headOf_cons_of_ne _ (by decide), heq, headOf_cons_of_ne _ (by decide)]
    rfl

/-- The groups that a text begins with are those that its first target begins with. -/
theorem groups_headOf (n : ℕ) (d : Depth) (hd : d.Between) (s : Text) :
    (bracketGroups n (headOf d s)).1 = (bracketGroups n s).1 := by
  induction n generalizing d s with
  | zero => rfl
  | succ n ih =>
    rw [bracketGroups, bracketGroups]
    rcases hgroup : bracketGroup s with _ | ⟨group, after⟩
    · have hnone : bracketGroup (headOf d s) = none := by
        rcases hhead : bracketGroup (headOf d s) with _ | ⟨group, after⟩
        · rfl
        · obtain ⟨rest, hrest⟩ := exists_append_headOf d s
          have hsome := bracketGroup_append rest hhead
          rw [← hrest, hgroup] at hsome
          cases hsome
      rw [hnone]
    · obtain ⟨content, hcontent, rfl, rfl⟩ := group_of_bracketGroup hgroup
      obtain ⟨d', hd', hhead⟩ := headOf_group content after hcontent d hd
      obtain ⟨d'', hd'', htake, hdrop⟩ := headOf_space d' hd' after
      rw [hhead, bracketGroup_group content _ hcontent]
      dsimp only
      rw [htake, hdrop, ih d'' hd'']

/-- **What the parser reads of a right side is its first target.** -/
theorem parse_firstTarget (fragment : Text) :
    _parse_target (firstTarget fragment) = _parse_target fragment := by
  obtain ⟨d, hd, -, hdrop⟩ := headOf_space {} (fun h => absurd rfl h) fragment
  have harea : (_AREA (firstTarget fragment)).map Prod.fst = (_AREA fragment).map Prod.fst := by
    have hhead : lstrip (firstTarget fragment) = headOf d (lstrip fragment) := by
      rw [firstTarget, targets, headD_targetsFrom, lstrip, hdrop]
      rfl
    have hlength : (headOf d (lstrip fragment)).length ≤ (lstrip fragment).length := by
      obtain ⟨rest, hrest⟩ := exists_append_headOf d (lstrip fragment)
      have hlen := congrArg List.length hrest
      rw [List.length_append] at hlen
      omega
    -- the first target is cut behind its area, so the pattern matches the same
    have hgroups := groups_headOf (lstrip fragment).length d hd (lstrip fragment)
    rw [← bracketGroups_fuel _ _ _ (Nat.le_refl _) hlength] at hgroups
    unfold _AREA
    dsimp only
    rw [hhead]
    generalize bracketGroups (headOf d (lstrip fragment)).length (headOf d (lstrip fragment))
      = first at hgroups ⊢
    generalize bracketGroups (lstrip fragment).length (lstrip fragment) = whole at hgroups ⊢
    rcases first with ⟨_ | ⟨c, area⟩, rest⟩ <;> rcases whole with ⟨_ | ⟨c', area'⟩, rest'⟩
    · rfl
    · cases hgroups
    · cases hgroups
    · exact congrArg some hgroups
  unfold _parse_target
  rcases hfirst : _AREA (firstTarget fragment) with _ | ⟨area, rest⟩ <;>
  rcases hwhole : _AREA fragment with _ | ⟨area', rest'⟩
  · rfl
  · rw [hfirst, hwhole] at harea
    cases harea
  · rw [hfirst, hwhole] at harea
    cases harea
  · rw [hfirst, hwhole] at harea
    cases harea
    rfl

/-! ## The feeders of a text -/

section Analysis

variable {casing : Casing} {text : Text}

theorem feeders_add (parsed : ParsedRules) (new : Item) :
    (parsed.add new).feeders =
      parsed.feeders ++ (match new with | .feeder statement => [statement] | _ => []) := by
  cases new with
  | directive name => simp [ParsedRules.add]
  | marker => simp [ParsedRules.add]
  | feeder statement => rfl
  | calculation statement =>
    unfold ParsedRules.add
    dsimp only
    split <;> simp

theorem feeders_foldl (items : List Item) (parsed : ParsedRules) :
    (items.foldl ParsedRules.add parsed).feeders =
      parsed.feeders ++
        items.flatMap fun new => match new with | .feeder statement => [statement] | _ => [] := by
  induction items generalizing parsed with
  | nil => simp
  | cons new items ih =>
    rw [List.foldl_cons, ih, feeders_add, List.flatMap_cons, List.append_assoc]

/-- The feeders that the parser finds. -/
theorem feeders_eq : (parse_rules casing text).feeders =
    (feederLines casing text).map fun (line_number, raw, target) =>
      feederStatement line_number raw target := by
  rw [parse_rules, feeders_foldl, feederLines, List.nil_append, List.flatMap_map]
  induction rawStatements text with
  | nil => rfl
  | cons first rest ih =>
    obtain ⟨line_number, raw⟩ := first
    rw [List.flatMap_cons, ih, List.filterMap_cons]
    dsimp only
    unfold item feederLine
    dsimp only
    by_cases hdirective : casing.upper (strip raw) ∈ DIRECTIVES
    · rw [if_pos hdirective, if_pos (.inl hdirective)]
      rfl
    · by_cases hmarker : casing.upper (strip raw) = FEEDERS_MARKER
      · rw [if_neg hdirective, if_pos hmarker, if_pos (.inr hmarker)]
        rfl
      · rw [if_neg hdirective, if_neg hmarker, if_neg (by simp [hdirective, hmarker])]
        rcases splitArrow (areaOf raw).2 with _ | ⟨before, target⟩
        · rfl
        · rfl

/-- What the analysis takes to be fed is what the first targets feed. -/
theorem intersects_fed (statement : Statement) :
    intersects (_fed_elements (parse_rules casing text)) statement.elements =
      fedByFirst casing text statement := by
  rw [_fed_elements, feeders_eq, fedByFirst, intersects, List.flatMap_map, List.any_flatMap]
  congr 1
  funext ⟨line_number, raw, target⟩
  dsimp only
  rw [parse_firstTarget]
  rfl

theorem unresolvable_eq :
    _has_unresolvable_feeder (parse_rules casing text) = firstUnresolved casing text := by
  rw [_has_unresolvable_feeder, feeders_eq, firstUnresolved, List.any_map]
  congr 1
  funext ⟨line_number, raw, target⟩
  dsimp only
  rw [parse_firstTarget]
  rfl

/-- The findings about unfed calculations are those of their own check. -/
theorem mem_unfed {parsed : ParsedRules} {finding : Finding} :
    finding ∈ checked parsed ∧ finding.message.code = "unfed_calculation" ↔
      finding ∈ _check_unfed_calculations parsed := by
  constructor
  · rintro ⟨hmem, hcode⟩
    have hcheck := mem_checked_iff.mp hmem
    cases hmessage : finding.message with
    | unfed_calculation elements has_unresolvable =>
      rw [hmessage] at hcheck
      exact hcheck
    | _ =>
      rw [hmessage] at hcode
      simp [Message.code] at hcode
  · intro hin
    refine ⟨by simp [checked, hin], ?_⟩
    unfold _check_unfed_calculations at hin
    split at hin
    · cases hin
    · obtain ⟨statement, -, rfl⟩ := List.mem_map.mp hin
      rfl

/-- An unfed calculation is one under check that no first target feeds. -/
theorem mem_check_unfed {finding : Finding} :
    finding ∈ _check_unfed_calculations (parse_rules casing text) ↔
      ∃ statement ∈ underCheck casing text, fedByFirst casing text statement = false ∧
        unfedFinding (parse_rules casing text) statement = finding := by
  unfold _check_unfed_calculations underCheck
  dsimp only
  by_cases hboth : (parse_rules casing text).skipcheck = true ∧
      (parse_rules casing text).has_feeders_section = true
  · rw [if_neg (by simp [hboth.1, hboth.2]), if_pos (by simp [hboth.1, hboth.2])]
    simp only [List.mem_map, List.mem_filter, Bool.and_eq_true, Bool.not_eq_true', intersects_fed]
    constructor
    · rintro ⟨statement, ⟨hmem, hfeedable, hunfed⟩, heq⟩
      exact ⟨statement, ⟨hmem, hfeedable⟩, hunfed, heq⟩
    · rintro ⟨statement, ⟨hmem, hfeedable⟩, hunfed, heq⟩
      exact ⟨statement, ⟨hmem, hfeedable, hunfed⟩, heq⟩
  · have hnot : ((parse_rules casing text).skipcheck &&
        (parse_rules casing text).has_feeders_section) = false := by
      rw [← Bool.not_eq_true, Bool.and_eq_true]
      exact hboth
    rw [if_pos (by rw [← Bool.not_and, hnot]; rfl), if_neg (by rw [hnot]; simp)]
    simp

theorem mem_of_underCheck {statement : Statement} (h : statement ∈ underCheck casing text) :
    statement ∈ (parse_rules casing text).calculations := by
  unfold underCheck at h
  dsimp only at h
  split at h
  · exact List.mem_of_mem_filter h
  · cases h

/-- **Feeders are respected exactly when the first targets say as much as all of them.** -/
theorem feedersRespected_iff (casing : Casing) (text : Text) :
    FeedersRespected casing text ↔ FirstTargetsSuffice casing text := by
  constructor
  · intro h
    constructor
    · intro statement hunder hfed
      by_contra hfirst
      rw [Bool.not_eq_true] at hfirst
      have hmem : unfedFinding (parse_rules casing text) statement
          ∈ (analyze_rules casing text).findings :=
        mem_findings.mpr (mem_unfed.mpr (mem_check_unfed.mpr ⟨statement, hunder, hfirst, rfl⟩)).1
      exact h.unreported statement (mem_of_underCheck hunder) hfed _ hmem ⟨⟨_, rfl⟩, rfl, rfl⟩
    · rintro hunresolved ⟨statement, hunder, hfirst⟩
      by_contra hresolved
      have hmem : unfedFinding (parse_rules casing text) statement
          ∈ (analyze_rules casing text).findings :=
        mem_findings.mpr (mem_unfed.mpr (mem_check_unfed.mpr ⟨statement, hunder, hfirst, rfl⟩)).1
      refine h.uncritical hunresolved _ hmem rfl ?_
      rw [unfedFinding, unresolvable_eq, if_neg hresolved]
  · intro h
    constructor
    · rintro statement - hfed finding hmem ⟨⟨has_unresolvable, hmessage⟩, -, -⟩
      have hunfed := mem_unfed.mp ⟨mem_findings.mp hmem, by rw [hmessage]; rfl⟩
      obtain ⟨reported, hunder, hfirst, rfl⟩ := mem_check_unfed.mp hunfed
      -- the calculation that was reported has the same elements
      have helements : reported.elements = statement.elements := by
        rw [unfedFinding, Message.unfed_calculation.injEq] at hmessage
        exact hmessage.1
      have hfed' : fedByTarget casing text reported = true := by
        rw [fedByTarget, helements]
        exact hfed
      rw [h.fed reported hunder hfed'] at hfirst
      cases hfirst
    · intro hunresolved finding hmem hcode
      have hunfed := mem_unfed.mp ⟨mem_findings.mp hmem, hcode⟩
      obtain ⟨reported, hunder, hfirst, rfl⟩ := mem_check_unfed.mp hunfed
      rw [unfedFinding, unresolvable_eq, h.resolved hunresolved ⟨reported, hunder, hfirst⟩]
      simp

/-! ### A second target -/

/-- The calculation is fed, by the second target of the feeder. -/
def fedSecond : Text :=
  "SKIPCHECK;\n['Margin'] = N: ['Sales'] * 2;\nFEEDERS;\n['Sales'] => ['Tax'], ['Margin'];".toList

/-- The second target may feed anything. -/
def unresolvedSecond : Text :=
  ("SKIPCHECK;\n['Margin'] = N: ['Sales'] * 2;\nFEEDERS;\n"
    ++ "['Sales'] => ['Tax'], DB('Plan', 'Margin');").toList

theorem second_target_not_read :
    (∃ statement ∈ (parse_rules asciiCasing fedSecond).calculations,
      fedByTarget asciiCasing fedSecond statement = true ∧
      unfedFinding (parse_rules asciiCasing fedSecond) statement ∈
        (analyze_rules asciiCasing fedSecond).findings) ∧
    (targetUnresolved asciiCasing unresolvedSecond = true ∧
      ∃ finding ∈ (analyze_rules asciiCasing unresolvedSecond).findings,
        finding.message.code = "unfed_calculation" ∧ finding.severity = .critical) := by
  decide +kernel

end Analysis

end PaCopilot.rules
