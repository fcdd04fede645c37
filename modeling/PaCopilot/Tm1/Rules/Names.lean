/-
What the analysis of two spellings of a text has in common.

Names are compared in five places. `trace_cell` compares in lower case to find the
statements that apply, so these are the same. The other four compare names as they are
spelled: whether a calculation is fed, whether two calculations have one area, whether a
feeder targets something calculated, and whether the statement that applies to a cell is
fed. The findings and the trace are the same when these comparisons come out the same, and,
where no two statements begin on one line, only then.
-/
import PaCopilot.Tm1.Rules.Spelling

set_option autoImplicit false

namespace PaCopilot.rules

open List (Forall₂)

variable {casing : Casing} {letters : Letters casing} {s t : Text} {cell cell' : List Text}
  {p q : ParsedRules}

/-! ## What is asked -/

/-- One message in two spellings. -/
inductive SameMessage (letters : Letters casing) : Message → Message → Prop
  | skipcheck_without_feeders :
      SameMessage letters .skipcheck_without_feeders .skipcheck_without_feeders
  | feeders_without_skipcheck :
      SameMessage letters .feeders_without_skipcheck .feeders_without_skipcheck
  | unfed_calculation {elements elements' : List Text} (same : Forall₂ letters.Alike elements elements')
      (has_unresolvable : Bool) :
      SameMessage letters (.unfed_calculation elements has_unresolvable)
        (.unfed_calculation elements' has_unresolvable)
  | calculation_below_feeders :
      SameMessage letters .calculation_below_feeders .calculation_below_feeders
  | string_rules_without_feedstrings :
      SameMessage letters .string_rules_without_feedstrings .string_rules_without_feedstrings
  | shadowed_area {elements elements' : List Text} (same : Forall₂ letters.Alike elements elements')
      (first_line : ℕ) :
      SameMessage letters (.shadowed_area elements first_line) (.shadowed_area elements' first_line)
  | feeder_to_uncalculated_area {elements elements' : List Text}
      (same : Forall₂ letters.Alike elements elements') :
      SameMessage letters (.feeder_to_uncalculated_area elements)
        (.feeder_to_uncalculated_area elements')

/-- One finding, up to the spelling of names. -/
structure SameFinding (letters : Letters casing) (f g : Finding) : Prop where
  severity : f.severity = g.severity
  message : SameMessage letters f.message g.message
  line_number : f.line_number = g.line_number
  statement : Option.Rel letters.Alike f.statement g.statement

/-- One answer about a cell, up to the spelling of names. -/
structure SameTrace (letters : Letters casing) (x y : Traced) : Prop where
  applied_statement : SameStatement letters x.applied_statement y.applied_statement
  also_matched : Forall₂ (SameStatement letters) x.also_matched y.also_matched
  skipcheck : x.skipcheck = y.skipcheck
  is_fed : x.is_fed = y.is_fed

/-- The analyses of two texts, and the traces of a cell in them, are the same up to the
spelling of names. -/
structure SameAnalysis (letters : Letters casing) (s t : Text) (cell cell' : List Text) : Prop where
  findings : Forall₂ (SameFinding letters) (analyze_rules casing s).findings
    (analyze_rules casing t).findings
  trace : Option.Rel (SameTrace letters) (trace_cell casing s cell) (trace_cell casing t cell')

/-- The calculations of two texts, side by side. -/
def calculationPairs (p q : ParsedRules) : List (Statement × Statement) :=
  p.calculations.zip q.calculations

/-- A statement is fed, as the names are spelled. -/
def fedAsSpelled (p : ParsedRules) (statement : Statement) : Bool :=
  intersects (_fed_elements p) statement.elements

/-- The comparisons of names as they are spelled come out the same in two texts. -/
structure NamesAgree (casing : Casing) (p q : ParsedRules) (cell : List Text) : Prop where
  fed : p.skipcheck = true → p.has_feeders_section = true →
    ∀ x ∈ calculationPairs p q, feedable p x.1 = true → fedAsSpelled p x.1 = fedAsSpelled q x.2
  area : ∀ x ∈ calculationPairs p q, ∀ y ∈ calculationPairs p q,
    hasArea x.1 = true → hasArea y.1 = true →
      (areaKey x.1 = areaKey y.1 ↔ areaKey x.2 = areaKey y.2)
  target : ∀ x ∈ p.feeders.zip q.feeders, targeted x.1 = true →
    intersects (calculatedElements p) x.1.target_elements =
      intersects (calculatedElements q) x.2.target_elements
  traced : ∀ x, (calculationPairs p q).find? (fun x => applies casing (wantedNames casing cell) x.1)
    = some x → fedAsSpelled p x.1 = fedAsSpelled q x.2

/-- No two calculations, and no two feeders, begin on one line. -/
structure OneEachLine (p : ParsedRules) : Prop where
  calculations : (p.calculations.map Statement.line_number).Nodup
  feeders : (p.feeders.map Statement.line_number).Nodup

/-! ## What two spellings of the rules have in common -/

namespace SameStatement

variable {x y : Statement}

theorem is_calculation_eq (h : SameStatement letters x y) :
    _is_calculation x = _is_calculation y := by
  rw [_is_calculation, _is_calculation, Alike.isEmpty_eq h.expression]

theorem hasArea_eq (h : SameStatement letters x y) : hasArea x = hasArea y := by
  rw [hasArea, hasArea, h.is_calculation_eq, Alike.isEmpty_eq h.elements]

theorem targeted_eq (h : SameStatement letters x y) : targeted x = targeted y := by
  rw [targeted, targeted, h.resolvable, Alike.isEmpty_eq h.target_elements]

/-- A statement applies to a cell however it is spelled. -/
theorem applies_eq (h : SameStatement letters x y) (wanted : List Text) :
    applies casing wanted x = applies casing wanted y := by
  have helements : (x.elements.map casing.lower) = y.elements.map casing.lower :=
    Alike.map_eq h.elements letters.lower
  have hall : ∀ l : List Text, (l.all fun e => casing.lower e ∈ wanted) =
      (l.map casing.lower).all fun e => e ∈ wanted := fun l => by rw [List.all_map]; rfl
  rw [applies, applies, h.hasArea_eq, hall, hall, helements]

end SameStatement

namespace SameRules

variable (h : SameRules letters p q)
include h

theorem skipcheck_eq : p.skipcheck = q.skipcheck := by
  rw [ParsedRules.skipcheck, ParsedRules.skipcheck, h.directives]

theorem feedstrings_eq : p.feedstrings = q.feedstrings := by
  rw [ParsedRules.feedstrings, ParsedRules.feedstrings, h.directives]

theorem unresolvable_eq : _has_unresolvable_feeder p = _has_unresolvable_feeder q :=
  Alike.any_eq h.feeders fun x y hxy => by rw [hxy.resolvable]

theorem feedable_eq {x y : Statement} (hxy : SameStatement letters x y) :
    feedable p x = feedable q y := by
  rw [feedable, feedable, hxy.is_calculation_eq, Alike.isEmpty_eq hxy.elements, hxy.qualifier,
    h.feedstrings_eq]

end SameRules

/-- The names of a cell in lower case do not depend on the spelling. -/
theorem wantedNames_eq (h : Forall₂ letters.Alike cell cell') :
    wantedNames casing cell = wantedNames casing cell' := by
  unfold wantedNames
  induction h with
  | nil => rfl
  | @cons name name' cell cell' hname _ ih =>
    have hblank := hname.strip.eq_nil_iff
    rw [List.filter_cons, List.filter_cons]
    by_cases hnil : Python.strip name = []
    · rw [if_neg (by simp [hnil]), if_neg (by simp [hblank.mp hnil])]
      exact ih
    · rw [if_pos (by simp [hnil]), if_pos (by simp [mt hblank.mpr hnil]), List.map_cons,
        List.map_cons, ih, letters.lower _ _ hname.strip]

/-! ## Where the comparisons agree -/

/-- A finding about one statement, in two spellings. -/
theorem sameFinding_about {x y : Statement} (h : SameStatement letters x y) (severity : Severity)
    {message message' : Message} (hmessage : SameMessage letters message message') :
    SameFinding letters ⟨severity, message, some x.line_number, some x.text⟩
      ⟨severity, message', some y.line_number, some y.text⟩ :=
  ⟨rfl, hmessage, congrArg some h.line_number, .some h.text⟩

/-- A check that makes one finding of each statement it keeps. -/
theorem sameFindings_map {l l' : List Statement} (h : Forall₂ (SameStatement letters) l l')
    {f g : Statement → Finding}
    (hfg : ∀ x y, SameStatement letters x y → SameFinding letters (f x) (g y)) :
    Forall₂ (SameFinding letters) (l.map f) (l'.map g) := by
  rw [List.forall₂_map_left_iff, List.forall₂_map_right_iff]
  exact h.imp hfg

section Agree

variable (h : SameRules letters p q) (hagree : NamesAgree casing p q cell)
include h

theorem same_skipcheck_without_feeders :
    Forall₂ (SameFinding letters) (_check_skipcheck_without_feeders p)
      (_check_skipcheck_without_feeders q) := by
  unfold _check_skipcheck_without_feeders
  rw [h.skipcheck_eq, h.has_feeders_section,
    Alike.any_eq h.calculations fun _ _ hxy => hxy.is_calculation_eq]
  split
  · exact .nil
  · split
    · exact .nil
    · exact .cons ⟨rfl, .skipcheck_without_feeders, rfl, .none⟩ .nil

theorem same_feeders_without_skipcheck :
    Forall₂ (SameFinding letters) (_check_feeders_without_skipcheck p)
      (_check_feeders_without_skipcheck q) := by
  unfold _check_feeders_without_skipcheck
  rw [h.skipcheck_eq, h.has_feeders_section, Alike.isEmpty_eq h.feeders]
  split
  · exact .nil
  · split
    · exact .nil
    · exact .cons ⟨rfl, .feeders_without_skipcheck, rfl, .none⟩ .nil

theorem same_misplaced_calculations :
    Forall₂ (SameFinding letters) (_check_misplaced_calculations p)
      (_check_misplaced_calculations q) :=
  sameFindings_map h.misplaced_calculations fun _ _ hxy =>
    sameFinding_about hxy .critical .calculation_below_feeders

theorem same_string_rules_without_feedstrings :
    Forall₂ (SameFinding letters) (_check_string_rules_without_feedstrings p)
      (_check_string_rules_without_feedstrings q) := by
  unfold _check_string_rules_without_feedstrings
  rw [h.skipcheck_eq, h.feedstrings_eq]
  split
  · exact .nil
  · have hfirst := Alike.find? h.calculations
      (p := fun s => s.qualifier = some ['S'] && _is_calculation s)
      (q := fun s => s.qualifier = some ['S'] && _is_calculation s)
      fun x hx => by
        have hxy := List.forall₂_zip h.calculations hx
        rw [hxy.qualifier, hxy.is_calculation_eq]
    generalize p.calculations.find? _ = found at hfirst
    generalize q.calculations.find? _ = found' at hfirst
    cases hfirst with
    | none => exact .nil
    | some hxy => exact .cons (sameFinding_about hxy .info .string_rules_without_feedstrings) .nil

include hagree

theorem same_unfed_calculations :
    Forall₂ (SameFinding letters) (_check_unfed_calculations p) (_check_unfed_calculations q) := by
  unfold _check_unfed_calculations
  rw [← h.skipcheck_eq, ← h.has_feeders_section]
  split
  · exact .nil
  · rename_i hboth
    rw [Bool.or_eq_true, not_or, Bool.not_eq_true', Bool.not_eq_true', Bool.not_eq_false,
      Bool.not_eq_false] at hboth
    refine sameFindings_map (Alike.filter h.calculations fun x hx => ?_) fun x y hxy => ?_
    · rw [← h.feedable_eq (List.forall₂_zip h.calculations hx)]
      cases hfeedable : feedable p x.1 with
      | false => rfl
      | true =>
        have hfed := hagree.fed hboth.1 hboth.2 x hx hfeedable
        rw [fedAsSpelled, fedAsSpelled] at hfed
        rw [hfed]
    · unfold unfedFinding
      rw [h.unresolvable_eq]
      exact sameFinding_about hxy _ (.unfed_calculation hxy.elements _)

theorem same_feeders_to_uncalculated :
    Forall₂ (SameFinding letters) (_check_feeders_to_uncalculated p)
      (_check_feeders_to_uncalculated q) := by
  refine sameFindings_map (Alike.filter h.feeders fun x hx => ?_) fun x y hxy =>
    sameFinding_about hxy .info (.feeder_to_uncalculated_area hxy.target_elements)
  rw [← (List.forall₂_zip h.feeders hx).targeted_eq]
  cases htargeted : targeted x.1 with
  | false => rfl
  | true => rw [hagree.target x hx htargeted]

omit h hagree in
/-- The loop over areas, on statements whose areas agree. -/
theorem same_shadowedFrom {seen seen' rest rest' : List Statement}
    (hseen : Forall₂ (SameStatement letters) seen seen')
    (hrest : Forall₂ (SameStatement letters) rest rest')
    (hkeys : ∀ x ∈ seen.zip seen' ++ rest.zip rest', ∀ y ∈ rest.zip rest',
      (areaKey x.1 = areaKey y.1 ↔ areaKey x.2 = areaKey y.2)) :
    Forall₂ (SameFinding letters) (shadowedFrom seen rest) (shadowedFrom seen' rest') := by
  induction hrest generalizing seen seen' with
  | nil => exact .nil
  | @cons a b rest rest' hab _ ih =>
    rw [List.zip_cons_cons] at hkeys
    have hlater : ∀ x ∈ rest.zip rest', ∀ y ∈ rest.zip rest',
        (areaKey x.1 = areaKey y.1 ↔ areaKey x.2 = areaKey y.2) := fun x hx y hy =>
      hkeys x (List.mem_append_right _ (List.mem_cons_of_mem _ hx)) y (List.mem_cons_of_mem _ hy)
    have hfirst : Option.Rel (SameStatement letters)
        (seen.find? fun first => areaKey first = areaKey a)
        (seen'.find? fun first => areaKey first = areaKey b) :=
      Alike.find? hseen fun x hx => decide_eq_decide.mpr
        (hkeys x (List.mem_append_left _ hx) (a, b) (List.mem_cons_self ..))
    rw [shadowedFrom, shadowedFrom, shadowedFinding, shadowedFinding]
    generalize seen.find? (fun first => areaKey first = areaKey a) = found at hfirst
    generalize seen'.find? (fun first => areaKey first = areaKey b) = found' at hfirst
    cases hfirst with
    | none =>
      -- the first of its area on both sides, and from now on among those seen
      refine ih (List.rel_append hseen (.cons hab .nil)) fun x hx y hy => ?_
      rw [List.zip_append hseen.length_eq, List.zip_cons_cons, List.zip_nil_right,
        List.append_assoc] at hx
      exact hkeys x hx y (List.mem_cons_of_mem _ hy)
    | @some first first' hsame =>
      -- shadowed on both sides, by statements of one line number
      refine .cons ?_ (ih hseen fun x hx y hy => ?_)
      · have hmessage : SameMessage letters (.shadowed_area a.elements first.line_number)
            (.shadowed_area b.elements first'.line_number) := by
          rw [hsame.line_number]
          exact .shadowed_area hab.elements _
        exact sameFinding_about hab .warning hmessage
      · rcases List.mem_append.mp hx with hx | hx
        · exact hkeys x (List.mem_append_left _ hx) y (List.mem_cons_of_mem _ hy)
        · exact hlater x hx y hy

theorem same_shadowed_areas :
    Forall₂ (SameFinding letters) (_check_shadowed_areas p) (_check_shadowed_areas q) := by
  have hpairs : ∀ x ∈ p.calculations.zip q.calculations, hasArea x.1 = hasArea x.2 := fun x hx =>
    (List.forall₂_zip h.calculations hx).hasArea_eq
  refine same_shadowedFrom .nil (Alike.filter h.calculations hpairs) ?_
  rw [List.zip_nil_left, List.nil_append, Alike.zip_filter h.calculations hpairs]
  intro x hx y hy
  obtain ⟨hx, hxArea⟩ := List.mem_filter.mp hx
  obtain ⟨hy, hyArea⟩ := List.mem_filter.mp hy
  exact hagree.area x hx y hy hxArea hyArea

theorem same_checked : Forall₂ (SameFinding letters) (checked p) (checked q) := by
  refine List.rel_append (List.rel_append (List.rel_append (List.rel_append (List.rel_append
    (List.rel_append ?_ ?_) ?_) ?_) ?_) ?_) ?_
  · exact same_skipcheck_without_feeders h
  · exact same_feeders_without_skipcheck h
  · exact same_unfed_calculations h hagree
  · exact same_misplaced_calculations h
  · exact same_string_rules_without_feedstrings h
  · exact same_shadowed_areas h hagree
  · exact same_feeders_to_uncalculated h hagree

end Agree

/-- The order of findings does not depend on the spelling. -/
theorem before_iff {f f' g g' : Finding} (hf : SameFinding letters f f')
    (hg : SameFinding letters g g') : f.before g ↔ f'.before g' := by
  rw [Finding.before, Finding.before, hf.severity, hg.severity, hf.line_number, hg.line_number]

/-! ## The trace of a cell -/

/-- The statements that apply are at the same places. -/
theorem same_applicable (h : SameRules letters p q) (wanted : List Text) :
    Forall₂ (SameStatement letters) (p.calculations.filter (applies casing wanted))
      (q.calculations.filter (applies casing wanted)) :=
  Alike.filter h.calculations fun _ hx => (List.forall₂_zip h.calculations hx).applies_eq wanted

/-- The traces are the same exactly when the statement that applies is fed in both texts or in
neither. -/
theorem sameTrace_iff (h : letters.Alike s t) (hcell : Forall₂ letters.Alike cell cell') :
    Option.Rel (SameTrace letters) (trace_cell casing s cell) (trace_cell casing t cell') ↔
      ∀ x, (calculationPairs (parse_rules casing s) (parse_rules casing t)).find?
          (fun x => applies casing (wantedNames casing cell) x.1) = some x →
        fedAsSpelled (parse_rules casing s) x.1 = fedAsSpelled (parse_rules casing t) x.2 := by
  have hrules := h.parse_rules
  have hsame := same_applicable hrules (wantedNames casing cell)
  have hpairs : ∀ x ∈ calculationPairs (parse_rules casing s) (parse_rules casing t),
      applies casing (wantedNames casing cell) x.1 = applies casing (wantedNames casing cell) x.2 :=
    fun x hx => (List.forall₂_zip hrules.calculations hx).applies_eq _
  have hzip := Alike.zip_filter hrules.calculations hpairs
  rw [calculationPairs, ← List.head?_filter, ← hzip]
  unfold trace_cell
  dsimp only
  rw [← wantedNames_eq hcell]
  generalize (parse_rules casing s).calculations.filter
    (applies casing (wantedNames casing cell)) = applicable at hsame
  generalize (parse_rules casing t).calculations.filter
    (applies casing (wantedNames casing cell)) = applicable' at hsame
  cases hsame with
  | nil =>
    simp only [List.zip_nil_left, List.head?_nil]
    exact ⟨fun _ x hx => (nomatch hx), fun _ => .none⟩
  | @cons winner winner' others others' hwinner hothers =>
    simp only [List.zip_cons_cons, List.head?_cons, Option.some.injEq, forall_eq']
    constructor
    · intro htrace
      cases htrace with
      | some hfed => exact hfed.is_fed
    · intro hfed
      exact .some ⟨hwinner, hothers, hrules.skipcheck_eq, hfed⟩

/-! ## Where the analyses agree -/

/-- What tells findings apart, whatever the spelling: the check, the line, and the line of an
earlier statement. -/
def Finding.tag (finding : Finding) : String × Option ℕ × Option ℕ :=
  (finding.message.code, finding.line_number,
    match finding.message with
    | .shadowed_area _ first_line => some first_line
    | _ => none)

theorem SameFinding.tag_eq {f g : Finding} (h : SameFinding letters f g) : f.tag = g.tag := by
  obtain ⟨_, message, _, _⟩ := f
  obtain ⟨_, message', _, _⟩ := g
  obtain ⟨-, hmessage, hline, -⟩ := h
  dsimp only at hmessage hline
  rw [hline]
  cases hmessage <;> rfl

/-- The findings of a text have tags that those of another have. -/
def TagsIn (p q : ParsedRules) : Prop := ∀ f ∈ checked p, ∃ g ∈ checked q, g.tag = f.tag

theorem statement_of_line {l : List Statement} (hl : (l.map Statement.line_number).Nodup)
    {x y : Statement} (hx : x ∈ l) (hy : y ∈ l) (h : x.line_number = y.line_number) : x = y :=
  List.inj_on_of_nodup_map hl hx hy h

/-- The findings about unfed calculations. -/
theorem mem_check_unfed_iff {f : Finding} :
    f ∈ _check_unfed_calculations p ↔ p.skipcheck = true ∧ p.has_feeders_section = true ∧
      ∃ x ∈ p.calculations, feedable p x = true ∧ fedAsSpelled p x = false ∧
        unfedFinding p x = f := by
  unfold _check_unfed_calculations fedAsSpelled
  cases p.skipcheck <;> cases p.has_feeders_section <;>
    simp [List.mem_map, List.mem_filter, and_assoc]

/-- A calculation that is unfed in one text is unfed in the other. -/
theorem unfed_of_tags (hone : (q.calculations.map Statement.line_number).Nodup) (htags : TagsIn p q)
    (hskipcheck : p.skipcheck = true) (hsection : p.has_feeders_section = true) {x y : Statement}
    (hx : x ∈ p.calculations) (hy : y ∈ q.calculations) (hline : x.line_number = y.line_number)
    (hfeedable : feedable p x = true) (hunfed : fedAsSpelled p x = false) :
    fedAsSpelled q y = false := by
  have hmem : unfedFinding p x ∈ _check_unfed_calculations p :=
    mem_check_unfed_iff.mpr ⟨hskipcheck, hsection, x, hx, hfeedable, hunfed, rfl⟩
  obtain ⟨g, hg, htag⟩ := htags _ (mem_checked_iff.mpr hmem)
  have hcheck := mem_checked_iff.mp hg
  simp only [Finding.tag, unfedFinding, Prod.mk.injEq] at htag
  obtain ⟨hcode, hgline, -⟩ := htag
  cases hmessage : g.message with
  | unfed_calculation elements has_unresolvable =>
    rw [hmessage] at hcheck
    obtain ⟨-, -, z, hz, -, hzUnfed, rfl⟩ := mem_check_unfed_iff.mp hcheck
    rw [statement_of_line hone hy hz (hline.symm.trans (Option.some.inj hgline).symm)]
    exact hzUnfed
  | _ =>
    rw [hmessage] at hcode
    simp [Message.code] at hcode

theorem mem_check_uncalculated_iff {f : Finding} :
    f ∈ _check_feeders_to_uncalculated p ↔ ∃ x ∈ p.feeders, targeted x = true ∧
      intersects (calculatedElements p) x.target_elements = false ∧ uncalculatedFinding x = f := by
  simp [_check_feeders_to_uncalculated, List.mem_map, List.mem_filter, and_assoc]

/-- A feeder that targets nothing calculated in one text does so in the other. -/
theorem uncalculated_of_tags (hone : (q.feeders.map Statement.line_number).Nodup)
    (htags : TagsIn p q) {x y : Statement} (hx : x ∈ p.feeders) (hy : y ∈ q.feeders)
    (hline : x.line_number = y.line_number) (htargeted : targeted x = true)
    (hnone : intersects (calculatedElements p) x.target_elements = false) :
    intersects (calculatedElements q) y.target_elements = false := by
  have hmem : uncalculatedFinding x ∈ _check_feeders_to_uncalculated p :=
    mem_check_uncalculated_iff.mpr ⟨x, hx, htargeted, hnone, rfl⟩
  obtain ⟨g, hg, htag⟩ := htags _ (mem_checked_iff.mpr hmem)
  have hcheck := mem_checked_iff.mp hg
  simp only [Finding.tag, uncalculatedFinding, Prod.mk.injEq] at htag
  obtain ⟨hcode, hgline, -⟩ := htag
  cases hmessage : g.message with
  | feeder_to_uncalculated_area elements =>
    rw [hmessage] at hcheck
    obtain ⟨z, hz, -, hzNone, rfl⟩ := mem_check_uncalculated_iff.mp hcheck
    rw [statement_of_line hone hy hz (hline.symm.trans (Option.some.inj hgline).symm)]
    exact hzNone
  | _ =>
    rw [hmessage] at hcode
    simp [Message.code] at hcode

/-! ### Areas -/

/-- The first statement of the area of a statement. -/
def firstOf (l : List Statement) (statement : Statement) : Option Statement :=
  l.find? fun first => areaKey first = areaKey statement

/-- What the loop reports: the statements that are not the first of their area. -/
theorem mem_shadowedFrom_iff {seen rest : List Statement} {f : Finding}
    (hone : ((seen ++ rest).map Statement.line_number).Nodup) :
    f ∈ shadowedFrom seen rest ↔ ∃ x ∈ rest, ∃ first, firstOf (seen ++ rest) x = some first ∧
      first.line_number ≠ x.line_number ∧
      f = ⟨.warning, .shadowed_area x.elements first.line_number, some x.line_number, some x.text⟩ := by
  induction rest generalizing seen with
  | nil => simp [shadowedFrom]
  | cons a rest ih =>
    have hassoc : seen ++ a :: rest = (seen ++ [a]) ++ rest := by simp
    rw [shadowedFrom, shadowedFinding]
    rcases hfound : seen.find? (fun first => areaKey first = areaKey a) with _ | first
    · -- `a` is the first of its area
      have hself : firstOf (seen ++ a :: rest) a = some a := by
        rw [firstOf, List.find?_append, hfound, List.find?_cons]
        simp
      rw [Option.map_none]
      dsimp only
      rw [ih (by rw [← hassoc]; exact hone), ← hassoc]
      constructor
      · rintro ⟨x, hx, hrest⟩
        exact ⟨x, List.mem_cons_of_mem _ hx, hrest⟩
      · rintro ⟨x, hx, first, hfirst, hne, hf⟩
        rcases List.mem_cons.mp hx with rfl | hx
        · rw [hself, Option.some.injEq] at hfirst
          exact absurd (congrArg Statement.line_number hfirst).symm hne
        · exact ⟨x, hx, first, hfirst, hne, hf⟩
    · -- an earlier statement has the area of `a`, so `a` is never the first of one
      have hkey := List.find?_some hfound
      rw [decide_eq_true_eq] at hkey
      have hseen := List.mem_of_find?_eq_some hfound
      have hskip : ∀ x, firstOf (seen ++ a :: rest) x = firstOf (seen ++ rest) x := by
        intro x
        rw [firstOf, firstOf, List.find?_append, List.find?_append]
        by_cases hax : areaKey a = areaKey x
        · rcases hx : seen.find? (fun first => areaKey first = areaKey x) with _ | other
          · have hnone := List.find?_eq_none.mp hx first hseen
            rw [decide_eq_true_eq] at hnone
            exact absurd (hkey.trans hax) hnone
          · rfl
        · rw [List.find?_cons, decide_eq_false hax]
      have hself : firstOf (seen ++ a :: rest) a = some first := by
        rw [firstOf, List.find?_append, hfound]
        rfl
      have hne : first.line_number ≠ a.line_number := by
        rw [List.map_append, List.map_cons, List.nodup_append] at hone
        exact hone.2.2 _ (List.mem_map_of_mem hseen) _ (List.mem_cons_self ..)
      have hone' : ((seen ++ rest).map Statement.line_number).Nodup :=
        hone.sublist (List.Sublist.map _ (List.Sublist.append_left (List.sublist_cons_self ..) _))
      rw [Option.map_some, List.mem_cons, ih hone']
      constructor
      · rintro (rfl | ⟨x, hx, other, hother, hne', hf⟩)
        · exact ⟨a, List.mem_cons_self .., first, hself, hne, rfl⟩
        · exact ⟨x, List.mem_cons_of_mem _ hx, other, (hskip x).trans hother, hne', hf⟩
      · rintro ⟨x, hx, other, hother, hne', hf⟩
        rcases List.mem_cons.mp hx with rfl | hx
        · rw [hself, Option.some.injEq] at hother
          rw [hother]
          exact .inl hf
        · exact .inr ⟨x, hx, other, (hskip x).symm.trans hother, hne', hf⟩

/-- The statements that the check for areas looks at. -/
def withArea (p : ParsedRules) : List Statement := p.calculations.filter hasArea

theorem withArea_nodup (hone : (p.calculations.map Statement.line_number).Nodup) :
    ((withArea p).map Statement.line_number).Nodup :=
  hone.sublist (List.Sublist.map _ List.filter_sublist)

theorem exists_firstOf {l : List Statement} {x : Statement} (hx : x ∈ l) :
    ∃ first ∈ l, firstOf l x = some first ∧ areaKey first = areaKey x := by
  rcases hfound : firstOf l x with _ | first
  · have hnone := List.find?_eq_none.mp hfound x hx
    simp at hnone
  · have hkey := List.find?_some hfound
    rw [decide_eq_true_eq] at hkey
    exact ⟨first, List.mem_of_find?_eq_some hfound, rfl, hkey⟩

/-- A statement that is not the first of its area is reported, with the line of the first. -/
theorem firstOf_of_tags (hp : (p.calculations.map Statement.line_number).Nodup)
    (hq : (q.calculations.map Statement.line_number).Nodup) (htags : TagsIn p q)
    {x y first first' : Statement} (hx : x ∈ withArea p) (hy : y ∈ withArea q)
    (hline : x.line_number = y.line_number) (hfirst : firstOf (withArea p) x = some first)
    (hfirst' : firstOf (withArea q) y = some first') (hne : first.line_number ≠ x.line_number) :
    first'.line_number = first.line_number := by
  have hmem : (⟨.warning, .shadowed_area x.elements first.line_number, some x.line_number,
      some x.text⟩ : Finding) ∈ _check_shadowed_areas p :=
    (mem_shadowedFrom_iff (withArea_nodup hp)).mpr ⟨x, hx, first, hfirst, hne, rfl⟩
  obtain ⟨g, hg, htag⟩ := htags _ (mem_checked_iff.mpr hmem)
  have hcheck := mem_checked_iff.mp hg
  simp only [Finding.tag, Prod.mk.injEq] at htag
  obtain ⟨hcode, hgline, hgfirst⟩ := htag
  cases hmessage : g.message with
  | shadowed_area elements first_line =>
    rw [hmessage] at hcheck hgfirst
    obtain ⟨z, hz, other, hother, -, rfl⟩ :=
      (mem_shadowedFrom_iff (withArea_nodup hq)).mp hcheck
    have hzy : z = y := statement_of_line (withArea_nodup hq) hz hy
      ((Option.some.inj hgline).trans hline)
    rw [List.nil_append, hzy] at hother
    have hsame := hother.symm.trans hfirst'
    rw [Option.some.injEq] at hsame
    rw [Message.shadowed_area.injEq] at hmessage
    rw [← hsame, hmessage.2]
    exact Option.some.inj hgfirst
  | _ =>
    rw [hmessage] at hcode
    simp [Message.code] at hcode

/-- The first statements of an area begin on one line in both texts. -/
theorem firstOf_line_eq (hp : (p.calculations.map Statement.line_number).Nodup)
    (hq : (q.calculations.map Statement.line_number).Nodup) (htags : TagsIn p q)
    (htags' : TagsIn q p) {x y first first' : Statement} (hx : x ∈ withArea p) (hy : y ∈ withArea q)
    (hline : x.line_number = y.line_number) (hfirst : firstOf (withArea p) x = some first)
    (hfirst' : firstOf (withArea q) y = some first') :
    first'.line_number = first.line_number := by
  by_cases hne : first.line_number = x.line_number
  · by_cases hne' : first'.line_number = y.line_number
    · rw [hne, hne', hline]
    · exact (firstOf_of_tags hq hp htags' hy hx hline.symm hfirst' hfirst hne').symm
  · exact firstOf_of_tags hp hq htags hx hy hline hfirst hfirst' hne

/-- Two calculations that have one area in one text have one in the other. -/
theorem area_of_tags (hp : (p.calculations.map Statement.line_number).Nodup)
    (hq : (q.calculations.map Statement.line_number).Nodup) (htags : TagsIn p q)
    (htags' : TagsIn q p) {x y u v : Statement} (hx : x ∈ withArea p) (hy : y ∈ withArea q)
    (hu : u ∈ withArea p) (hv : v ∈ withArea q) (hxy : x.line_number = y.line_number)
    (huv : u.line_number = v.line_number) (hkey : areaKey x = areaKey u) :
    areaKey y = areaKey v := by
  obtain ⟨first, -, hfirst, -⟩ := exists_firstOf hx
  obtain ⟨first', hmem', hfirst', hkey'⟩ := exists_firstOf hy
  obtain ⟨other', hother, hfirstOther', hkeyOther⟩ := exists_firstOf hv
  have hfirstU : firstOf (withArea p) u = some first := by
    rw [firstOf, ← hkey]
    exact hfirst
  have hlines := (firstOf_line_eq hp hq htags htags' hx hy hxy hfirst hfirst').trans
    (firstOf_line_eq hp hq htags htags' hu hv huv hfirstU hfirstOther').symm
  rw [← hkey', ← hkeyOther, statement_of_line (withArea_nodup hq) hmem' hother hlines]

/-- Findings that are the same up to the spelling have the same tags, in both directions. -/
theorem tagsIn_of_same
    (h : Forall₂ (SameFinding letters) (analyze_rules casing s).findings
      (analyze_rules casing t).findings) :
    TagsIn (parse_rules casing s) (parse_rules casing t) ∧
      TagsIn (parse_rules casing t) (parse_rules casing s) := by
  constructor
  · intro f hf
    obtain ⟨g, hfg⟩ := Alike.exists_zip_left h (mem_findings.mpr hf)
    have hg := mem_findings.mp (List.of_mem_zip hfg).2
    exact ⟨g, hg, (List.forall₂_zip h hfg).tag_eq.symm⟩
  · intro g hg
    obtain ⟨f, hfg⟩ := Alike.exists_zip_right h (mem_findings.mpr hg)
    have hf := mem_findings.mp (List.of_mem_zip hfg).1
    exact ⟨f, hf, (List.forall₂_zip h hfg).tag_eq⟩

/-- Where the lines of one text tell its statements apart, so do those of the other. -/
theorem SameRules.oneEachLine (h : SameRules letters p q) (hone : OneEachLine p) :
    OneEachLine q := by
  have hcalculations : p.calculations.map Statement.line_number =
      q.calculations.map Statement.line_number :=
    Alike.map_eq h.calculations fun _ _ hxy => hxy.line_number
  have hfeeders : p.feeders.map Statement.line_number = q.feeders.map Statement.line_number :=
    Alike.map_eq h.feeders fun _ _ hxy => hxy.line_number
  exact ⟨hcalculations ▸ hone.calculations, hfeeders ▸ hone.feeders⟩

/-- Two answers that are `false` together are the same. -/
theorem eq_of_false_iff {b c : Bool} (h : b = false → c = false) (h' : c = false → b = false) :
    b = c := by
  cases b with
  | false => exact (h rfl).symm
  | true =>
    cases c with
    | false => exact h' rfl
    | true => rfl

section Tags

variable (h : SameRules letters p q) (hp : OneEachLine p) (htags : TagsIn p q)
  (htags' : TagsIn q p)
include h hp htags htags'

theorem fed_of_tags (hskipcheck : p.skipcheck = true) (hsection : p.has_feeders_section = true)
    {x : Statement × Statement} (hx : x ∈ calculationPairs p q)
    (hfeedable : feedable p x.1 = true) : fedAsSpelled p x.1 = fedAsSpelled q x.2 := by
  have hq := h.oneEachLine hp
  have hsame := List.forall₂_zip h.calculations hx
  obtain ⟨hx1, hx2⟩ := List.of_mem_zip hx
  have hfeedable' : feedable q x.2 = true := by
    rw [← h.feedable_eq hsame]
    exact hfeedable
  refine eq_of_false_iff ?_ ?_
  · exact unfed_of_tags hq.calculations htags hskipcheck hsection hx1 hx2 hsame.line_number
      hfeedable
  · exact unfed_of_tags hp.calculations htags' (h.skipcheck_eq ▸ hskipcheck)
      (h.has_feeders_section ▸ hsection) hx2 hx1 hsame.line_number.symm hfeedable'

theorem target_of_tags {x : Statement × Statement} (hx : x ∈ p.feeders.zip q.feeders)
    (htargeted : targeted x.1 = true) :
    intersects (calculatedElements p) x.1.target_elements =
      intersects (calculatedElements q) x.2.target_elements := by
  have hq := h.oneEachLine hp
  have hsame := List.forall₂_zip h.feeders hx
  obtain ⟨hx1, hx2⟩ := List.of_mem_zip hx
  have htargeted' : targeted x.2 = true := by
    rw [← hsame.targeted_eq]
    exact htargeted
  refine eq_of_false_iff ?_ ?_
  · exact uncalculated_of_tags hq.feeders htags hx1 hx2 hsame.line_number htargeted
  · exact uncalculated_of_tags hp.feeders htags' hx2 hx1 hsame.line_number.symm htargeted'

theorem areaKey_of_tags {x y : Statement × Statement} (hx : x ∈ calculationPairs p q)
    (hy : y ∈ calculationPairs p q) (hxArea : hasArea x.1 = true) (hyArea : hasArea y.1 = true) :
    areaKey x.1 = areaKey y.1 ↔ areaKey x.2 = areaKey y.2 := by
  have hq := h.oneEachLine hp
  have hsameX := List.forall₂_zip h.calculations hx
  have hsameY := List.forall₂_zip h.calculations hy
  obtain ⟨hx1, hx2⟩ := List.of_mem_zip hx
  obtain ⟨hy1, hy2⟩ := List.of_mem_zip hy
  have hin : ∀ {z : Statement × Statement}, z ∈ calculationPairs p q → hasArea z.1 = true →
      z.1 ∈ withArea p ∧ z.2 ∈ withArea q := by
    intro z hz hzArea
    obtain ⟨hz1, hz2⟩ := List.of_mem_zip hz
    refine ⟨List.mem_filter.mpr ⟨hz1, hzArea⟩, List.mem_filter.mpr ⟨hz2, ?_⟩⟩
    rw [← (List.forall₂_zip h.calculations hz).hasArea_eq]
    exact hzArea
  obtain ⟨hxp, hxq⟩ := hin hx hxArea
  obtain ⟨hyp, hyq⟩ := hin hy hyArea
  constructor
  · exact area_of_tags hp.calculations hq.calculations htags htags' hxp hxq hyp hyq
      hsameX.line_number hsameY.line_number
  · exact area_of_tags hq.calculations hp.calculations htags' htags hxq hxp hyq hyp
      hsameX.line_number.symm hsameY.line_number.symm

end Tags

/-- **The analyses of two spellings are the same where the comparisons of names agree, and, when
no two statements begin on one line, only there.** -/
theorem sameAnalysis_iff_namesAgree (letters : Letters casing) (h : letters.Alike s t)
    (hcell : Forall₂ letters.Alike cell cell') :
    (NamesAgree casing (parse_rules casing s) (parse_rules casing t) cell →
      SameAnalysis letters s t cell cell') ∧
    (OneEachLine (parse_rules casing s) →
      (SameAnalysis letters s t cell cell' ↔
        NamesAgree casing (parse_rules casing s) (parse_rules casing t) cell)) := by
  have hrules := h.parse_rules
  have hsufficient : NamesAgree casing (parse_rules casing s) (parse_rules casing t) cell →
      SameAnalysis letters s t cell cell' := by
    intro hagree
    constructor
    · have hchecked := same_checked hrules hagree
      dsimp only [analyze_rules]
      exact Alike.insertionSort (fun _ _ _ _ hf hg => before_iff hf hg) hchecked
    · exact (sameTrace_iff h hcell).mpr hagree.traced
  refine ⟨hsufficient, fun hone => ⟨fun hsame => ?_, hsufficient⟩⟩
  obtain ⟨htags, htags'⟩ := tagsIn_of_same hsame.findings
  constructor
  · intro hskipcheck hsection x hx hfeedable
    exact fed_of_tags hrules hone htags htags' hskipcheck hsection hx hfeedable
  · intro x hx y hy hxArea hyArea
    exact areaKey_of_tags hrules hone htags htags' hx hy hxArea hyArea
  · intro x hx htargeted
    exact target_of_tags hrules hone htags htags' hx htargeted
  · exact (sameTrace_iff h hcell).mp hsame.trace

/-! ### ASCII letters -/

/-- The letters of ASCII. -/
def asciiLetters : Letters asciiCasing where
  same c d := c = d ∨ (isMark c = false ∧ isMark d = false) ∧
    c.toUpper = d.toUpper ∧ c.toLower = d.toLower
  refl c := .inl rfl
  letter c d h := h.imp_right And.left
  upper s t h := Alike.map_eq h fun c d hcd => by
    rcases hcd with rfl | ⟨-, hupper, -⟩
    · rfl
    · exact hupper
  lower s t h := Alike.map_eq h fun c d hcd => by
    rcases hcd with rfl | ⟨-, -, hlower⟩
    · rfl
    · exact hlower

instance : DecidableRel asciiLetters.same := fun c d =>
  inferInstanceAs (Decidable (c = d ∨ (isMark c = false ∧ isMark d = false) ∧
    c.toUpper = d.toUpper ∧ c.toLower = d.toLower))

/-- A calculation that is fed, as spelled. -/
def fedText : Text :=
  "SKIPCHECK;\n['Margin'] = N: ['Sales'] * 2;\nFEEDERS;\n['Sales'] => ['Margin'];".toList

/-- The feeder spells the element in another way. -/
def fedInLowerCase : Text :=
  "SKIPCHECK;\n['Margin'] = N: ['Sales'] * 2;\nFEEDERS;\n['Sales'] => ['margin'];".toList

/-- Both texts in capitals. -/
def fedInCapitals : Text :=
  "SKIPCHECK;\n['MARGIN'] = N: ['Sales'] * 2;\nFEEDERS;\n['Sales'] => ['MARGIN'];".toList

/-- A change of case that the calculation and the feeder share changes nothing. -/
theorem sameAnalysis_iff_namesAgree_capitals :
    SameAnalysis asciiLetters fedText fedInCapitals ["Margin".toList] ["margin".toList] ∧
    (SameAnalysis asciiLetters fedText fedInCapitals ["Margin".toList] ["margin".toList] ↔
      NamesAgree asciiCasing (parse_rules asciiCasing fedText)
        (parse_rules asciiCasing fedInCapitals) ["Margin".toList]) := by
  have halike : asciiLetters.Alike fedText fedInCapitals := by decide +kernel
  have hcell : Forall₂ asciiLetters.Alike ["Margin".toList] ["margin".toList] := by decide +kernel
  let p := parse_rules asciiCasing fedText
  let q := parse_rules asciiCasing fedInCapitals
  have hfacts : (∀ x ∈ calculationPairs p q, fedAsSpelled p x.1 = fedAsSpelled q x.2) ∧
      (∀ x ∈ calculationPairs p q, ∀ y ∈ calculationPairs p q,
        (areaKey x.1 = areaKey y.1 ↔ areaKey x.2 = areaKey y.2)) ∧
      (∀ x ∈ p.feeders.zip q.feeders,
        intersects (calculatedElements p) x.1.target_elements =
          intersects (calculatedElements q) x.2.target_elements) ∧
      (p.calculations.map Statement.line_number).Nodup ∧
      (p.feeders.map Statement.line_number).Nodup := by
    decide +kernel
  obtain ⟨hfed, harea, htarget, hone⟩ := hfacts
  have hagree : NamesAgree asciiCasing p q ["Margin".toList] := {
    fed := fun _ _ x hx _ => hfed x hx
    area := fun x hx y hy _ _ => harea x hx y hy
    target := fun x hx _ => htarget x hx
    traced := fun x hx => hfed x (List.mem_of_find?_eq_some hx) }
  have hboth := sameAnalysis_iff_namesAgree asciiLetters halike hcell
  exact ⟨hboth.1 hagree, hboth.2 ⟨hone.1, hone.2⟩⟩

/-- The calculation is unfed, and the cell too, once the feeder is spelled in lower case. -/
theorem feeder_in_lower_case :
    asciiLetters.Alike fedText fedInLowerCase ∧
    ((analyze_rules asciiCasing fedText).findings = [] ∧
      ∃ finding ∈ (analyze_rules asciiCasing fedInLowerCase).findings,
        finding.message.code = "unfed_calculation" ∧ finding.severity = .critical) ∧
    ((trace_cell asciiCasing fedText ["Margin".toList]).map Traced.is_fed = some true ∧
      (trace_cell asciiCasing fedInLowerCase ["Margin".toList]).map Traced.is_fed = some false) ∧
    ¬ SameAnalysis asciiLetters fedText fedInLowerCase ["Margin".toList] ["Margin".toList] := by
  have hfindings : (analyze_rules asciiCasing fedText).findings = [] ∧
      ∃ finding ∈ (analyze_rules asciiCasing fedInLowerCase).findings,
        finding.message.code = "unfed_calculation" ∧ finding.severity = .critical := by
    decide +kernel
  refine ⟨by decide +kernel, hfindings, by decide +kernel, fun hsame => ?_⟩
  -- Findings that correspond are as many, and the text as first spelled has none.
  obtain ⟨hnone, finding, hmem, -, -⟩ := hfindings
  have hlength := hsame.findings.length_eq
  rw [hnone] at hlength
  exact absurd (List.length_pos_of_mem hmem) (by simp [← hlength])

end PaCopilot.rules
