/-
The analysis of rules, `tm1/rules/analysis.py`: the findings of `analyze_rules`, and which
statement `trace_cell` finds for a cell.

What a finding says is kept as the case and the values that go into its text, so that two
findings can be compared up to the spelling of the names in them.
-/
import PaCopilot.Tm1.Rules.Parser
import Mathlib.Data.Char
import Mathlib.Data.List.Lex
import Mathlib.Data.List.Sort

set_option autoImplicit false

namespace PaCopilot.rules

open Python (strip)

/-! ## Findings -/

inductive Severity
  | critical
  | warning
  | info
  deriving DecidableEq

/-- `_SEVERITY_ORDER`. -/
def Severity.order : Severity → ℕ
  | .critical => 0
  | .warning => 1
  | .info => 2

/-- What a finding says. -/
inductive Message
  | skipcheck_without_feeders
  | feeders_without_skipcheck
  | unfed_calculation (elements : List Text) (has_unresolvable : Bool)
  | calculation_below_feeders
  | string_rules_without_feedstrings
  | shadowed_area (elements : List Text) (first_line : ℕ)
  | feeder_to_uncalculated_area (target_elements : List Text)
  deriving DecidableEq

/-- `Finding.code`. -/
def Message.code : Message → String
  | .skipcheck_without_feeders => "skipcheck_without_feeders"
  | .feeders_without_skipcheck => "feeders_without_skipcheck"
  | .unfed_calculation _ _ => "unfed_calculation"
  | .calculation_below_feeders => "calculation_below_feeders"
  | .string_rules_without_feedstrings => "string_rules_without_feedstrings"
  | .shadowed_area _ _ => "shadowed_area"
  | .feeder_to_uncalculated_area _ => "feeder_to_uncalculated_area"

/-- `Finding.message`, with the `repr` of a list of texts. -/
def Message.text (repr : List Text → String) : Message → String
  | .skipcheck_without_feeders =>
    "SKIPCHECK is declared but the rule has no FEEDERS section. "
      ++ "Every calculated cell is unfed, so consolidated values above "
      ++ "leaf level will read zero while leaf values look correct."
  | .feeders_without_skipcheck =>
    "A FEEDERS section exists but SKIPCHECK is not declared. "
      ++ "Without SKIPCHECK the feeders have no effect and the engine "
      ++ "evaluates every cell, which is usually slower than intended."
  | .unfed_calculation elements has_unresolvable =>
    s!"No feeder targets {repr elements}. Under SKIPCHECK "
      ++ "this cell is skipped when consolidating, so totals above "
      ++ "it will read zero."
      ++ if has_unresolvable then " Some feeder targets in this rule could not be "
        ++ "resolved statically, so confirm before acting." else ""
  | .calculation_below_feeders =>
    "This assignment sits below FEEDERS; so TM1 never evaluates "
      ++ "it. Move it above the FEEDERS marker."
  | .string_rules_without_feedstrings =>
    "The rule calculates string values under SKIPCHECK but does "
      ++ "not declare FEEDSTRINGS. String cells will not be fed."
  | .shadowed_area elements first_line =>
    s!"Area {repr elements} is already calculated at line "
      ++ s!"{first_line}. TM1 applies the first match, so "
      ++ "this statement never runs."
  | .feeder_to_uncalculated_area target_elements =>
    s!"Feeder targets {repr target_elements}, which no rule "
      ++ "in this cube calculates. This is correct when feeding "
      ++ "another cube, and wasted work otherwise."

structure Finding where
  severity : Severity
  message : Message
  line_number : Option ℕ := none
  statement : Option Text := none
  deriving DecidableEq

/-! ## Checks -/

section Checks

variable (parsed : ParsedRules)

def _fed_elements : List Text := parsed.feeders.flatMap Statement.target_elements

def _has_unresolvable_feeder : Bool := parsed.feeders.any fun feeder => !feeder.resolvable

def _is_calculation (statement : Statement) : Bool := !statement.expression.isEmpty

/-- `fed.intersection(elements)` is not empty. -/
def intersects (fed elements : List Text) : Bool := fed.any fun name => name ∈ elements

def _check_skipcheck_without_feeders : List Finding :=
  if !parsed.skipcheck || parsed.has_feeders_section then []
  else if !parsed.calculations.any _is_calculation then []
  else [{ severity := .critical, message := .skipcheck_without_feeders }]

def _check_feeders_without_skipcheck : List Finding :=
  if parsed.skipcheck || !parsed.has_feeders_section then []
  else if parsed.feeders.isEmpty then []
  else [{ severity := .warning, message := .feeders_without_skipcheck }]

/-- A statement that the check for feeders looks at. -/
def feedable (statement : Statement) : Bool :=
  _is_calculation statement && !statement.elements.isEmpty
    && (statement.qualifier ≠ some ['S'] || parsed.feedstrings)

/-- The finding about a statement that nothing feeds. -/
def unfedFinding (statement : Statement) : Finding where
  severity := if _has_unresolvable_feeder parsed then .warning else .critical
  message := .unfed_calculation statement.elements (_has_unresolvable_feeder parsed)
  line_number := some statement.line_number
  statement := some statement.text

def _check_unfed_calculations : List Finding :=
  if !parsed.skipcheck || !parsed.has_feeders_section then []
  else
    (parsed.calculations.filter fun statement =>
      feedable parsed statement && !intersects (_fed_elements parsed) statement.elements).map
        (unfedFinding parsed)

def _check_misplaced_calculations : List Finding :=
  parsed.misplaced_calculations.map fun statement =>
    { severity := .critical
      message := .calculation_below_feeders
      line_number := some statement.line_number
      statement := some statement.text }

def _check_string_rules_without_feedstrings : List Finding :=
  if parsed.feedstrings || !parsed.skipcheck then []
  else
    match parsed.calculations.find? fun s => s.qualifier = some ['S'] && _is_calculation s with
    | none => []
    | some s =>
      [{ severity := .info
         message := .string_rules_without_feedstrings
         line_number := some s.line_number
         statement := some s.text }]

/-- `(tuple(sorted(statement.elements)), statement.qualifier)`. -/
def areaKey (statement : Statement) : List Text × Option Text :=
  (statement.elements.insertionSort (· ≤ ·), statement.qualifier)

/-- A statement that the check for areas looks at. -/
def hasArea (statement : Statement) : Bool :=
  _is_calculation statement && !statement.elements.isEmpty

/-- The finding about a statement, when an earlier one has its key. `seen` holds the first
statement of each key, in the order of the file. -/
def shadowedFinding (seen : List Statement) (statement : Statement) : Option Finding :=
  (seen.find? fun first => areaKey first = areaKey statement).map fun first =>
    { severity := .warning
      message := .shadowed_area statement.elements first.line_number
      line_number := some statement.line_number
      statement := some statement.text }

/-- The loop of `_check_shadowed_areas`. -/
def shadowedFrom (seen : List Statement) : List Statement → List Finding
  | [] => []
  | statement :: rest =>
    match shadowedFinding seen statement with
    | none => shadowedFrom (seen ++ [statement]) rest
    | some finding => finding :: shadowedFrom seen rest

def _check_shadowed_areas : List Finding :=
  shadowedFrom [] (parsed.calculations.filter hasArea)

/-- The elements of the areas that a rule calculates. -/
def calculatedElements : List Text :=
  (parsed.calculations.filter _is_calculation).flatMap Statement.elements

/-- The finding about a feeder whose target nothing calculates. -/
def uncalculatedFinding (feeder : Statement) : Finding where
  severity := .info
  message := .feeder_to_uncalculated_area feeder.target_elements
  line_number := some feeder.line_number
  statement := some feeder.text

/-- A feeder that the check for calculations looks at. -/
def targeted (feeder : Statement) : Bool := feeder.resolvable && !feeder.target_elements.isEmpty

def _check_feeders_to_uncalculated : List Finding :=
  (parsed.feeders.filter fun feeder =>
    targeted feeder && !intersects (calculatedElements parsed) feeder.target_elements).map
      uncalculatedFinding

/-- The findings of `_CHECKS`, one check after the other. -/
def checked : List Finding :=
  _check_skipcheck_without_feeders parsed ++ _check_feeders_without_skipcheck parsed
    ++ _check_unfed_calculations parsed ++ _check_misplaced_calculations parsed
    ++ _check_string_rules_without_feedstrings parsed ++ _check_shadowed_areas parsed
    ++ _check_feeders_to_uncalculated parsed

end Checks

/-- The order of `findings.sort`: by severity, then by line. -/
def Finding.before (f g : Finding) : Prop :=
  f.severity.order < g.severity.order ∨
    f.severity.order = g.severity.order ∧ f.line_number.getD 0 ≤ g.line_number.getD 0

instance : DecidableRel Finding.before := fun _ _ =>
  inferInstanceAs (Decidable (_ ∨ _))

structure Summary where
  skipcheck : Bool
  feedstrings : Bool
  has_feeders_section : Bool
  calculation_count : ℕ
  feeder_count : ℕ
  analysis_is_partial : Bool
  critical : ℕ
  warning : ℕ
  info : ℕ
  deriving DecidableEq

structure Analysis where
  summary : Summary
  findings : List Finding
  deriving DecidableEq

section Analyses

variable (casing : Casing)

def analyze_rules (text : Text) : Analysis :=
  let parsed := parse_rules casing text
  let findings := (checked parsed).insertionSort Finding.before
  { summary := {
      skipcheck := parsed.skipcheck
      feedstrings := parsed.feedstrings
      has_feeders_section := parsed.has_feeders_section
      calculation_count := parsed.calculations.countP _is_calculation
      feeder_count := parsed.feeders.length
      analysis_is_partial := _has_unresolvable_feeder parsed
      critical := findings.countP fun f => f.severity = .critical
      warning := findings.countP fun f => f.severity = .warning
      info := findings.countP fun f => f.severity = .info }
    findings := findings }

/-! ## Tracing a cell -/

/-- What `trace_cell` says of a cell that a rule calculates. -/
structure Traced where
  applied_statement : Statement
  also_matched : List Statement
  skipcheck : Bool
  is_fed : Bool
  deriving DecidableEq

/-- `warning` of the answer. -/
def Traced.warning (traced : Traced) : Option String :=
  if traced.skipcheck && !traced.is_fed then
    some ("SKIPCHECK is on and nothing feeds this area, so consolidations "
      ++ "above it will read zero.")
  else none

/-- The names of the cell in lower case. -/
def wantedNames (elements : List Text) : List Text :=
  (elements.filter fun e => strip e ≠ []).map fun e => casing.lower (strip e)

/-- The statement applies to the cell. -/
def applies (wanted : List Text) (statement : Statement) : Bool :=
  hasArea statement && statement.elements.all fun e => casing.lower e ∈ wanted

/-- `trace_cell`: `none` for a cell that is not calculated. -/
def trace_cell (text : Text) (elements : List Text) : Option Traced :=
  let parsed := parse_rules casing text
  match parsed.calculations.filter (applies casing (wantedNames casing elements)) with
  | [] => none
  | winner :: others => some {
      applied_statement := winner
      also_matched := others
      skipcheck := parsed.skipcheck
      is_fed := intersects (_fed_elements parsed) winner.elements }

end Analyses

/-! ## Which check a finding is of -/

section Codes

variable {casing : Casing} {text : Text} {parsed : ParsedRules} {finding : Finding}

/-- What the loop over areas reports. -/
theorem message_shadowedFrom (seen rest : List Statement) (h : finding ∈ shadowedFrom seen rest) :
    ∃ elements first_line, finding.message = .shadowed_area elements first_line := by
  induction rest generalizing seen with
  | nil => cases h
  | cons statement rest ih =>
    rw [shadowedFrom] at h
    rcases hshadowed : shadowedFinding seen statement with _ | other
    · rw [hshadowed] at h
      exact ih (seen ++ [statement]) h
    · rw [hshadowed] at h
      rcases List.mem_cons.mp h with rfl | h
      · rw [shadowedFinding, Option.map_eq_some_iff] at hshadowed
        obtain ⟨first, -, rfl⟩ := hshadowed
        exact ⟨_, _, rfl⟩
      · exact ih seen h

/-- The check that a message is of. -/
def checkOf (parsed : ParsedRules) : Message → List Finding
  | .skipcheck_without_feeders => _check_skipcheck_without_feeders parsed
  | .feeders_without_skipcheck => _check_feeders_without_skipcheck parsed
  | .unfed_calculation _ _ => _check_unfed_calculations parsed
  | .calculation_below_feeders => _check_misplaced_calculations parsed
  | .string_rules_without_feedstrings => _check_string_rules_without_feedstrings parsed
  | .shadowed_area _ _ => _check_shadowed_areas parsed
  | .feeder_to_uncalculated_area _ => _check_feeders_to_uncalculated parsed

/-- A finding is one of the check that its message is of. -/
theorem mem_checked_iff :
    finding ∈ checked parsed ↔ finding ∈ checkOf parsed finding.message := by
  constructor
  · intro h
    simp only [checked, List.mem_append] at h
    -- each check writes messages of its own kind alone
    rcases h with (((((h | h) | h) | h) | h) | h) | h
    · have hmessage : finding.message = .skipcheck_without_feeders := by
        unfold _check_skipcheck_without_feeders at h
        grind
      rw [hmessage]
      exact h
    · have hmessage : finding.message = .feeders_without_skipcheck := by
        unfold _check_feeders_without_skipcheck at h
        grind
      rw [hmessage]
      exact h
    · have hmem := h
      unfold _check_unfed_calculations at h
      split at h
      · cases h
      · obtain ⟨statement, -, rfl⟩ := List.mem_map.mp h
        exact hmem
    · have hmem := h
      obtain ⟨statement, -, rfl⟩ := List.mem_map.mp h
      exact hmem
    · have hmessage : finding.message = .string_rules_without_feedstrings := by
        unfold _check_string_rules_without_feedstrings at h
        grind
      rw [hmessage]
      exact h
    · obtain ⟨elements, first_line, hmessage⟩ := message_shadowedFrom _ _ h
      rw [hmessage]
      exact h
    · have hmem := h
      obtain ⟨feeder, -, rfl⟩ := List.mem_map.mp h
      exact hmem
  · intro h
    simp only [checked, List.mem_append]
    cases hmessage : finding.message <;>
      (rw [hmessage] at h; simp only [checkOf] at h; simp [h])

theorem mem_findings :
    finding ∈ (analyze_rules casing text).findings ↔ finding ∈ checked (parse_rules casing text) :=
  (List.perm_insertionSort Finding.before _).mem_iff

end Codes

end PaCopilot.rules
