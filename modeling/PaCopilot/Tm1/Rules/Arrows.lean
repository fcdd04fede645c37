/-
Feeders and calculations.

`parse_rules` takes a statement for a feeder when `=>` occurs in what follows its leading
area. Whether the arrow stands in a string literal is not asked, though the comment stripper
and the splitter both keep account of literals. So a calculation that compares with a text
such as `'=>'` goes among the feeders.
-/
import Mathlib.Data.List.Induction
import PaCopilot.Tm1.Rules.Analysis
import PaCopilot.Tm1.Rules.Statements

set_option autoImplicit false

namespace PaCopilot.rules

open Python (isspace strip)

/-! ## Arrows -/

/-- The lists of statements that `parse_rules` fills. -/
inductive Bucket
  | feeders
  | calculations
  | misplaced_calculations
  deriving DecidableEq

/-- The rules with a statement put last into a list of theirs. -/
def ParsedRules.put (parsed : ParsedRules) (statement : Statement) : Bucket → ParsedRules
  | .feeders => { parsed with feeders := parsed.feeders ++ [statement] }
  | .calculations => { parsed with calculations := parsed.calculations ++ [statement] }
  | .misplaced_calculations =>
    { parsed with misplaced_calculations := parsed.misplaced_calculations ++ [statement] }

section Casing

variable (casing : Casing)

/-- The rules when the loop of `parse_rules` has gone through some statements. -/
def parsedFrom (statements : List (ℕ × Text)) : ParsedRules :=
  (statements.map fun (line_number, raw) => item casing line_number raw).foldl ParsedRules.add {}

/-- A directive, or `FEEDERS`. -/
def isKeyword (raw : Text) : Bool :=
  casing.upper (strip raw) ∈ DIRECTIVES || casing.upper (strip raw) = FEEDERS_MARKER

variable {casing}

theorem parsedFrom_append (before : List (ℕ × Text)) (line_number : ℕ) (raw : Text) :
    parsedFrom casing (before ++ [(line_number, raw)]) =
      (parsedFrom casing before).add (item casing line_number raw) := by
  rw [parsedFrom, List.map_append, List.foldl_append]
  rfl

/-- What a statement that is no keyword adds. -/
theorem item_of_not_keyword {raw : Text} (hraw : isKeyword casing raw = false) (line_number : ℕ) :
    item casing line_number raw =
      match splitArrow (areaOf raw).2 with
      | some (_, target) => .feeder (feederStatement line_number raw target)
      | none => .calculation (calculationStatement casing line_number raw) := by
  rw [isKeyword, Bool.or_eq_false_iff, decide_eq_false_iff_not, decide_eq_false_iff_not] at hraw
  rw [item]
  exact (if_neg hraw.1).trans (if_neg hraw.2)

end Casing

end PaCopilot.rules
