/-
The rules that watch a TM1 server, `services/monitoring_rules_service.py`: what a check of
one rule does with what its kind has found.

An alert is inserted under its rule and its `dedup_key`, and an occurrence whose key is
there already is dropped. The model is about one rule, so the alerts here are those of that
rule. What a kind of rule looks at, and what it keeps to compare the next time with, is in
the module of the kind.
-/
import PaCopilot.Lib.Dedup
import PaCopilot.Python

set_option autoImplicit false

namespace PaCopilot.monitoring_rules

open Dedup

/-- An instant in UTC, in microseconds. -/
abbrev Time := ℕ

def MAX_ALERTS_PER_CHECK : ℕ := 20

def ERRORS_BEFORE_ALERT : ℕ := 3

def MAX_GROUPS : ℕ := 500

/-- `value[:limit]`. -/
def truncate (limit : ℕ) (value : String) : String := String.ofList (value.toList.take limit)

/-- Who is in which group. -/
abbrev Snapshot := List (String × List String)

/-- The `dedup_key` of an alert. Its forms begin differently, and only that of a run can be
longer than what is stored of it. A SHA-256 digest stands for what was hashed, and a minute
for its spelling. -/
inductive DedupKey
  | unreachable (minute : ℕ)
  | run (text : String)
  | security (snapshot : Snapshot)
  | extraction (id : ℕ)
  deriving DecidableEq

/-- `evidence`: that of the rule's kind, or the number of failed checks. -/
inductive Evidence (E : Type)
  | found (evidence : E)
  | errors (errors : ℕ)
  deriving DecidableEq

/-- What a check has found. -/
structure Found (E : Type) where
  severity : String
  title : String
  detail : Option String
  evidence : Evidence E
  dedup_key : DedupKey
  deriving DecidableEq

structure MonitorAlert (E : Type) where
  severity : String
  title : String
  detail : Option String
  evidence : Evidence E
  dedup_key : DedupKey
  fired_at : Time
  deriving DecidableEq

/-- A rule, with the baseline that its kind keeps. -/
structure MonitorRule (S : Type) where
  name : String
  created_at : Time
  last_checked_at : Option Time := none
  state : Option S := none
  last_error : Option String := none
  consecutive_errors : ℕ := 0
  deriving DecidableEq

/-- What the evaluator of a kind returns, or the text and the class of what it raises. -/
abbrev Evaluated (S E : Type) := Except (String × String) (List (Found E) × Option S)

section Check

variable {S E : Type}

/-- The row of an alert. -/
def alertOf (now : Time) (found : Found E) : MonitorAlert E :=
  ⟨found.severity, truncate 500 found.title, found.detail, found.evidence, found.dedup_key, now⟩

/-- `_raise`: the alert, if it is a new one, and the table after it. -/
def _raise (now : Time) (found : Found E) (alerts : List (MonitorAlert E)) :
    Option (MonitorAlert E) × List (MonitorAlert E) :=
  let alert := alertOf now found
  if alert.dedup_key ∈ alerts.map MonitorAlert.dedup_key then (none, alerts)
  else (some alert, alerts ++ [alert])

/-- `for item in found`: the alerts that are new, and the table. -/
def raiseAll (now : Time) : List (Found E) → List (MonitorAlert E) →
    List (MonitorAlert E) × List (MonitorAlert E)
  | [], alerts => ([], alerts)
  | item :: rest, alerts =>
    let (alert, alerts) := _raise now item alerts
    let (raised, alerts) := raiseAll now rest alerts
    (alert.toList ++ raised, alerts)

/-- `rule.last_checked_at or rule.created_at`. -/
def MonitorRule.since (rule : MonitorRule S) : Time := rule.last_checked_at.getD rule.created_at

/-- `check_rule`, from the moment it started: the rule and the alerts after it, and the
alerts it has raised. -/
def check_rule (started now : Time) (evaluated : Evaluated S E) (rule : MonitorRule S)
    (alerts : List (MonitorAlert E)) :
    MonitorRule S × List (MonitorAlert E) × List (MonitorAlert E) :=
  match evaluated with
  | .error (text, cls) =>
    let last_error := if truncate 1000 text = "" then cls else truncate 1000 text
    let rule := { rule with
      consecutive_errors := rule.consecutive_errors + 1
      last_error := some last_error }
    -- once, and not at the errors that follow
    if rule.consecutive_errors = ERRORS_BEFORE_ALERT then
      let (alert, alerts) := _raise now
        { severity := "warning"
          title := s!"Cannot check '{rule.name}': the server did not answer {ERRORS_BEFORE_ALERT} times"
          detail := some last_error
          evidence := .errors rule.consecutive_errors
          dedup_key := .unreachable (started / 60000000) } alerts
      (rule, alerts, alert.toList)
    else (rule, alerts, [])
  | .ok (found, state) =>
    let (raised, alerts) := raiseAll now (found.take MAX_ALERTS_PER_CHECK) alerts
    -- what was beyond the cap counts as checked
    ({ rule with
      state := match state with
        | none => rule.state
        | some state => some state
      last_checked_at := some started
      last_error := none
      consecutive_errors := 0 }, alerts, raised)

/-! ## What a check adds -/

variable {now started : Time} {found : List (Found E)} {item : Found E}
  {alerts : List (MonitorAlert E)} {rule : MonitorRule S}

theorem _raise_snd : (_raise now item alerts).2
    = insertOne MonitorAlert.dedup_key alerts (alertOf now item) := by
  unfold _raise insertOne
  dsimp only
  split <;> rfl

theorem raiseAll_snd : (raiseAll now found alerts).2
    = insertAll MonitorAlert.dedup_key alerts (found.map (alertOf now)) := by
  induction found generalizing alerts with
  | nil => rfl
  | cons item rest ih =>
    rw [List.map_cons, insertAll_cons, ← _raise_snd, ← ih]
    rfl

/-- What a check that fails may add is not of the rule's kind. -/
theorem check_rule_error (started now : Time) (rule : MonitorRule S)
    (alerts : List (MonitorAlert E)) (text cls : String) :
    let after := check_rule started now (S := S) (.error (text, cls)) rule alerts
    after.1.state = rule.state ∧ after.1.last_checked_at = rule.last_checked_at ∧
      after.1.created_at = rule.created_at ∧
      (after.2.1 = alerts ∨ ∃ alert : MonitorAlert E, after.2.1
        = insertOne MonitorAlert.dedup_key alerts alert ∧
          alert.dedup_key = .unreachable (started / 60000000) ∧
          ∃ errors, alert.evidence = .errors errors) := by
  dsimp only [check_rule]
  split
  · refine ⟨rfl, rfl, rfl, .inr ⟨_, _raise_snd, rfl, _, rfl⟩⟩
  · exact ⟨rfl, rfl, rfl, .inl rfl⟩

theorem check_rule_ok {state : Option S} :
    check_rule started now (.ok (found, state)) rule alerts
      = ({ rule with
          state := match state with
            | none => rule.state
            | some state => some state
          last_checked_at := some started
          last_error := none
          consecutive_errors := 0 },
        (raiseAll now (found.take MAX_ALERTS_PER_CHECK) alerts).2,
        (raiseAll now (found.take MAX_ALERTS_PER_CHECK) alerts).1) := rfl

end Check

end PaCopilot.monitoring_rules
