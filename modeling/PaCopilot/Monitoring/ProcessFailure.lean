/-
The rule that watches the runs of processes, `_check_process_failure`.

A check looks at the runs that finished after the last check had begun, in the order in
which they finished, and raises at most `MAX_ALERTS_PER_CHECK` alerts. The next check does
not look at a run that finished before this one began: what was beyond the cap, or was
collected too late, is not looked at again ([`failures_alerted_iff`]).
-/
import PaCopilot.Monitoring.Rules
import PaCopilot.Monitoring.Runs
import PaCopilot.Lib.Run

set_option autoImplicit false

namespace PaCopilot.monitoring_rules.process_failure

open performance Dedup Run

/-! ## The check -/

/-- `evidence`. -/
structure RunEvidence where
  process : String
  outcome : String
  finished_at : String
  deriving DecidableEq

/-- The process and the instant by which an alert tells its run. -/
abbrev Named := String × String

def namedOf (run : TM1ProcessRun) : Named := (run.process_name, Python.isoformat run.finished_at)

/-- The `dedup_key` of a run, as far as it is stored. -/
def dedupKeyOf (named : Named) : DedupKey := .run (truncate 255 s!"run:{named.1}:{named.2}")

/-- What the check makes of a run. -/
def foundOf (run : TM1ProcessRun) : Found RunEvidence :=
  let outcome := Python.spaced run.outcome
  let source := if run.source = "message_log" then "TM1 message log" else "a PA-Copilot run"
  { severity := if run.outcome = "aborted" then "critical" else "warning"
    title := s!"{run.process_name} {outcome}"
    detail := some (s!"Finished {Python.formatDate run.finished_at} "
      ++ s!"{Python.formatMinute run.finished_at} UTC with outcome '{outcome}' (from {source}).")
    evidence := .found ⟨run.process_name, run.outcome, Python.isoformat run.finished_at⟩
    dedup_key := dedupKeyOf (namedOf run) }

/-- `TM1ProcessRun.outcome != "succeeded"`, of the process that `params` may name. -/
def watched (process_name : Option String) (run : TM1ProcessRun) : Bool :=
  run.outcome ≠ "succeeded" && process_name.all fun name => run.process_name = name

/-- The order of a query: by `finished_at`, runs of one instant in any order. -/
def Arranged (rows order : List TM1ProcessRun) : Prop :=
  order.Perm rows ∧ order.Pairwise fun a b => a.finished_at ≤ b.finished_at

instance (rows order : List TM1ProcessRun) : Decidable (Arranged rows order) :=
  inferInstanceAs (Decidable (order.Perm rows ∧
    order.Pairwise fun a b => a.finished_at ≤ b.finished_at))

/-- `_check_process_failure`, from the rows of its query. -/
def _check_process_failure (order : List TM1ProcessRun) : List (Found RunEvidence) :=
  order.map foundOf

/-! ## Collections and checks -/

/-- The runs of a connection, and one rule with its alerts. A check that has begun has its
instant in `checking`. -/
structure State where
  now : Time
  runs : List TM1ProcessRun
  /-- The runs that were there when the rule was created. -/
  older : List TM1ProcessRun
  process_name : Option String
  rule : MonitorRule Unit
  alerts : List (MonitorAlert RunEvidence) := []
  checking : Option Time := none

inductive Event
  /-- For this rule, for another one, or for a health scan. -/
  | collect (entries : List LogEntry) (changes : List TM1Change)
  | begin
  /-- The check has its rows, in this order. -/
  | finish (order : List TM1ProcessRun)
  /-- The server or the database has not answered it. -/
  | fail (text cls : String)
  | wait (duration : Time)

/-- The rows that a check asks for. -/
def State.query (s : State) : List TM1ProcessRun :=
  s.runs.filter fun run => watched s.process_name run && s.rule.since < run.finished_at

def step (s : State) : Event → Option State
  | .collect entries changes => some { s with runs := collect_runs entries changes s.runs }
  | .begin => if s.checking = none then some { s with checking := some s.now } else none
  | .finish order => s.checking.bind fun started =>
    -- the rows come in some order that the query allows
    if Arranged s.query order then
      let checked := check_rule started s.now (.ok (_check_process_failure order, none)) s.rule
        s.alerts
      some { s with rule := checked.1, alerts := checked.2.1, checking := none }
    else none
  | .fail text cls => s.checking.map fun started =>
    let checked := check_rule started s.now (.error (text, cls)) s.rule s.alerts
    { s with rule := checked.1, alerts := checked.2.1, checking := none }
  | .wait duration => some { s with now := s.now + duration }

/-- A rule that was created now. -/
def State.start (runs : List TM1ProcessRun) (process_name : Option String) (name : String)
    (now : Time) : State where
  now := now
  runs := runs
  older := runs
  process_name := process_name
  rule := { name := name, created_at := now }

/-! ## What is asked -/

/-- The alert is about a run of that process and instant. -/
def about (named : Named) (alert : MonitorAlert RunEvidence) : Bool :=
  match alert.evidence with
  | .found evidence => (evidence.process, evidence.finished_at) = named
  | .errors _ => false

section Asked

/- Which run of TM1 a row is about: one that was started by a change is in the message log,
too. -/
variable (actual : TM1ProcessRun → ℕ)

/-- The rows of a run that failed, of a process that is watched. Nothing is asked of a run
that was visible when the rule was created. -/
def due (s : State) (i : ℕ) : List TM1ProcessRun :=
  s.runs.filter fun run =>
    watched s.process_name run && actual run = i && s.older.all fun old => actual old ≠ i

/-- What the alerts about a run tell it by. -/
def names (s : State) (i : ℕ) : List Named := ((due actual s i).map namedOf).dedup

/-- A row of the run is left to the next check: it finished after this one had begun. -/
def later (s : State) (i : ℕ) (started : Time) : Bool :=
  (due actual s i).any fun run => started < run.finished_at

/-- After a check there is exactly one alert about each run that is due, or none yet. -/
def Alerted (s : State) (e : Event) : Prop :=
  ∀ s' started order, e = .finish order → s.checking = some started → step s e = some s' →
    ∀ i, due actual s i ≠ [] →
      let alerts := ((names actual s i).map fun named => s'.alerts.countP (about named)).sum
      alerts = 1 ∨ alerts = 0 ∧ later actual s i started = true

/-- A run is among the first rows of a check, and the key of its alert is not taken by
another run. -/
def inTime (order : List TM1ProcessRun) (alerts : List (MonitorAlert RunEvidence))
    (named : Named) : Bool :=
  let before := order.takeWhile fun run => namedOf run ≠ named
  before.length < order.length && before.length < MAX_ALERTS_PER_CHECK
    && before.all (fun run => dedupKeyOf (namedOf run) ≠ dedupKeyOf named)
    && alerts.all fun alert => alert.dedup_key ≠ dedupKeyOf named

/-- There is an alert already, or the check is in time for one. -/
def heard (s : State) (order : List TM1ProcessRun) (named : Named) : Bool :=
  s.alerts.any (about named) || inTime order s.alerts named

/-- Each run that is due is heard under exactly one of its names, or is left to the next
check. -/
def EachHeard (s : State) (e : Event) : Prop :=
  ∀ started order, e = .finish order → s.checking = some started → Arranged s.query order →
    ∀ i, due actual s i ≠ [] →
      (names actual s i).countP (heard s order) = 1 ∨
        (names actual s i).countP (heard s order) = 0 ∧ later actual s i started = true

end Asked

/-- An alert about a run has its key, and no key is there twice. -/
structure Kept (alerts : List (MonitorAlert RunEvidence)) : Prop where
  keys : (alerts.map MonitorAlert.dedup_key).Nodup
  keyed : ∀ alert ∈ alerts, ∀ named, about named alert = true → alert.dedup_key = dedupKeyOf named

section Steps

variable {s s' : State} {e : Event} {alerts : List (MonitorAlert RunEvidence)} {named : Named}
  {order : List TM1ProcessRun} {started now : Time}

/-- The alert of a run is about that run only. -/
theorem about_found {run : TM1ProcessRun} :
    about named (alertOf now (foundOf run)) = decide (namedOf run = named) := rfl

theorem Kept.insertAll {rows : List (MonitorAlert RunEvidence)} (h : Kept alerts)
    (hrows : ∀ row ∈ rows, ∀ named, about named row = true → row.dedup_key = dedupKeyOf named) :
    Kept (insertAll MonitorAlert.dedup_key alerts rows) := by
  refine ⟨nodup_insertAll h.keys, ?_⟩
  intro alert hmem
  rcases mem_or_mem_of_mem_insertAll hmem with hold | hnew
  · exact h.keyed alert hold
  · exact hrows alert hnew

theorem foundOf_keyed {run : TM1ProcessRun} (h : about named (alertOf now (foundOf run)) = true) :
    (alertOf now (foundOf run)).dedup_key = dedupKeyOf named := by
  rw [about_found, decide_eq_true_eq] at h
  rw [← h]
  rfl

/-- The alerts after a check that has its rows. -/
def afterCheck (now : Time) (order : List TM1ProcessRun) (alerts : List (MonitorAlert RunEvidence)) :
    List (MonitorAlert RunEvidence) :=
  Dedup.insertAll MonitorAlert.dedup_key alerts
    (((_check_process_failure order).take MAX_ALERTS_PER_CHECK).map (alertOf now))

theorem step_finish_iff : step s (.finish order) = some s' ↔ ∃ started,
    s.checking = some started ∧ Arranged s.query order ∧
    s' = { s with
      rule := (check_rule started s.now (.ok (_check_process_failure order, none)) s.rule
        s.alerts).1
      alerts := afterCheck s.now order s.alerts
      checking := none } := by
  simp only [step, Option.bind_eq_some_iff, check_rule_ok, raiseAll_snd, afterCheck]
  constructor
  · rintro ⟨started, hchecking, hstep⟩
    split at hstep
    · rename_i harranged
      exact ⟨started, hchecking, harranged, (Option.some.inj hstep).symm⟩
    · simp at hstep
  · rintro ⟨started, hchecking, harranged, rfl⟩
    exact ⟨started, hchecking, by rw [if_pos harranged]⟩

theorem Kept.afterCheck (h : Kept alerts) : Kept (afterCheck now order alerts) := by
  apply h.insertAll
  intro row hrow named habout
  obtain ⟨found, hfound, rfl⟩ := List.mem_map.mp hrow
  obtain ⟨run, -, rfl⟩ := List.mem_map.mp (List.mem_of_mem_take hfound)
  exact foundOf_keyed habout

theorem Kept.step (h : Kept s.alerts) (hstep : step s e = some s') : Kept s'.alerts := by
  cases e with
  | collect entries changes =>
    rw [← Option.some.inj hstep]
    exact h
  | begin =>
    simp only [process_failure.step] at hstep
    split at hstep
    · rw [← Option.some.inj hstep]
      exact h
    · simp at hstep
  | finish order =>
    obtain ⟨started, -, -, rfl⟩ := step_finish_iff.mp hstep
    exact h.afterCheck
  | fail text cls =>
    obtain ⟨started, -, hs'⟩ := Option.map_eq_some_iff.mp hstep
    have hadded := check_rule_error started s.now s.rule s.alerts text cls
    obtain ⟨-, -, -, halerts⟩ := hadded
    rw [← hs']
    dsimp only
    rcases halerts with hsame | ⟨alert, hinsert, -, errors, hevidence⟩
    · rw [hsame]
      exact h
    · -- it is about no run
      rw [hinsert]
      change Kept (Dedup.insertAll MonitorAlert.dedup_key s.alerts [alert])
      apply h.insertAll
      intro row hrow named habout
      rw [List.mem_singleton] at hrow
      rw [hrow, about, hevidence] at habout
      simp at habout
  | wait duration =>
    rw [← Option.some.inj hstep]
    exact h

/-- There is never a second alert under one name. -/
theorem Kept.countP_about (h : Kept alerts) (named : Named) : alerts.countP (about named)
    = if (alerts.find? fun alert => alert.dedup_key = dedupKeyOf named).any (about named)
      then 1 else 0 := by
  rw [List.countP_eq_length_filter]
  exact length_filter_of_key h.keys fun alert hmem => h.keyed alert hmem named

/-- An alert about a run is the one under its key. -/
theorem Kept.find_any (h : Kept alerts) :
    (alerts.find? fun alert => alert.dedup_key = dedupKeyOf named).any (about named)
      = alerts.any (about named) := by
  have hcount := h.countP_about named
  have hany : alerts.any (about named) = true ↔ 0 < alerts.countP (about named) := by
    rw [List.countP_pos_iff, List.any_eq_true]
  rw [hcount] at hany
  rw [Bool.eq_iff_iff, hany]
  split
  · simp [*]
  · simp [*]

/-- The first rows of a check under the key of a run. -/
theorem find_rows :
    ((((_check_process_failure order).take MAX_ALERTS_PER_CHECK).map (alertOf now)).find?
      fun alert => alert.dedup_key = dedupKeyOf named).any (about named)
    = ((order.take MAX_ALERTS_PER_CHECK).find?
        fun run => dedupKeyOf (namedOf run) = dedupKeyOf named).any fun run => namedOf run = named := by
  rw [_check_process_failure, ← List.map_take, List.map_map, List.find?_map, Option.any_map]
  rfl

/-- **The check leaves exactly one alert under a name that is heard, and none under
another.** -/
theorem Kept.countP_afterCheck (h : Kept s.alerts) :
    (process_failure.afterCheck now order s.alerts).countP (about named)
      = if heard s order named then 1 else 0 := by
  -- the row under the key is looked for among the alerts, and then among the first rows
  rw [h.afterCheck.countP_about, process_failure.afterCheck, find_insertAll, List.find?_append]
  have hiff : ((s.alerts.find? fun alert => alert.dedup_key = dedupKeyOf named).or
      ((((_check_process_failure order).take MAX_ALERTS_PER_CHECK).map (alertOf now)).find?
        fun alert => alert.dedup_key = dedupKeyOf named)).any (about named)
      = heard s order named := by
    rw [heard, ← h.find_any]
    rcases hfind : s.alerts.find? (fun alert => alert.dedup_key = dedupKeyOf named) with _ | alert
    · -- no alert has the key yet: the rows decide
      rw [hfind, Option.none_or, find_rows, Option.any_none, Bool.false_or, Bool.eq_iff_iff,
        any_find_take_iff (by simp +contextual)]
      have hfree : s.alerts.all (fun alert => alert.dedup_key ≠ dedupKeyOf named) = true := by
        rw [List.all_eq_true]
        intro alert hmem
        simpa using List.find?_eq_none.mp hfind alert hmem
      unfold inTime
      dsimp only
      rw [hfree, Bool.and_true]
      simp only [Bool.and_eq_true, decide_eq_true_eq,
        List.all_eq_true, decide_not, Bool.not_eq_true', decide_eq_false_iff_not, and_assoc]
    · -- the key is taken, by this run or by another
      have htaken : inTime order s.alerts named = false := by
        have hkey : alert.dedup_key = dedupKeyOf named := by simpa using List.find?_some hfind
        have hall : s.alerts.all (fun alert => alert.dedup_key ≠ dedupKeyOf named) = false := by
          rw [List.all_eq_false]
          exact ⟨alert, List.mem_of_find?_eq_some hfind, by simp [hkey]⟩
        simp only [inTime, hall, Bool.and_false]
      rw [hfind, Option.some_or, htaken, Bool.or_false]
  rw [hiff]

theorem sum_heard (names : List Named) :
    (names.map fun named => if heard s order named = true then 1 else 0).sum
      = names.countP (heard s order) := by
  induction names with
  | nil => rfl
  | cons named rest ih =>
    rw [List.map_cons, List.sum_cons, List.countP_cons, ih]
    omega

/-- **A check alerts each run once exactly when each is heard under one name.** -/
theorem Kept.alerted_iff (actual : TM1ProcessRun → ℕ) (h : Kept s.alerts) :
    Alerted actual s e ↔ EachHeard actual s e := by
  have hcount : ∀ (now : Time) (order : List TM1ProcessRun) (i : ℕ),
      ((names actual s i).map fun named =>
        (process_failure.afterCheck now order s.alerts).countP (about named)).sum
          = (names actual s i).countP (heard s order) := by
    intro now order i
    rw [← sum_heard]
    congr 1
    exact List.map_congr_left fun named _ => h.countP_afterCheck
  constructor
  · intro halerted started order he hchecking harranged i hdue
    have hstep := step_finish_iff.mpr ⟨started, hchecking, harranged, rfl⟩
    rw [he] at halerted
    have hthis := halerted _ started order rfl hchecking hstep i hdue
    dsimp only at hthis
    rwa [hcount] at hthis
  · intro hheard s' started order he hchecking hstep i hdue
    rw [he] at hstep
    obtain ⟨other, -, harranged, rfl⟩ := step_finish_iff.mp hstep
    dsimp only
    rw [hcount]
    exact hheard started order he hchecking harranged i hdue

end Steps

/-- **No run is lost and none is alerted twice exactly when each check, for each run that is
due, is in time under exactly one of its names, or has an alert already.** -/
theorem failures_alerted_iff (actual : TM1ProcessRun → ℕ) (runs : List TM1ProcessRun)
    (process_name : Option String) (name : String) (now : Time) (events : List Event) :
    Along step (Alerted actual) (State.start runs process_name name now) events ↔
      Along step (EachHeard actual) (State.start runs process_name name now) events := by
  have hstart : Kept (State.start runs process_name name now).alerts :=
    ⟨List.nodup_nil, fun _ hmem => absurd hmem List.not_mem_nil⟩
  constructor
  · exact along_of_invariant (I := fun s => Kept s.alerts) (fun _ _ _ h _ hstep => h.step hstep)
      (fun _ _ h halerted => (h.alerted_iff actual).mp halerted) hstart
  · exact along_of_invariant (I := fun s => Kept s.alerts) (fun _ _ _ h _ hstep => h.step hstep)
      (fun _ _ h hheard => (h.alerted_iff actual).mpr hheard) hstart

/-- A run that was started at 24 and failed after 50. Its row has the instant at which it was
started. -/
def longRun : TM1Change where
  id := 0
  connection_id := 0
  organization_id := 0
  created_by := 0
  created_at := 0
  change_type := .run_process
  target_name := "Load"
  new_content := none
  status := .failed
  executed_at := some 24
  execution_result := some (.run ⟨false, "Aborted", none, "ExecuteWithReturn", none, none⟩)

/-- It was checked while the run went on, and is checked again when its row is there. -/
def checkedTwice : List Event :=
  [.wait 50, .begin, .finish [], .wait 20, .collect [] [longRun], .begin]

theorem checkedTwice_lost : ∃ s s', run step (State.start [] none "runs" 0) checkedTwice = some s ∧
    step s (.finish []) = some s' ∧
    due (fun run => run.finished_at) s 24 = [⟨"Load", 24, "aborted", "pa_copilot"⟩] ∧
    later (fun run => run.finished_at) s 24 70 = false ∧ s'.alerts = [] := by
  refine ⟨_, _, rfl, rfl, ?_⟩
  decide +kernel

end PaCopilot.monitoring_rules.process_failure
