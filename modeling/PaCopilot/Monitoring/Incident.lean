/-
The evidence of an incident, `gather` of `services/incident_service.py`: what was changed, run
or extracted near the cube or the process that was reported.

A change is joined to the dependency map by the name of its target, as it was drafted, a run
by that in the log, both text for text. The map is that of now, so a process that a change has
deleted writes nothing any more. And the extractions are asked for by a status that no row
has. [`complete_iff`] says what is left.
-/
import PaCopilot.Monitoring.Neighbourhood
import PaCopilot.Monitoring.Runs
import PaCopilot.Metadata.History
import PaCopilot.Metadata.InStep
import PaCopilot.Lib.Run

set_option autoImplicit false

namespace PaCopilot.incident_service

open metadata performance Dedup Run

/-! ## Suspects -/

inductive SuspectKind
  | run
  | change
  | change_unknown
  | change_failed
  | run_failed
  | slow_run
  | model_change
  | alert
  | rules
  deriving DecidableEq

structure Mitigation where
  action : String
  label : String
  deriving DecidableEq

/-- What a suspect points at. -/
inductive Evidence
  | change (change_id : ℕ)
  | run (process outcome : String)
  | regression (process : String)
  | extraction (extraction_id : ℕ)
  | alert (alert_id : ℕ)
  | rules (critical_findings : List String)
  deriving DecidableEq

structure Suspect where
  score : ℕ
  kind : SuspectKind
  title : String
  detail : Option String
  instant : Option ℕ
  mitigation : Mitigation
  evidence : Evidence
  deriving DecidableEq

/-- `change_type in ("update_rules", "write_cells")`. -/
def ofCube (change_type : ChangeType) : Bool :=
  change_type = .update_rules || change_type = .write_cells

/-- `change_type.endswith("_process")`. -/
def ofProcess (change_type : ChangeType) : Bool :=
  change_type = .create_process || change_type = .update_process || change_type = .delete_process
    || change_type = .run_process

/-- `{cube}`. -/
def cubeText (report : Report) : String := report.cube.getD "None"

/-- An open alert of the server. -/
structure OpenAlert where
  id : ℕ
  title : String
  detail : Option String
  fired_at : ℕ
  deriving DecidableEq

/-- What is asked for besides: the names of users, the processes that `performance.report`
finds slow with what it says of them, the alerts, and the critical findings in the rules. -/
structure Elsewhere where
  names : ℕ → Option String
  regressions : List (String × String)
  alerts : List OpenAlert
  critical_findings : List String

section Gather

variable (area : Area) (report : Report) (elsewhere : Elsewhere)

/-- `cubes`. -/
def involved (name : String) : Bool := name ∈ area.cubes || name ∈ area.rule_sources

/-- `writers`: with the reported process. -/
def suspected (name : String) : Bool :=
  area.writers.any (fun entry => name ∈ entry.2) || report.process = some name

/-- What is made of a change. -/
def changeSuspect (c : TM1Change) : Option Suspect :=
  -- the target as it was drafted, against the names of the map
  let on_cube := ofCube c.change_type && involved area c.target_name
  let on_writer := ofProcess c.change_type && suspected area report c.target_name
  let who := ((c.executed_by.bind elsewhere.names).filter (· ≠ "")).getD "someone"
  let what := s!"{Python.spaced c.change_type.text} on {c.target_name}"
  let cubes := ", ".intercalate area.cubes
  if on_cube || on_writer then
    match c.status with
    | .executed =>
      if c.change_type = .run_process then
        some {
          score := 60
          kind := .run
          title := s!"{c.target_name} was run through PA-Copilot"
          detail := some s!"Run approved by {who}; a run writes data and cannot be rolled back."
          instant := c.executed_at
          mitigation := ⟨"review", "Check what the run wrote; reverse it with another process if needed"⟩
          evidence := .change c.id }
      else
        some {
          score := if c.change_type = .update_rules then 90
            else if c.change_type = .write_cells then 85 else 80
          kind := .change
          title := s!"Applied: {what}"
          detail := some (s!"Applied by {who}" ++ if c.target_name ∈ area.rule_sources then
            s!"; {c.target_name} is read by the rules of {cubes}" else "")
          instant := c.executed_at
          mitigation := ⟨"rollback", s!"Roll back this change ({what})"⟩
          evidence := .change c.id }
    | .unknown =>
      some {
        score := 88
        kind := .change_unknown
        title := s!"Outcome unknown: {what}"
        detail := c.error_message
        instant := c.executed_at
        mitigation := ⟨"review", "Check the object on the server; the change may have applied"⟩
        evidence := .change c.id }
    | .failed =>
      some {
        score := 70
        kind := .change_failed
        title := s!"Failed: {what}"
        detail := c.error_message
        instant := c.executed_at
        mitigation := ⟨"review", "Open the failed change"⟩
        evidence := .change c.id }
    | .draft | .rejected | .superseded | .rolled_back => none
  else none

/-- The last run of a process. -/
def latestOf (runs : List TM1ProcessRun) (name : String) : Option TM1ProcessRun :=
  (runs.filter fun run => run.process_name = name).getLast?

/-- What is made of the last run of a process. -/
def runSuspect (run : TM1ProcessRun) : Option Suspect :=
  if run.outcome = "succeeded" then none
  else
    let written := (area.writers.filter fun entry => run.process_name ∈ entry.2).map Prod.fst
    let cubes := if written = [] then "the reported cube" else ", ".intercalate written
    some {
      score := 75
      kind := .run_failed
      title := s!"{run.process_name} last ended '{Python.spaced run.outcome}'"
      detail := some (s!"At {Python.formatDate run.finished_at} "
        ++ s!"{Python.formatMinute run.finished_at} UTC; it writes {cubes}.")
      instant := some run.finished_at
      mitigation := ⟨"diagnose", s!"Diagnose {run.process_name}, fix it, then draft a re-run"⟩
      evidence := .run run.process_name run.outcome }

/-- What is made of an extraction. -/
def extractionSuspect (extraction : TM1Extraction) : Option Suspect := do
  let changes ← extraction.changes
  let near := fun k : Key =>
    involved area k.2 || suspected area report k.2 || decide (k.1 = "dimension")
  let touched := ((changes.objects_added.filter near).map fun k => s!"added {k.1} {k.2}")
    ++ (changes.objects_removed.filter near).map fun k => s!"removed {k.1} {k.2}"
  if changes.first || touched = [] then none
  else
    some {
      score := 50
      kind := .model_change
      title := "The model changed near it"
      detail := some ("; ".intercalate (touched.take 8))
      instant := some extraction.finished_at
      mitigation := ⟨"review", "Review the model changes on the Metadata page"⟩
      evidence := .extraction extraction.id }

/-- The suspects that do not come from a change, a run or an extraction. -/
def otherSuspects : List Suspect :=
  ((elsewhere.regressions.filter fun entry => suspected area report entry.1).map fun entry =>
    { score := 40
      kind := .slow_run
      title := s!"{entry.1} ran unusually long"
      detail := some entry.2
      instant := none
      mitigation := ⟨"review", "Check whether it finished its load"⟩
      evidence := .regression entry.1 })
  ++ (elsewhere.alerts.map fun alert =>
    { score := 45
      kind := .alert
      title := s!"Open alert: {alert.title}"
      detail := alert.detail
      instant := some alert.fired_at
      mitigation := ⟨"review", "Open it on the Alerts page"⟩
      evidence := .alert alert.id })
  ++ if elsewhere.critical_findings = [] then []
    else [{
      score := 30
      kind := .rules
      title := s!"Rules of {cubeText report} have critical findings"
      detail := some ("; ".intercalate (elsewhere.critical_findings.take 5))
      instant := none
      mitigation := ⟨"review", s!"Ask the assistant to analyse the rules of {cubeText report}"⟩
      evidence := .rules (elsewhere.critical_findings.take 5) }]

end Gather

/-- `TM1Change.executed_at >= since or TM1Change.rolled_back_at >= since`. -/
def inWindow (since : ℕ) (c : TM1Change) : Bool :=
  c.executed_at.any (since ≤ ·) || c.rolled_back_at.any (since ≤ ·)

/-- `gather`, up to the order of the suspects and their cap: from the rows of the connection,
the runs of the window in the order of their query. -/
def gather (g : Graph) (report : Report) (since : ℕ) (changes : List TM1Change)
    (runs : List TM1ProcessRun) (extractions : List TM1Extraction) (elsewhere : Elsewhere) :
    List Suspect :=
  let area := _neighbourhood g report
  let runs := runs.filter fun run => suspected area report run.process_name
  let latest := (insertAll id [] (runs.map TM1ProcessRun.process_name)).filterMap (latestOf runs)
  -- not the status that `run_extraction` stores
  let asked := extractions.filter fun extraction =>
    extraction.status = "success" && since ≤ extraction.finished_at
  (changes.filter (inWindow since)).filterMap (changeSuspect area report elsewhere)
    ++ latest.filterMap (runSuspect area)
    ++ asked.filterMap (extractionSuspect area report)
    ++ otherSuspects area report elsewhere

/-! ## What the suspects are about -/

section Suspects

variable {g : Graph} {report : Report} {since : ℕ} {changes : List TM1Change}
  {runs : List TM1ProcessRun} {extractions : List TM1Extraction} {elsewhere : Elsewhere}
  {area : Area} {x : Suspect} {c : TM1Change} {name : String}

/-- It was carried out, or failed, or nobody knows. -/
def settled (c : TM1Change) : Bool :=
  c.status = .executed || c.status = .failed || c.status = .unknown

theorem involved_iff : involved (_neighbourhood g report) name = true ↔
    Involved id g report name := by
  rw [involved, Bool.or_eq_true, decide_eq_true_eq, decide_eq_true_eq]
  exact mem_area_cubes

theorem suspected_iff : suspected (_neighbourhood g report) report name = true ↔
    Writes id g report name ∨ report.process = some name := by
  rw [suspected, Bool.or_eq_true, List.any_eq_true, decide_eq_true_eq, ← mem_area_writers]
  simp only [decide_eq_true_eq]

/-- A suspect is made of a change that is settled and about something of the area. -/
theorem changeSuspect_isSome : (changeSuspect area report elsewhere c).isSome = true ↔
    settled c = true ∧ (ofCube c.change_type = true ∧ involved area c.target_name = true ∨
      ofProcess c.change_type = true ∧ suspected area report c.target_name = true) := by
  unfold changeSuspect settled
  dsimp only
  split
  · rename_i harea
    rw [Bool.or_eq_true, Bool.and_eq_true, Bool.and_eq_true] at harea
    simp only [harea, and_true]
    rcases c.status <;> simp
    split <;> rfl
  · rename_i harea
    rw [Bool.or_eq_true, Bool.and_eq_true, Bool.and_eq_true] at harea
    simp [harea]

theorem changeSuspect_evidence (h : changeSuspect area report elsewhere c = some x) :
    x.evidence = .change c.id := by
  unfold changeSuspect at h
  dsimp only at h
  split at h
  · rcases hstatus : c.status <;> simp only [hstatus] at h
    all_goals grind
  · simp at h

theorem runSuspect_evidence {run : TM1ProcessRun} (h : runSuspect area run = some x) :
    x.evidence = .run run.process_name run.outcome ∧ run.outcome ≠ "succeeded" := by
  unfold runSuspect at h
  split at h
  · simp at h
  · rename_i hfailed
    rw [← Option.some.inj h]
    exact ⟨rfl, hfailed⟩

theorem extractionSuspect_evidence {extraction : TM1Extraction}
    (h : extractionSuspect area report extraction = some x) :
    x.evidence = .extraction extraction.id := by
  unfold extractionSuspect at h
  rcases hchanges : extraction.changes with _ | diff
  · simp [hchanges] at h
  · simp only [hchanges, Option.bind_eq_bind, Option.bind_some] at h
    split at h
    · simp at h
    · rw [← Option.some.inj h]

/-- The other suspects are about something else. -/
theorem otherSuspects_evidence (h : x ∈ otherSuspects area report elsewhere) :
    (∀ i, x.evidence ≠ .change i) ∧ (∀ p o, x.evidence ≠ .run p o) ∧
      ∀ i, x.evidence ≠ .extraction i := by
  unfold otherSuspects at h
  rw [List.mem_append, List.mem_append, List.mem_map, List.mem_map] at h
  rcases h with (⟨entry, -, rfl⟩ | ⟨alert, -, rfl⟩) | hrules
  · simp
  · simp
  · split at hrules
    · simp at hrules
    · rw [List.mem_singleton] at hrules
      rw [hrules]
      simp

theorem latestOf_mem {run : TM1ProcessRun} (h : latestOf runs name = some run) :
    run ∈ runs ∧ run.process_name = name := by
  have hmem := List.mem_of_getLast? h
  rwa [List.mem_filter, decide_eq_true_eq] at hmem

/-- The runs of other processes make no difference to the last one. -/
theorem latestOf_filter {p : String → Bool} :
    latestOf (runs.filter fun run => p run.process_name) name
      = if p name = true then latestOf runs name else none := by
  unfold latestOf
  rw [List.filter_filter]
  split
  · rename_i hp
    congr 1
    apply List.filter_congr
    intro run _
    -- a run under this name passes the filter
    by_cases hname : run.process_name = name
    · simp [hname, hp]
    · simp [hname]
  · rename_i hp
    have hnone : (runs.filter fun run => decide (run.process_name = name) && p run.process_name) = [] := by
      rw [List.filter_eq_nil_iff]
      intro run _ hboth
      rw [Bool.and_eq_true, decide_eq_true_eq] at hboth
      exact hp (hboth.1 ▸ hboth.2)
    rw [hnone]
    rfl

/-- `latest.values()`. -/
theorem mem_latest {run : TM1ProcessRun} :
    run ∈ (insertAll id [] (runs.map TM1ProcessRun.process_name)).filterMap (latestOf runs) ↔
      ∃ name, latestOf runs name = some run := by
  rw [List.mem_filterMap]
  constructor
  · rintro ⟨name, -, hlatest⟩
    exact ⟨name, hlatest⟩
  · rintro ⟨name, hlatest⟩
    refine ⟨name, ?_, hlatest⟩
    obtain ⟨hmem, hname⟩ := latestOf_mem hlatest
    exact mem_insertAll_id (List.mem_map.mpr ⟨run, hmem, hname⟩)

/-- A suspect comes from a change, from a last run, from an extraction, or from elsewhere. -/
theorem mem_gather : x ∈ gather g report since changes runs extractions elsewhere ↔
    (∃ c ∈ changes, inWindow since c = true ∧
      changeSuspect (_neighbourhood g report) report elsewhere c = some x) ∨
    (∃ name, suspected (_neighbourhood g report) report name = true ∧ ∃ run,
      latestOf runs name = some run ∧ runSuspect (_neighbourhood g report) run = some x) ∨
    (∃ extraction ∈ extractions, extraction.status = "success" ∧ since ≤ extraction.finished_at ∧
      extractionSuspect (_neighbourhood g report) report extraction = some x) ∨
    x ∈ otherSuspects (_neighbourhood g report) report elsewhere := by
  have hruns : (∃ run, (∃ name, latestOf (runs.filter fun run =>
        suspected (_neighbourhood g report) report run.process_name) name = some run) ∧
        runSuspect (_neighbourhood g report) run = some x) ↔
      ∃ name, suspected (_neighbourhood g report) report name = true ∧ ∃ run,
        latestOf runs name = some run ∧ runSuspect (_neighbourhood g report) run = some x := by
    simp only [latestOf_filter (p := suspected (_neighbourhood g report) report)]
    constructor
    · rintro ⟨run, ⟨name, hlatest⟩, hx⟩
      split at hlatest
      · rename_i hname
        exact ⟨name, hname, run, hlatest, hx⟩
      · simp at hlatest
    · rintro ⟨name, hname, run, hlatest, hx⟩
      exact ⟨run, ⟨name, by rwa [if_pos hname]⟩, hx⟩
  unfold gather
  dsimp only
  rw [List.mem_append, List.mem_append, List.mem_append, List.mem_filterMap, List.mem_filterMap,
    List.mem_filterMap, ← hruns]
  simp only [mem_latest, List.mem_filter, Bool.and_eq_true, decide_eq_true_eq, and_assoc, or_assoc]

/-- What a suspect points at tells where it comes from. -/
theorem evidence_of_mem (hx : x ∈ gather g report since changes runs extractions elsewhere) :
    (∃ c ∈ changes, inWindow since c = true ∧
      (changeSuspect (_neighbourhood g report) report elsewhere c).isSome = true ∧
      x.evidence = .change c.id) ∨
    (∃ name, suspected (_neighbourhood g report) report name = true ∧ ∃ run,
      latestOf runs name = some run ∧ run.outcome ≠ "succeeded" ∧
      x.evidence = .run name run.outcome) ∨
    (∃ extraction ∈ extractions, extraction.status = "success" ∧
      x.evidence = .extraction extraction.id) ∨
    (∀ i, x.evidence ≠ .change i) ∧ (∀ p o, x.evidence ≠ .run p o) ∧
      ∀ i, x.evidence ≠ .extraction i := by
  rcases mem_gather.mp hx with ⟨c, hc, hwindow, hsome⟩ | ⟨name, hname, run, hlatest, hsome⟩ |
    ⟨extraction, hmem, hsuccess, -, hsome⟩ | hother
  · exact .inl ⟨c, hc, hwindow, Option.isSome_iff_exists.mpr ⟨x, hsome⟩, changeSuspect_evidence hsome⟩
  · obtain ⟨hevidence, hfailed⟩ := runSuspect_evidence hsome
    rw [(latestOf_mem hlatest).2] at hevidence
    exact .inr (.inl ⟨name, hname, run, hlatest, hfailed, hevidence⟩)
  · exact .inr (.inr (.inl ⟨extraction, hmem, hsuccess, extractionSuspect_evidence hsome⟩))
  · exact .inr (.inr (.inr (otherSuspects_evidence hother)))

theorem exists_change_iff {i : ℕ} :
    (∃ x ∈ gather g report since changes runs extractions elsewhere, x.evidence = .change i) ↔
      ∃ c ∈ changes, inWindow since c = true ∧ c.id = i ∧ settled c = true ∧
        (ofCube c.change_type = true ∧ Involved id g report c.target_name ∨
          ofProcess c.change_type = true ∧
            (Writes id g report c.target_name ∨ report.process = some c.target_name)) := by
  simp only [← involved_iff, ← suspected_iff]
  constructor
  · rintro ⟨x, hx, hevidence⟩
    have hfrom := evidence_of_mem hx
    simp only [hevidence] at hfrom
    rcases hfrom with ⟨c, hc, hwindow, hmade, hid⟩ | ⟨_, -, _, -, -, hrun⟩ | ⟨_, -, -, hextraction⟩ |
      hother
    · rw [Evidence.change.injEq] at hid
      exact ⟨c, hc, hwindow, hid.symm, changeSuspect_isSome.mp hmade⟩
    · simp at hrun
    · simp at hextraction
    · exact absurd rfl (hother.1 i)
  · rintro ⟨c, hc, hwindow, hid, hdue⟩
    have hmade : (changeSuspect (_neighbourhood g report) report elsewhere c).isSome = true :=
      changeSuspect_isSome.mpr hdue
    obtain ⟨x, hsome⟩ := Option.isSome_iff_exists.mp hmade
    refine ⟨x, mem_gather.mpr (.inl ⟨c, hc, hwindow, hsome⟩), ?_⟩
    rw [changeSuspect_evidence hsome, hid]

theorem exists_run_iff {process : String} :
    (∃ x ∈ gather g report since changes runs extractions elsewhere,
      ∃ outcome, x.evidence = .run process outcome) ↔
      (Writes id g report process ∨ report.process = some process) ∧
        (latestOf runs process).any (fun run => run.outcome ≠ "succeeded") = true := by
  rw [← suspected_iff, Option.any_eq_true]
  constructor
  · rintro ⟨x, hx, outcome, hevidence⟩
    have hfrom := evidence_of_mem hx
    simp only [hevidence] at hfrom
    rcases hfrom with ⟨_, -, -, -, hchange⟩ | ⟨name, hname, run, hlatest, hfailed, hrun⟩ |
      ⟨_, -, -, hextraction⟩ | hother
    · simp at hchange
    · rw [Evidence.run.injEq] at hrun
      rw [hrun.1]
      exact ⟨hname, run, hlatest, by simpa using hfailed⟩
    · simp at hextraction
    · exact absurd rfl (hother.2.1 process outcome)
  · rintro ⟨hname, run, hlatest, hfailed⟩
    rw [decide_eq_true_eq] at hfailed
    obtain ⟨x, hsome⟩ : ∃ x, runSuspect (_neighbourhood g report) run = some x := by
      unfold runSuspect
      rw [if_neg hfailed]
      exact ⟨_, rfl⟩
    refine ⟨x, mem_gather.mpr (.inr (.inl ⟨process, hname, run, hlatest, hsome⟩)), run.outcome, ?_⟩
    rw [(runSuspect_evidence hsome).1, (latestOf_mem hlatest).2]

/-- No extraction is ever found. -/
theorem no_extraction (mapping : Mapping) {i : ℕ}
    (hx : x ∈ gather g report since changes runs mapping.extractions elsewhere) :
    x.evidence ≠ .extraction i := by
  intro hevidence
  have hfrom := evidence_of_mem hx
  simp only [hevidence] at hfrom
  rcases hfrom with ⟨_, -, -, -, hchange⟩ | ⟨_, -, _, -, -, hrun⟩ | ⟨_, hmem, hsuccess, -⟩ | hother
  · simp at hchange
  · simp at hrun
  · exact mapping.status_ne_success hmem hsuccess
  · exact absurd rfl (hother.2.2 i)

end Suspects

/-! ## A server over time -/

/-- A change that was carried out, and the map before it. -/
structure Recorded where
  change : TM1Change
  before : Graph

/-- The map of a connection, its changes and its runs. -/
structure State where
  now : ℕ
  mapping : Mapping := Mapping.empty
  changes : List Recorded := []
  runs : List TM1ProcessRun := []

inductive Event
  /-- A change was carried out, with what it came to. `get_process` is what TM1 answers when
  the map is refreshed. -/
  | change (c : TM1Change) (get_process : String → Option ProcessInfo)
  | rollback (change_id : ℕ) (get_process : String → Option ProcessInfo)
  | extract (after : Graph) (started_at finished_at : ℕ)
  | extractionFails (error : String) (started_at finished_at : ℕ)
  | collect (entries : List LogEntry)
  | wait (duration : ℕ)
  /-- An incident is investigated. The runs of the window come in this order. -/
  | gather (report : Report) (window_hours : ℕ) (runs : List TM1ProcessRun) (elsewhere : Elsewhere)

def MAX_WINDOW_HOURS : ℕ := 24 * 30

/-- `_now() - timedelta(hours=window_hours)`. -/
def State.since (s : State) (window_hours : ℕ) : ℕ :=
  s.now - max 1 (min window_hours MAX_WINDOW_HOURS) * 3600000000

/-- The runs of the window, by the instant they finished at. -/
def Arranged (s : State) (since : ℕ) (runs : List TM1ProcessRun) : Prop :=
  runs.Perm (s.runs.filter fun run => since ≤ run.finished_at) ∧
    runs.Pairwise fun a b => a.finished_at ≤ b.finished_at

instance (s : State) (since : ℕ) (runs : List TM1ProcessRun) : Decidable (Arranged s since runs) :=
  inferInstanceAs (Decidable (runs.Perm (s.runs.filter fun run => since ≤ run.finished_at) ∧
    runs.Pairwise fun a b => a.finished_at ≤ b.finished_at))

variable (rd : Reader) (organization_id : ℕ)

/-- The map after a process change. -/
def State.refreshed (s : State) (get_process : String → Option ProcessInfo) (c : TM1Change)
    (deleted : Bool) : Mapping :=
  s.mapping.refresh (_refresh_graph rd organization_id get_process c.change_type c.target_name
    deleted s.mapping.graph)

def step (s : State) : Event → Option State
  | .change c get_process =>
    -- a change is recorded with the graph of its time
    if settled c ∧ c.id ∉ s.changes.map fun r => r.change.id then
      some { s with
        mapping := if c.status = .executed then
            s.refreshed rd organization_id get_process c (c.change_type = .delete_process)
          else s.mapping
        changes := s.changes ++ [⟨c, s.mapping.graph⟩] }
    else none
  | .rollback change_id get_process =>
    (s.changes.find? fun r => r.change.id = change_id ∧ r.change.status = .executed).map fun r =>
      { s with
        mapping := s.refreshed rd organization_id get_process r.change
          (r.change.change_type = .create_process)
        changes := s.changes.map fun r =>
          if r.change.id = change_id then
            { r with change := { r.change with status := .rolled_back, rolled_back_at := some s.now } }
          else r }
  | .extract after started_at finished_at =>
    (s.mapping.extract s.now after started_at finished_at).map fun mapping =>
      { s with mapping := mapping }
  | .extractionFails error started_at finished_at =>
    (s.mapping.fail s.now error started_at finished_at).map fun mapping =>
      { s with mapping := mapping }
  | .collect entries =>
    some { s with runs := collect_runs entries (s.changes.map Recorded.change) s.runs }
  | .wait duration => some { s with now := s.now + duration }
  | .gather _ window_hours runs _ =>
    -- the rows come in an order that the query leaves open
    if Arranged s (s.since window_hours) runs then some s else none

/-! ## What is asked -/

/-- A rule or cell change on a cube that is involved. -/
def OnCube (key : String → String) (g : Graph) (report : Report) (c : TM1Change) : Prop :=
  ofCube c.change_type = true ∧ Involved key g report c.target_name

/-- A change of a process that writes one. -/
def OnWriter (key : String → String) (g : Graph) (report : Report) (c : TM1Change) : Prop :=
  ofProcess c.change_type = true ∧ Writes key g report c.target_name

/-- The last of the runs that have the name did not succeed. -/
def lastFailed (runs : List TM1ProcessRun) (named : String → Bool) : Bool :=
  (runs.filter fun run => named run.process_name).getLast?.any fun run => run.outcome ≠ "succeeded"

/-- An object of the map that is involved: a cube, or a process that writes one. -/
def Near (key : String → String) (g : Graph) (report : Report) (k : Key) : Prop :=
  k.1 = "cube" ∧ Involved key g report k.2 ∨ k.1 = "process" ∧ Writes key g report k.2

variable (s : State) (report : Report) (since : ℕ) (runs : List TM1ProcessRun)

/-- The change is evidence: as the map is, or as it was before the change. -/
def ChangeDue (r : Recorded) : Prop :=
  settled r.change = true ∧ inWindow since r.change = true ∧
    (OnCube rd.key s.mapping.graph report r.change ∨ OnWriter rd.key s.mapping.graph report r.change ∨
      OnWriter rd.key r.before report r.change)

/-- The last run of the writer is evidence. -/
def RunDue (writer : String) : Prop :=
  Writes rd.key s.mapping.graph report writer ∧
    lastFailed runs (fun name => rd.key name = rd.key writer) = true

/-- The extraction is evidence: an object was added or removed that is involved, as the map is
or as it was before. -/
def ExtractionDue (x : Extracted) : Prop :=
  since ≤ x.row.finished_at ∧ x.earlier = true ∧
    ∃ k, (k ∈ only (graph_keys x.after).objects (graph_keys x.before).objects ∨
        k ∈ only (graph_keys x.before).objects (graph_keys x.after).objects) ∧
      (Near rd.key s.mapping.graph report k ∨ Near rd.key x.before report k)

/-- All the evidence is among the suspects. -/
structure Complete (suspects : List Suspect) : Prop where
  changes : ∀ r ∈ s.changes, ChangeDue rd s report since r →
    ∃ x ∈ suspects, x.evidence = .change r.change.id
  runs : ∀ writer, RunDue rd s report runs writer →
    ∃ x ∈ suspects, ∃ process outcome, x.evidence = .run process outcome ∧
      rd.key process = rd.key writer
  extractions : ∀ x ∈ s.mapping.succeeded, ExtractionDue rd s report since x →
    ∃ y ∈ suspects, y.evidence = .extraction x.row.id

/-- The evidence is under the names that the map of now has, and there is none from
extractions. -/
structure Spelled : Prop where
  changes : ∀ r ∈ s.changes, ChangeDue rd s report since r →
    OnCube id s.mapping.graph report r.change ∨ OnWriter id s.mapping.graph report r.change ∨
      ofProcess r.change.change_type = true ∧ report.process = some r.change.target_name
  runs : ∀ writer, RunDue rd s report runs writer → ∃ process, rd.key process = rd.key writer ∧
    (Writes id s.mapping.graph report process ∨ report.process = some process) ∧
      lastFailed runs (fun name => name = process) = true
  extractions : ∀ x ∈ s.mapping.succeeded, ¬ ExtractionDue rd s report since x

/-- What an investigation finds is complete. -/
def Evident (s : State) (e : Event) : Prop :=
  ∀ s' report window_hours runs elsewhere, e = .gather report window_hours runs elsewhere →
    step rd organization_id s e = some s' →
      Complete rd s report (s.since window_hours) runs
        (gather s.mapping.graph report (s.since window_hours) (s.changes.map Recorded.change) runs
          s.mapping.extractions elsewhere)

/-- An investigation meets only what is under its name in the map. -/
def AllSpelled (s : State) (e : Event) : Prop :=
  ∀ report window_hours runs elsewhere, e = .gather report window_hours runs elsewhere →
    Arranged s (s.since window_hours) runs → Spelled rd s report (s.since window_hours) runs

/-! ## When it is complete -/

section Complete

variable {rd : Reader} {organization_id : ℕ} {s s' : State} {report : Report} {since : ℕ}
  {runs : List TM1ProcessRun} {elsewhere : Elsewhere} {e : Event}

/-- No two changes have one identifier. -/
def Distinct (s : State) : Prop := (s.changes.map fun r => r.change.id).Nodup

theorem Distinct.step (h : Distinct s) (hstep : step rd organization_id s e = some s') :
    Distinct s' := by
  cases e with
  | change c get_process =>
    simp only [incident_service.step] at hstep
    split at hstep
    · rename_i hnew
      rw [← Option.some.inj hstep, Distinct, List.map_append, List.nodup_append]
      refine ⟨h, List.nodup_singleton _, ?_⟩
      intro a ha b hb heq
      rw [List.map_singleton, List.mem_singleton] at hb
      rw [heq, hb] at ha
      exact hnew.2 ha
    · simp at hstep
  -- only a change adds a row; a rollback marks one that is there
  | rollback change_id get_process =>
    obtain ⟨r, -, hs'⟩ := Option.map_eq_some_iff.mp hstep
    have hids : (s'.changes.map fun r => r.change.id) = s.changes.map fun r => r.change.id := by
      rw [← hs', List.map_map]
      apply List.map_congr_left
      intro r _
      rw [Function.comp_apply]
      split <;> rfl
    rw [Distinct, hids]
    exact h
  | extract after started_at finished_at =>
    obtain ⟨mapping, -, hs'⟩ := Option.map_eq_some_iff.mp hstep
    rw [← hs']
    exact h
  | extractionFails error started_at finished_at =>
    obtain ⟨mapping, -, hs'⟩ := Option.map_eq_some_iff.mp hstep
    rw [← hs']
    exact h
  | collect entries =>
    rw [← Option.some.inj hstep]
    exact h
  | wait duration =>
    rw [← Option.some.inj hstep]
    exact h
  | gather report window_hours runs elsewhere =>
    simp only [incident_service.step] at hstep
    split at hstep
    · rw [← Option.some.inj hstep]
      exact h
    · simp at hstep

/-- **The suspects are complete exactly when the evidence is under the names that the map has
now, and none of it is an extraction.** -/
theorem Distinct.complete_iff (h : Distinct s) :
    Complete rd s report since runs (gather s.mapping.graph report since
      (s.changes.map Recorded.change) runs s.mapping.extractions elsewhere) ↔
        Spelled rd s report since runs := by
  have hchange : ∀ r ∈ s.changes, inWindow since r.change = true → settled r.change = true →
      ((∃ x ∈ gather s.mapping.graph report since (s.changes.map Recorded.change) runs
          s.mapping.extractions elsewhere, x.evidence = .change r.change.id) ↔
        OnCube id s.mapping.graph report r.change ∨ OnWriter id s.mapping.graph report r.change ∨
          ofProcess r.change.change_type = true ∧ report.process = some r.change.target_name) := by
    intro r hr hwindow hsettled
    rw [exists_change_iff, OnCube, OnWriter, ← and_or_left]
    constructor
    · rintro ⟨c, hc, -, hid, -, hon⟩
      obtain ⟨r', hr', rfl⟩ := List.mem_map.mp hc
      rwa [List.inj_on_of_nodup_map h hr' hr hid] at hon
    · intro hon
      exact ⟨r.change, List.mem_map_of_mem hr, hwindow, rfl, hsettled, hon⟩
  constructor
  · intro hcomplete
    refine ⟨?_, ?_, ?_⟩
    · intro r hr hdue
      exact (hchange r hr hdue.2.1 hdue.1).mp (hcomplete.changes r hr hdue)
    · intro writer hdue
      obtain ⟨x, hx, process, outcome, hevidence, hkey⟩ := hcomplete.runs writer hdue
      exact ⟨process, hkey, exists_run_iff.mp ⟨x, hx, outcome, hevidence⟩⟩
    · intro x hx hdue
      obtain ⟨y, hy, hevidence⟩ := hcomplete.extractions x hx hdue
      exact no_extraction s.mapping hy hevidence
  · -- what is spelled as in the map is found, and nothing is asked of extractions
    intro hspelled
    refine ⟨?_, ?_, ?_⟩
    · intro r hr hdue
      exact (hchange r hr hdue.2.1 hdue.1).mpr (hspelled.changes r hr hdue)
    · intro writer hdue
      obtain ⟨process, hkey, hfound⟩ := hspelled.runs writer hdue
      obtain ⟨x, hx, outcome, hevidence⟩ := exists_run_iff.mpr hfound
      exact ⟨x, hx, process, outcome, hevidence, hkey⟩
    · intro x hx hdue
      exact absurd hdue (hspelled.extractions x hx)

theorem Distinct.evident_iff (h : Distinct s) :
    Evident rd organization_id s e ↔ AllSpelled rd s e := by
  constructor
  · intro hevident report window_hours runs elsewhere he harranged
    have hstep : incident_service.step rd organization_id s e = some s := by
      rw [he, incident_service.step, if_pos harranged]
    exact h.complete_iff.mp (hevident s report window_hours runs elsewhere he hstep)
  · intro hspelled s' report window_hours runs elsewhere he hstep
    apply h.complete_iff.mpr
    apply hspelled report window_hours runs elsewhere he
    by_contra harranged
    rw [he, incident_service.step, if_neg harranged] at hstep
    simp at hstep

end Complete

/-- **Every investigation is complete exactly when each meets only changes and runs under the
names that the map of its moment has, and no extraction that is evidence.** -/
theorem evidence_complete_iff (now : ℕ) (events : List Event) :
    Along (step rd organization_id) (Evident rd organization_id) { now := now } events ↔
      Along (step rd organization_id) (AllSpelled rd) { now := now } events := by
  have hstart : Distinct { now := now } := List.nodup_nil
  constructor
  · exact along_of_invariant (fun _ _ _ h _ hstep => h.step hstep)
      (fun _ _ h hevident => h.evident_iff.mp hevident) hstart
  · exact along_of_invariant (fun _ _ _ h _ hstep => h.step hstep)
      (fun _ _ h hspelled => h.evident_iff.mpr hspelled) hstart

/-- The process Load writes the cube Sales. -/
def loadWrites : Graph :=
  ((Graph.empty.add_object 1 ("process", "Load")).add_object 1 ("cube", "Sales")).add_relationship
    ("process", "Load") ("cube", "Sales") "updates_cube"

/-- Load is deleted. -/
def loadDeleted : TM1Change where
  id := 0
  connection_id := 1
  organization_id := 1
  created_by := 1
  created_at := 20
  change_type := .delete_process
  target_name := "Load"
  new_content := none
  status := .executed
  executed_at := some 30

/-- The map is extracted, and its only writer of Sales deleted. -/
def writerGone : List Event :=
  [.wait 10, .extract loadWrites 5 10, .wait 20, .change loadDeleted fun _ => none]

theorem writerGone_unseen : ∃ s r, run (step plainReader 1) { now := 0 } writerGone = some s ∧
    r ∈ s.changes ∧ ChangeDue plainReader s ⟨some "Sales", none⟩ (s.since 48) r ∧
    gather s.mapping.graph ⟨some "Sales", none⟩ (s.since 48) (s.changes.map Recorded.change) []
      s.mapping.extractions ⟨fun _ => none, [], [], []⟩ = [] := by
  refine ⟨_, _, rfl, List.mem_singleton_self _, ⟨rfl, rfl, .inr (.inr ⟨rfl, ?_⟩)⟩, ?_⟩
  · exact ⟨("process", "Load"), ("cube", "Sales"), by decide, rfl, .inl rfl, rfl⟩
  · decide +kernel

end PaCopilot.incident_service
