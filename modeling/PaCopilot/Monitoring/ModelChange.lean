/-
The rule that watches the model, `_check_model_change`.

An extraction is stored as "succeeded" by `run_extraction`, which is also what
`last_successful` asks for. The check asks for "success". No row has that status, so no
check finds anything, whatever the extractions have changed ([`changes_alerted_iff`]).
-/
import PaCopilot.Monitoring.Rules
import PaCopilot.Metadata.History
import PaCopilot.Lib.Run

set_option autoImplicit false

namespace PaCopilot.monitoring_rules.model_change

open metadata Dedup Run

/-! ## The check -/

/-- `evidence`: the extraction, and the counts that are not zero. -/
structure ExtractionEvidence where
  extraction_id : ℕ
  counts : List (String × ℕ)
  deriving DecidableEq

/-- `changes["counts"].items()` that are not zero. -/
def nonzero (counts : Counts) : List (String × ℕ) :=
  [("objects_added", counts.objects_added), ("objects_removed", counts.objects_removed),
    ("relationships_added", counts.relationships_added),
    ("relationships_removed", counts.relationships_removed)].filter fun entry => entry.2 ≠ 0

/-- The first names of what was added and of what was removed. -/
def examples (changes : Changes) : List String :=
  ((changes.objects_added.take 10).map fun k => s!"added: {k.1} {k.2}")
    ++ (changes.objects_removed.take 10).map fun k => s!"removed: {k.1} {k.2}"

/-- What the check makes of one extraction. -/
def foundOf (extraction : TM1Extraction) : Option (Found ExtractionEvidence) := do
  let changes ← extraction.changes
  if changes.first then none
  else if nonzero changes.counts = [] then none
  else
    let summary := ", ".intercalate ((nonzero changes.counts).map fun entry =>
      s!"{entry.2} {Python.spaced entry.1}")
    let detail := "\n".intercalate ((examples changes).take 20)
    some {
      severity := "info"
      title := s!"Model changed: {summary}"
      detail := if detail = "" then none else some detail
      evidence := .found ⟨extraction.id, nonzero changes.counts⟩
      dedup_key := .extraction extraction.id }

/-- `_check_model_change`, from the rows of the connection. -/
def _check_model_change (extractions : List TM1Extraction) (since : Time) :
    List (Found ExtractionEvidence) :=
  -- not the status that `run_extraction` stores
  let asked := extractions.filter fun extraction =>
    extraction.status = "success" && since < extraction.finished_at
  (asked.insertionSort fun a b => a.finished_at ≤ b.finished_at).filterMap foundOf

/-! ## Extractions and checks -/

/-- A connection, and one rule with its alerts. -/
structure State where
  now : Time
  mapping : Mapping := Mapping.empty
  rule : Option (MonitorRule Unit) := none
  alerts : List (MonitorAlert ExtractionEvidence) := []

inductive Event
  /-- An extraction is committed. It finished before that, so a check may have come in
  between. -/
  | extract (after : Graph) (started_at finished_at : Time)
  | extractionFails (error : String) (started_at finished_at : Time)
  /-- A change was followed by a refresh of the graph. -/
  | refresh (graph : Graph)
  | create (name : String)
  | check
  /-- The check does not get its answer from the database. -/
  | checkFails (text cls : String)
  | wait (duration : Time)

def step (s : State) : Event → Option State
  | .extract after started_at finished_at =>
    (s.mapping.extract s.now after started_at finished_at).map fun mapping =>
      { s with mapping := mapping }
  | .extractionFails error started_at finished_at =>
    (s.mapping.fail s.now error started_at finished_at).map fun mapping =>
      { s with mapping := mapping }
  | .refresh graph => some { s with mapping := s.mapping.refresh graph }
  | .create name =>
    if s.rule = none then some { s with rule := some { name := name, created_at := s.now } }
    else none
  | .check => s.rule.map fun rule =>
    let found := _check_model_change s.mapping.extractions rule.since
    let checked := check_rule s.now s.now (.ok (found, none)) rule s.alerts
    { s with rule := some checked.1, alerts := checked.2.1 }
  -- the server did not answer: the rule counts its errors
  | .checkFails text cls => s.rule.map fun rule =>
    let checked := check_rule s.now s.now (.error (text, cls)) rule s.alerts
    { s with rule := some checked.1, alerts := checked.2.1 }
  | .wait duration => some { s with now := s.now + duration }

/-! ## What is asked -/

/-- It finished after the rule was created, is not the first of the connection, and the
graph has changed. -/
def due (rule : MonitorRule Unit) (extracted : Extracted) : Bool :=
  rule.created_at < extracted.row.finished_at && extracted.earlier &&
    !unchanged (graph_keys extracted.before) (graph_keys extracted.after)

/-- The alerts about an extraction. -/
def alertsAbout (id : ℕ) (s : State) : List (MonitorAlert ExtractionEvidence) :=
  s.alerts.filter fun alert =>
    match alert.evidence with
    | .found evidence => evidence.extraction_id = id
    | .errors _ => false

/-- After a check there is exactly one alert about each extraction that is due, and none
about any other. -/
def Reported (s : State) (e : Event) : Prop :=
  ∀ s' rule, e = .check → s.rule = some rule → step s e = some s' → ∀ id,
    (alertsAbout id s').length
      = if s.mapping.succeeded.any fun extracted => extracted.row.id = id && due rule extracted
        then 1 else 0

/-- A check is not asked for any extraction. -/
def nothingDue (s : State) : Event → Bool
  | .check => s.rule.all fun rule => s.mapping.succeeded.all fun extracted => !due rule extracted
  | _ => true

/-- A connection without extractions and without a rule. -/
def State.start (now : Time) : State := { now := now }

/-- No alert is about an extraction. -/
def Silent (s : State) : Prop := ∀ id, alertsAbout id s = []

section Steps

variable {s s' : State} {e : Event} {rule : MonitorRule Unit}

/-- The status that the check asks for is not one that is stored. -/
theorem check_nil (mapping : Mapping) (since : Time) :
    _check_model_change mapping.extractions since = [] := by
  have hasked : (mapping.extractions.filter fun extraction =>
      extraction.status = "success" && since < extraction.finished_at) = [] := by
    rw [List.filter_eq_nil_iff]
    intro extraction hmem
    have hne := mapping.status_ne_success hmem
    simp [hne]
  unfold _check_model_change
  simp only [hasked]
  rfl

theorem step_check (hrule : s.rule = some rule) (hstep : step s .check = some s') :
    s'.alerts = s.alerts := by
  simp only [step, hrule, Option.map_some, check_nil, check_rule_ok] at hstep
  rw [← Option.some.inj hstep]
  rfl

theorem Silent.step (h : Silent s) (hstep : step s e = some s') : Silent s' := by
  cases e with
  | wait duration =>
    rw [← Option.some.inj hstep]
    exact h
  | refresh graph =>
    rw [← Option.some.inj hstep]
    exact h
  | create name =>
    simp only [model_change.step] at hstep
    split at hstep
    · rw [← Option.some.inj hstep]
      exact h
    · simp at hstep
  | extract after started_at finished_at =>
    obtain ⟨mapping, -, hs'⟩ := Option.map_eq_some_iff.mp hstep
    rw [← hs']
    exact h
  | extractionFails error started_at finished_at =>
    obtain ⟨mapping, -, hs'⟩ := Option.map_eq_some_iff.mp hstep
    rw [← hs']
    exact h
  | check =>
    obtain ⟨rule, hrule, -⟩ := Option.map_eq_some_iff.mp hstep
    intro id
    rw [alertsAbout, step_check hrule hstep]
    exact h id
  | checkFails text cls =>
    obtain ⟨rule, hrule, hs'⟩ := Option.map_eq_some_iff.mp hstep
    have hadded := check_rule_error s.now s.now rule s.alerts text cls
    obtain ⟨-, -, -, halerts⟩ := hadded
    rw [← hs']
    intro id
    have hsilent := h id
    unfold alertsAbout at hsilent ⊢
    dsimp only
    -- an alert about a server that does not answer is about no extraction
    rcases halerts with hsame | ⟨alert, hinsert, -, errors, hevidence⟩
    · rw [hsame]
      exact hsilent
    · rw [hinsert]
      unfold insertOne
      split
      · exact hsilent
      · rw [List.filter_append, hsilent, List.nil_append, List.filter_singleton, hevidence]
        rfl

/-- **A check does what is asked of it exactly when nothing is asked.** -/
theorem Silent.reported_iff (h : Silent s) : Reported s e ↔ nothingDue s e = true := by
  cases e with
  | check =>
    rcases hrule : s.rule with _ | rule
    · refine iff_of_true ?_ (by rw [nothingDue, hrule]; rfl)
      intro s' rule _ hsome
      rw [hrule] at hsome
      simp at hsome
    · obtain ⟨s', hstep⟩ : ∃ s', model_change.step s .check = some s' := by
        rw [model_change.step, hrule]
        exact ⟨_, rfl⟩
      -- a check raises nothing here, so it is right exactly where nothing is due
      have hnone : ∀ id, alertsAbout id s' = [] := by
        intro id
        rw [alertsAbout, step_check hrule hstep]
        exact h id
      rw [nothingDue, hrule]
      simp only [Option.all_some, List.all_eq_true, Bool.not_eq_true']
      constructor
      · intro hreported extracted hmem
        by_contra hdue
        rw [Bool.not_eq_false] at hdue
        have hone := hreported s' rule rfl hrule hstep extracted.row.id
        rw [hnone, if_pos (List.any_eq_true.mpr ⟨extracted, hmem, by simp [hdue]⟩)] at hone
        simp at hone
      · intro hnothing after other _ hother hafter id
        rw [hrule, Option.some.injEq] at hother
        rw [hstep, Option.some.injEq] at hafter
        rw [← hother, ← hafter, hnone, if_neg]
        · rfl
        · intro hany
          obtain ⟨extracted, hmem, hboth⟩ := List.any_eq_true.mp hany
          simp [hnothing extracted hmem] at hboth
  | extract | extractionFails | refresh | create | checkFails | wait =>
    exact iff_of_true (fun _ _ he => nomatch he) rfl

end Steps

/-- **Every check reports the extractions that have changed the model, and only these,
exactly when no check comes after such an extraction.** -/
theorem changes_reported_iff (now : Time) (events : List Event) :
    Along step Reported (State.start now) events ↔
      Along step (fun s e => nothingDue s e = true) (State.start now) events := by
  have hstart : Silent (State.start now) := fun _ => rfl
  constructor
  · exact along_of_invariant (fun _ _ _ h _ hstep => h.step hstep)
      (fun _ _ h hreported => h.reported_iff.mp hreported) hstart
  · exact along_of_invariant (fun _ _ _ h _ hstep => h.step hstep)
      (fun _ _ h hnothing => h.reported_iff.mpr hnothing) hstart

/-- A model with the cube Sales. -/
def salesOnly : Graph := Graph.empty.add_object 0 ("cube", "Sales")

/-- The first extraction finds one cube; there is a rule; the second finds another cube. -/
def cubeAdded : List Event :=
  [.wait 10, .extract salesOnly 0 10, .create "model", .wait 10,
    .extract (salesOnly.add_object 0 ("cube", "Plan")) 15 20, .wait 10]

theorem cubeAdded_unheard : ∃ s s' rule, run step (State.start 0) cubeAdded = some s ∧
    s.rule = some rule ∧ step s .check = some s' ∧
    (s.mapping.succeeded.any fun extracted => extracted.row.id = 1 && due rule extracted) = true ∧
    alertsAbout 1 s' = [] := by
  refine ⟨_, _, _, rfl, rfl, rfl, ?_, ?_⟩
  · decide +kernel
  · decide +kernel

end PaCopilot.monitoring_rules.model_change
