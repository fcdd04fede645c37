/-
The transactions on one report execution, next to each other.

No transaction locks the row. Each reads it once, checks its transition against
what it read, and at its end writes the columns it changed onto what the row holds
by then. From the first write to the commit it keeps others from writing, so its
writes are one step.

The state machine is therefore asked about a status that may be over. Where it
would still allow the move from the status that is found, the statuses that are
final stay; where it would not, they are overwritten.

Beside the row there is the retry that was made of it, if one was.
-/
import PaCopilot.Reports.Executions
import PaCopilot.Lib.Interleave

set_option autoImplicit false

namespace PaCopilot.reports

open Interleave Run

/-! ## The transactions -/

/-- One of the transactions, with what it is sent. -/
inductive Operation
  | start (now : Time) (worker : ReportWorker)
  | progress (now : Time) (worker : ReportWorker) (step : Option String)
  | succeed (now : Time) (worker : ReportWorker) (trace_log : Option String)
      (diagnostics : Diagnostics)
  | fail (now : Time) (worker : ReportWorker) (error_code : Option String)
      (trace_log : Option String) (diagnostics : Diagnostics)
  | cancel (now : Time)
  | reap (now db_now : Time)

/-- The status that a transaction asks the state machine for. -/
def Operation.target : Operation → Option ExecutionStatus
  | .start .. => some .RUNNING
  | .progress .. => none
  | .succeed .. => some .SUCCEEDED
  | .fail .. => some .FAILED
  | .cancel .. => some .CANCELLED
  | .reap .. => some .TIMED_OUT

section Change

variable (settings : Settings)

/-- `create_retry`, beside the retry that is there already or not. -/
def retried (now : Time) (execution : ReportExecution) (retry : Option ReportExecution) :
    Except AppException (ReportExecution × Option ReportExecution) :=
  if can_retry execution = false then .ok (execution, retry)
  else
    match retry with
    | some existing => .ok (execution, some existing)
    | none => do
      refuse (200 < (retryKey execution).length) DataError
      assert_transition execution.status .RETRYING
      return ({ execution with status := .RETRYING }, some (retryOf settings now execution))

/-- What a transaction makes of the row it read, and of the retry. -/
def change (operation : Operation) (execution : ReportExecution)
    (retry : Option ReportExecution) :
    Except AppException (ReportExecution × Option ReportExecution) :=
  match operation with
  | .start now worker => do
    let new ← mark_started settings now execution worker
    return (new, retry)
  | .progress now worker step => do
    let new ← extend_lease settings now execution worker step
    return (new, retry)
  -- a success that is reported again is answered and changes nothing
  | .succeed now worker trace_log diagnostics =>
    if execution.status = .SUCCEEDED then .ok (execution, retry)
    else do
      let new ← succeed settings now execution worker trace_log diagnostics
      return (new, retry)
  | .fail now worker error_code trace_log diagnostics => do
    let failed ← fail settings now execution (some worker) (coerce_error_code error_code) .FAILED
      trace_log diagnostics
    retried settings now failed retry
  | .cancel now => do
    let new ← cancel settings now execution
    return (new, retry)
  | .reap now db_now =>
    if execution.status.leased && execution.lease_expires_at.any (· < now) then do
      let failed ← fail settings now execution none .WORKER_LEASE_EXPIRED .TIMED_OUT none
        [("reaped", .flag true),
          ("lease_expired_at", match execution.lease_expires_at with
            | none => .null
            | some t => .time t)]
      retried settings now failed retry
    -- an execution that no worker took is not tried again
    else if execution.status = .QUEUED
        && execution.queued_at + seconds execution.timeout_seconds < db_now then do
      let failed ← fail settings now execution none .WORKER_OFFLINE .TIMED_OUT none
        [("reaped", .flag true), ("never_claimed", .flag true)]
      return (failed, retry)
    else .ok (execution, retry)

/-- A transaction on the row: it locks nothing, and one that raises writes nothing. -/
def transaction (operation : Operation) : Transaction ReportExecution (Option ReportExecution) where
  locks := false
  body execution retry :=
    match change settings operation execution retry with
    | .error _ => (none, retry)
    | .ok (new, retry') => (some (flush execution new), retry')

end Change

variable {Id : Type} [DecidableEq Id]

/-- The transactions on one execution. -/
def transactions (settings : Settings) (operation : Id → Operation) :
    System Id ReportExecution (Option ReportExecution) Empty where
  txn i := transaction settings (operation i)
  outside := nofun

/-- A transaction that moves the status finds one from which the state machine
allows its move. -/
def current (settings : Settings) (operation : Id → Operation)
    (σ : State Id ReportExecution (Option ReportExecution)) : Action Id Empty → Bool
  | .finish i =>
    match σ.read i with
    | none => true
    | some execution =>
      match change settings (operation i) execution σ.env with
      | .error _ => true
      | .ok (new, _) =>
        new.status = execution.status
          || (operation i).target.any (can_transition σ.committed.status)
  | _ => true

/-! ## What a transaction changes -/

section Changes

variable {settings : Settings} {operation : Operation} {execution new : ReportExecution}
  {retry retry' : Option ReportExecution}

/-- A transaction keeps the status; or moves it to the one it asked for; or makes the
retry and marks the row. -/
def Changed (target : Option ExecutionStatus) (execution new : ReportExecution)
    (retry retry' : Option ReportExecution) : Prop :=
  (new.status = execution.status ∧ retry' = retry) ∨
    (target = some new.status ∧ retry' = retry) ∨
    (target.isSome = true ∧ new.status = .RETRYING ∧ execution.status ≠ .RETRYING ∧ retry = none)

/-- A failure, and the retry of it. -/
theorem retried_changed {now : Time} {failed : ReportExecution} {target : ExecutionStatus}
    (hmoved : Moved target execution failed)
    (h : retried settings now failed retry = .ok (new, retry')) :
    Changed (some target) execution new retry retry' := by
  unfold retried at h
  by_cases hcan : can_retry failed = false
  · rw [if_pos hcan] at h
    cases h
    exact .inr (.inl ⟨by rw [hmoved.status], rfl⟩)
  rw [if_neg hcan] at h
  rcases retry with _ | existing
  · dsimp only at h
    rw [bind_eq_ok_iff] at h
    obtain ⟨_, -, h⟩ := h
    rw [bind_eq_ok_iff] at h
    obtain ⟨_, -, h⟩ := h
    cases h
    refine .inr (.inr ⟨rfl, rfl, ?_, rfl⟩)
    intro hretrying
    have hallowed := hmoved.allowed
    rw [hretrying] at hallowed
    cases hallowed
  · cases h
    exact .inr (.inl ⟨by rw [hmoved.status], rfl⟩)

theorem change_changed (h : change settings operation execution retry = .ok (new, retry')) :
    Changed operation.target execution new retry retry' := by
  cases operation with
  | start now worker =>
    rw [change, bind_eq_ok_iff] at h
    obtain ⟨started, hstarted, h⟩ := h
    cases h
    exact .inr (.inl ⟨by rw [(mark_started_moved hstarted).status]; rfl, rfl⟩)
  | progress now worker step =>
    rw [change, bind_eq_ok_iff] at h
    obtain ⟨extended, hextended, h⟩ := h
    cases h
    exact .inl ⟨(extend_lease_kept hextended).2.1, rfl⟩
  | succeed now worker trace_log diagnostics =>
    rw [change] at h
    by_cases hdone : execution.status = .SUCCEEDED
    · rw [if_pos hdone] at h
      cases h
      exact .inl ⟨rfl, rfl⟩
    · rw [if_neg hdone, bind_eq_ok_iff] at h
      obtain ⟨succeeded, hsucceeded, h⟩ := h
      cases h
      exact .inr (.inl ⟨by rw [(succeed_moved hsucceeded).status]; rfl, rfl⟩)
  | fail now worker error_code trace_log diagnostics =>
    rw [change, bind_eq_ok_iff] at h
    obtain ⟨failed, hfailed, h⟩ := h
    exact retried_changed (fail_moved rfl hfailed).1 h
  | cancel now =>
    rw [change, bind_eq_ok_iff] at h
    obtain ⟨cancelled, hcancelled, h⟩ := h
    cases h
    exact .inr (.inl ⟨by rw [(cancel_moved hcancelled).status]; rfl, rfl⟩)
  | reap now db_now =>
    rw [change] at h
    split at h
    · rw [bind_eq_ok_iff] at h
      obtain ⟨failed, hfailed, h⟩ := h
      exact retried_changed (fail_moved rfl hfailed).1 h
    · split at h
      · rw [bind_eq_ok_iff] at h
        obtain ⟨failed, hfailed, h⟩ := h
        cases h
        exact .inr (.inl ⟨by rw [(fail_moved rfl hfailed).1.status]; rfl, rfl⟩)
      · cases h
        exact .inl ⟨rfl, rfl⟩

/-- Nobody asks for `RETRYING`. -/
theorem target_ne_retrying {target : ExecutionStatus} (h : operation.target = some target) :
    target ≠ .RETRYING := by
  rintro rfl
  cases operation <;> cases h

end Changes

/-! ## One transaction alone

A request that nothing runs next to leaves its row as its transaction does. -/

section Alone

variable {settings : Settings} {m : Moment} {store store' : Executions}
  {r execution failed : ReportExecution}

theorem column_same {α : Type} [DecidableEq α] (read stored : α) :
    column read read stored = stored :=
  if_pos rfl

/-- A flush without changes writes nothing. -/
theorem flush_same (read stored : ReportExecution) : flush read read stored = stored := by
  simp only [flush, column_same]

/-- The mark of a retry after the failure, and both at once. -/
theorem flush_mark :
    flush failed { failed with status := .RETRYING } (flush r failed r)
      = flush r { failed with status := .RETRYING } r := by
  simp only [flush, column_same, column_self]

/-- The row of a failure and its retry. -/
theorem create_retry_retried {retry : Option ReportExecution} (hr : r ∈ store.rows)
    (hid : failed.id = r.id)
    (hok : create_retry settings m failed (store.update r failed) = .ok (retry, store')) :
    ∃ retry₀ new retry', retried settings m.now failed retry₀ = .ok (new, retry') ∧
      flush r new r ∈ store'.rows := by
  have hrow : flush r failed r ∈ (store.update r failed).rows := Executions.mem_update_self hr rfl
  unfold create_retry at hok
  by_cases hcan : can_retry failed = false
  · rw [if_pos hcan] at hok
    cases hok
    exact ⟨none, failed, none, if_pos hcan, hrow⟩
  rw [if_neg hcan] at hok
  rcases hexisting : (store.update r failed).get_by_idempotency_key failed.organization_id
      (retryKey failed) with _ | existing
  · rw [hexisting] at hok
    dsimp only at hok
    rw [bind_eq_ok_iff] at hok
    obtain ⟨⟨created, stored⟩, hcreate, hok⟩ := hok
    rw [bind_eq_ok_iff] at hok
    obtain ⟨_, hmarked, hok⟩ := hok
    cases hok
    obtain ⟨-, hrows, -⟩ := Executions.create_ok hcreate
    have hshort : ¬ 200 < (retryKey failed).length := by
      intro hlong
      unfold Executions.create at hcreate
      rw [if_pos (show 200 < (retryOf settings m.now failed).idempotency_key.length from hlong)]
        at hcreate
      cases hcreate
    refine ⟨none, { failed with status := .RETRYING }, some (retryOf settings m.now failed), ?_, ?_⟩
    · simp only [retried, if_neg hcan, refuse_of_not _ hshort, hmarked]
      rfl
    · rw [← flush_mark]
      apply Executions.mem_update_self
      · rw [hrows]
        exact List.mem_append_left _ hrow
      · exact hid.symm
  · rw [hexisting] at hok
    cases hok
    exact ⟨some existing, failed, some existing, by rw [retried, if_neg hcan], hrow⟩

/-- The transaction of a request on a single execution. -/
def operationOf (m : Moment) : Request → Option (ℕ × Operation)
  | .start execution_id worker => some (execution_id, .start m.now worker)
  | .progress execution_id worker step => some (execution_id, .progress m.now worker step)
  | .complete execution_id worker trace_log diagnostics =>
    some (execution_id, .succeed m.now worker trace_log diagnostics)
  | .fail execution_id worker error_code trace_log diagnostics =>
    some (execution_id, .fail m.now worker error_code trace_log diagnostics)
  | .cancel execution_id _ => some (execution_id, .cancel m.now)
  | _ => none

/-- **A request that returns leaves its row as its transaction does.** -/
theorem outcome_change {request : Request} {execution_id : ℕ} {operation : Operation}
    (hoperation : operationOf m request = some (execution_id, operation))
    (hok : outcome settings m request store = .ok store') :
    ∃ r ∈ store.rows, r.id = execution_id ∧ ∃ retry new retry',
      change settings operation r retry = .ok (new, retry') ∧ flush r new r ∈ store'.rows := by
  cases request with
  -- these have no execution that they are about
  | enqueue => cases hoperation
  | claim_next => cases hoperation
  | reap => cases hoperation
  | start execution_id worker =>
    cases hoperation
    rw [outcome, map_eq_ok_iff] at hok
    obtain ⟨⟨started, _⟩, hok, rfl⟩ := hok
    obtain ⟨r, hr, hid, hnew, rfl⟩ := start_job_ok hok
    refine ⟨r, hr, hid, none, _, none, ?_, Executions.mem_update_self hr rfl⟩
    rw [change, hnew]
    rfl
  | progress execution_id worker step =>
    cases hoperation
    rw [outcome, map_eq_ok_iff] at hok
    obtain ⟨⟨extended, _⟩, hok, rfl⟩ := hok
    obtain ⟨r, hr, hid, hnew, rfl⟩ := report_progress_ok hok
    refine ⟨r, hr, hid, none, _, none, ?_, Executions.mem_update_self hr rfl⟩
    rw [change, hnew]
    rfl
  | complete execution_id worker trace_log diagnostics =>
    cases hoperation
    rw [outcome, map_eq_ok_iff] at hok
    obtain ⟨⟨succeeded, _⟩, hok, rfl⟩ := hok
    obtain ⟨r, hr, hid, ⟨hdone, rfl⟩ | ⟨hdone, hnew, rfl⟩⟩ := complete_job_ok hok
    -- a success that is reported again changes nothing
    · refine ⟨r, hr, hid, none, r, none, ?_, ?_⟩
      · rw [change, if_pos hdone]
      · rw [flush_same]
        exact hr
    · refine ⟨r, hr, hid, none, _, none, ?_, Executions.mem_update_self hr rfl⟩
      rw [change, if_neg hdone, hnew]
      rfl
  | fail execution_id worker error_code trace_log diagnostics =>
    cases hoperation
    rw [outcome, map_eq_ok_iff] at hok
    obtain ⟨⟨retry, _⟩, hok, rfl⟩ := hok
    obtain ⟨r, hr, hid, failed, hfailed, hretry⟩ := fail_job_ok hok
    -- the row is marked as failed, and then with its retry if there is one
    have hmoved := (fail_moved rfl hfailed).1
    obtain ⟨retry₀, new, retry', hretried, hrow⟩ :=
      create_retry_retried hr hmoved.same.id hretry
    refine ⟨r, hr, hid, retry₀, new, retry', ?_, hrow⟩
    rw [change, hfailed]
    exact hretried
  | cancel execution_id organization_id =>
    cases hoperation
    rw [outcome, map_eq_ok_iff] at hok
    obtain ⟨⟨cancelled, _⟩, hok, rfl⟩ := hok
    obtain ⟨r, hr, hid, hnew, rfl⟩ := cancel_execution_ok hok
    refine ⟨r, hr, hid, none, _, none, ?_, Executions.mem_update_self hr rfl⟩
    rw [change, hnew]
    rfl

end Alone

/-! ## The committed status -/

/-- Only a row that is marked has a retry. -/
def RetryMarked (σ : State Id ReportExecution (Option ReportExecution)) : Prop :=
  σ.env.isSome = true → σ.committed.status = .RETRYING

section Committed

variable {settings : Settings} {operation : Id → Operation}
  {σ σ' : State Id ReportExecution (Option ReportExecution)} {action : Action Id Empty}

/-- What a step does to the committed status: nothing; a move that the state machine
allows from it; or the mark of a retry, from a status that may be left. -/
theorem current_step (h : current settings operation σ action = true)
    (hstep : step (transactions settings operation) σ action = some σ') :
    (σ'.committed.status = σ.committed.status ∧ σ'.env = σ.env) ∨
      (∃ target, can_transition σ.committed.status target = true ∧ target ≠ .RETRYING ∧
        ((σ'.committed.status = target ∧ σ'.env = σ.env) ∨ σ'.committed.status = .RETRYING)) := by
  cases action with
  | start i =>
    obtain ⟨-, -, rfl⟩ := step_start hstep
    exact .inl ⟨rfl, rfl⟩
  | outside o => exact nomatch o
  | finish i =>
    obtain ⟨execution, hread, henv, -, -, hcommitted⟩ := step_finish hstep
    simp only [transactions, transaction] at henv hcommitted
    rcases hchange : change settings (operation i) execution σ.env with e | ⟨new, retry'⟩
    · -- it raised, and wrote nothing
      simp only [hchange] at henv hcommitted
      rcases hcommitted with ⟨-, hsame⟩ | ⟨f, hf, -⟩
      · exact .inl ⟨by rw [hsame], henv⟩
      · cases hf
    simp only [hchange] at henv hcommitted
    rcases hcommitted with ⟨hnone, -⟩ | ⟨f, hf, -, hrow⟩
    · cases hnone
    rw [Option.some.injEq] at hf
    have hstatus : σ'.committed.status
        = column execution.status new.status σ.committed.status := by
      rw [hrow, ← hf]
      rfl
    simp only [current, hread, hchange, Bool.or_eq_true, decide_eq_true_eq] at h
    by_cases hkept : new.status = execution.status
    · left
      rw [hstatus, column, if_pos hkept]
      refine ⟨rfl, ?_⟩
      rcases change_changed hchange with ⟨-, hsame⟩ | ⟨-, hsame⟩ | ⟨-, hmark, hnot, -⟩
      · rw [henv, hsame]
      · rw [henv, hsame]
      · exact absurd (hkept.symm.trans hmark) hnot
    · right
      have hmove := h.resolve_left hkept
      rw [Option.any_eq_true] at hmove
      obtain ⟨target, htarget, hallowed⟩ := hmove
      refine ⟨target, hallowed, target_ne_retrying htarget, ?_⟩
      rw [hstatus, column, if_neg hkept]
      rcases change_changed hchange with ⟨hsame, -⟩ | ⟨hnew, hsame⟩ | ⟨-, hmark, -, -⟩
      · exact absurd hsame hkept
      · rw [htarget, Option.some.injEq] at hnew
        exact .inl ⟨hnew.symm, henv.trans hsame⟩
      · exact .inr hmark

/-- A step keeps the retry to rows that are marked. -/
theorem RetryMarked.step (hσ : RetryMarked σ) (h : current settings operation σ action = true)
    (hstep : step (transactions settings operation) σ action = some σ') : RetryMarked σ' := by
  intro hretry
  rcases current_step h hstep with ⟨hsame, henv⟩ | ⟨target, hallowed, -, ⟨-, henv⟩ | hmark⟩
  · rw [hsame]
    exact hσ (by rwa [henv] at hretry)
  · -- a marked row may not be left
    rw [hσ (by rwa [henv] at hretry)] at hallowed
    cases hallowed
  · exact hmark

/-- The statuses that are final: the state machine has no move from them but the mark
of a retry. -/
def ExecutionStatus.final (status : ExecutionStatus) : Bool :=
  status = .SUCCEEDED || status = .CANCELLED || status = .FAILED

/-- A final status stays. -/
theorem final_step {status : ExecutionStatus} (hfinal : status.final = true)
    (hstatus : σ.committed.status = status) (h : current settings operation σ action = true)
    (hstep : step (transactions settings operation) σ action = some σ') :
    σ'.committed.status = status := by
  rcases current_step h hstep with ⟨hsame, -⟩ | ⟨target, hallowed, htarget, -⟩
  · rw [hsame, hstatus]
  · rw [hstatus] at hallowed
    cases status <;> simp [ExecutionStatus.final, can_transition, _ALLOWED] at hfinal hallowed
    exact absurd hallowed htarget

end Committed

/-- **In every run whose transactions are current, a final status stays, and an
execution that succeeded or was cancelled has no retry.** The transactions are any
number of the six, in any order of reads and writes. -/
theorem final_statuses_stay (settings : Settings) (operation : Id → Operation)
    (row : ReportExecution) (before after : List (Action Id Empty))
    (h : Along (step (transactions settings operation))
      (fun σ action => current settings operation σ action = true) (initial row none)
      (before ++ after)) :
    ∀ σ σ', run (step (transactions settings operation)) (initial row none) before = some σ →
      run (step (transactions settings operation)) σ after = some σ' →
        (σ.committed.status.final = true → σ'.committed.status = σ.committed.status) ∧
        (σ.committed.status = .SUCCEEDED ∨ σ.committed.status = .CANCELLED → σ'.env = none) := by
  intro σ σ' hbefore hafter
  obtain ⟨hfirst, hrest⟩ := h.append
  have hmarked : RetryMarked σ :=
    run_invariant (fun _ _ _ hI hcurrent hstep => hI.step hcurrent hstep)
      (fun hnone => by cases hnone) hfirst hbefore
  have hstays : σ.committed.status.final = true → σ'.committed.status = σ.committed.status := by
    intro hfinal
    exact run_invariant (I := fun t => t.committed.status = σ.committed.status)
      (fun _ _ _ hI hcurrent hstep => final_step hfinal hI hcurrent hstep) rfl (hrest σ hbefore)
      hafter
  refine ⟨hstays, fun hover => ?_⟩
  have hmarked' : RetryMarked σ' :=
    run_invariant (fun _ _ _ hI hcurrent hstep => hI.step hcurrent hstep) hmarked
      (hrest σ hbefore) hafter
  have hsame : σ'.committed.status = σ.committed.status := by
    apply hstays
    rcases hover with heq | heq <;> rw [heq] <;> rfl
  by_contra hsome
  have hretrying := hmarked' (Option.isSome_iff_ne_none.mpr hsome)
  rw [hsame] at hretrying
  rcases hover with heq | heq <;> rw [heq] at hretrying <;> cases hretrying

/-! ## A worker and the reaper -/

/-- An execution that a worker runs, on a lease until `t = 100`. -/
def runningExecution : ReportExecution where
  id := 1
  organization_id := 1
  report_id := 1
  workbook_id := some 1
  worker_id := some 1
  triggered_by := some 7
  trigger_type := .MANUAL
  status := .RUNNING
  idempotency_key := "manual:1:7:20260101T0000"
  correlation_id := 0
  scheduled_for := none
  attempt := 1
  max_attempts := 3
  queued_at := 0
  available_at := 0
  assigned_at := some 10
  started_at := some 20
  lease_expires_at := some 100
  timeout_seconds := 1200

def runner : ReportWorker :=
  ⟨1, 1, .ONLINE, some "hash", ["excel", "pafe_automation", "xlsx_export"]⟩

/-- The worker reports its success, and the reaper meets the lapsed lease. -/
def successAndReap : Bool → Operation
  | false => .succeed 110 runner none []
  | true => .reap 105 105

/-- `final_statuses_stay` at a success that the reaper comes after. -/
theorem success_stays :
    ∃ σ σ', run (step (transactions defaultSettings successAndReap))
        (initial runningExecution none) [.start false, .finish false] = some σ ∧
      run (step (transactions defaultSettings successAndReap)) σ [.start true, .finish true]
        = some σ' ∧
      (σ.committed.status.final = true → σ'.committed.status = σ.committed.status) ∧
      (σ.committed.status = .SUCCEEDED ∨ σ.committed.status = .CANCELLED → σ'.env = none) := by
  have hruns : (run (step (transactions defaultSettings successAndReap))
      (initial runningExecution none)
      ([.start false, .finish false] ++ [.start true, .finish true])).isSome = true := by decide
  obtain ⟨σ', hrun⟩ := Option.isSome_iff_exists.mp hruns
  obtain ⟨σ, hσ, hσ'⟩ := run_append.mp hrun
  exact ⟨σ, σ', hσ, hσ', final_statuses_stay defaultSettings successAndReap runningExecution
    [.start false, .finish false] [.start true, .finish true] (by decide) σ σ' hσ hσ'⟩

/-- The reaper reads the execution while it runs, and its success is committed. -/
def readThenSucceeded : List (Action Bool Empty) := [.start true, .start false, .finish false]

/-- **A success that was reaped.** The reaper writes over the success that was
committed after its read, and a second attempt of the report is queued. -/
theorem success_reaped :
    ((run (step (transactions defaultSettings successAndReap)) (initial runningExecution none)
        readThenSucceeded).map fun σ => (σ.committed.status, σ.env.isSome))
      = some (.SUCCEEDED, false) ∧
    ((run (step (transactions defaultSettings successAndReap)) (initial runningExecution none)
        (readThenSucceeded ++ [.finish true])).map fun σ => (σ.committed.status, σ.env.isSome))
      = some (.RETRYING, true) := by
  constructor
  · decide
  · decide

end PaCopilot.reports
