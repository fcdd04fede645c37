/-
One report execution: its row, its state machine (`reports/state_machine.py`), and
the operations of `reports/execution_service.py` on it.

Every operation checks a transition against the row it is given and returns the
row as it leaves it, or raises. What becomes of that row is another matter:
`flush` writes the columns that changed and no others, onto whatever the row
holds by then. `Executions.lean` runs the operations one after another,
`Concurrency.lean` next to each other; both write through `flush`.

Times are microseconds.
-/
import PaCopilot.Errors
import PaCopilot.Reports.Errors
import Mathlib.Algebra.Group.Nat.Defs

set_option autoImplicit false

namespace PaCopilot.reports

abbrev Time := ℕ

/-- `timedelta(seconds=n)`. -/
def seconds (n : ℕ) : Time := n * 1000000

/-! ## The state machine -/

inductive ExecutionStatus
  | QUEUED
  | ASSIGNED
  | RUNNING
  | SUCCEEDED
  | FAILED
  | TIMED_OUT
  | CANCELLED
  | RETRYING
  deriving DecidableEq

def ExecutionStatus.value : ExecutionStatus → String
  | .QUEUED => "queued"
  | .ASSIGNED => "assigned"
  | .RUNNING => "running"
  | .SUCCEEDED => "succeeded"
  | .FAILED => "failed"
  | .TIMED_OUT => "timed_out"
  | .CANCELLED => "cancelled"
  | .RETRYING => "retrying"

/-- `LEASED_EXECUTION_STATUSES`. -/
def ExecutionStatus.leased (status : ExecutionStatus) : Bool :=
  status = .ASSIGNED || status = .RUNNING

def _ALLOWED : ExecutionStatus → List ExecutionStatus
  | .QUEUED => [.ASSIGNED, .CANCELLED, .TIMED_OUT]
  | .ASSIGNED => [.RUNNING, .FAILED, .TIMED_OUT, .CANCELLED, .QUEUED]
  | .RUNNING => [.SUCCEEDED, .FAILED, .TIMED_OUT, .CANCELLED]
  | .FAILED => [.RETRYING]
  | .TIMED_OUT => [.RETRYING]
  | .SUCCEEDED => []
  | .CANCELLED => []
  | .RETRYING => []

def can_transition (current target : ExecutionStatus) : Bool := target ∈ _ALLOWED current

def assert_transition (current target : ExecutionStatus) : Except AppException Unit :=
  refuse (can_transition current target = false)
    (ConflictException s!"Cannot move execution from {current.value} to {target.value}.")

/-- The work of the row is over: it neither waits for a worker nor is with one. A
row that is `RETRYING` is over, its replacement is another row. -/
def ExecutionStatus.terminal : ExecutionStatus → Bool
  | .QUEUED | .ASSIGNED | .RUNNING => false
  | _ => true

/-- What is over is with no worker. -/
theorem leased_of_terminal {status : ExecutionStatus} (h : status.terminal = true) :
    status.leased = false := by
  cases status <;> simp [ExecutionStatus.terminal, ExecutionStatus.leased] at h ⊢

/-- Nothing that is over becomes open again. -/
theorem terminal_of_can_transition {current target : ExecutionStatus}
    (h : can_transition current target = true) (hover : current.terminal = true) :
    target = .RETRYING := by
  cases current <;> simp [can_transition, _ALLOWED, ExecutionStatus.terminal] at h hover
  · exact h
  · exact h

theorem assert_transition_ok {current target : ExecutionStatus} {u : Unit} :
    assert_transition current target = .ok u ↔ can_transition current target = true := by
  rw [assert_transition, refuse_eq_ok_iff, Bool.not_eq_false]

/-! ## The rows -/

inductive TriggerType
  | MANUAL
  | SCHEDULED
  | RETRY
  deriving DecidableEq

/-- A value of `diagnostics`; `json` is one that a worker sent. -/
inductive Detail
  | text (s : String)
  | number (n : ℕ)
  | flag (b : Bool)
  | time (t : Time)
  | null
  | json (s : String)
  deriving DecidableEq

abbrev Diagnostics := List (String × Detail)

structure ReportExecution where
  id : ℕ
  organization_id : ℕ
  report_id : ℕ
  workbook_id : Option ℕ
  worker_id : Option ℕ := none
  triggered_by : Option ℕ
  trigger_type : TriggerType
  status : ExecutionStatus
  idempotency_key : String
  correlation_id : ℕ
  scheduled_for : Option Time
  attempt : ℕ
  max_attempts : ℕ
  parent_execution_id : Option ℕ := none
  queued_at : Time
  available_at : Time
  assigned_at : Option Time := none
  started_at : Option Time := none
  completed_at : Option Time := none
  duration_ms : Option ℕ := none
  lease_expires_at : Option Time := none
  timeout_seconds : ℕ
  error_code : Option ReportErrorCode := none
  error_message : Option String := none
  retry_class : Option RetryClass := none
  diagnostics : Diagnostics := []
  trace_log : Option String := none
  deriving DecidableEq

inductive WorkerStatus
  | PENDING_ENROLLMENT
  | ONLINE
  | OFFLINE
  | BUSY
  | DISABLED
  | ERROR
  deriving DecidableEq

structure ReportWorker where
  id : ℕ
  organization_id : ℕ
  status : WorkerStatus
  secret_hash : Option String
  capabilities : List String
  deriving DecidableEq

/-- The settings of `core/config.py` that the executions depend on. Attempts include
the first one, so a deployment allows one at least; `core/config.py` does not check that. -/
structure Settings where
  REPORT_EXECUTION_TIMEOUT_SECONDS : ℕ
  REPORT_EXECUTION_MAX_TIMEOUT_SECONDS : ℕ
  REPORT_EXECUTION_LEASE_SECONDS : ℕ
  REPORT_MAX_ATTEMPTS : ℕ
  REPORT_RETRY_BACKOFF_SECONDS : ℕ
  REPORT_RETRY_BACKOFF_MAX_SECONDS : ℕ
  REPORT_TRACE_LOG_MAX_CHARS : ℕ
  first_attempt : 1 ≤ REPORT_MAX_ATTEMPTS

/-- Their defaults. -/
def defaultSettings : Settings where
  REPORT_EXECUTION_TIMEOUT_SECONDS := 1200
  REPORT_EXECUTION_MAX_TIMEOUT_SECONDS := 7200
  REPORT_EXECUTION_LEASE_SECONDS := 120
  REPORT_MAX_ATTEMPTS := 3
  REPORT_RETRY_BACKOFF_SECONDS := 60
  REPORT_RETRY_BACKOFF_MAX_SECONDS := 1800
  REPORT_TRACE_LOG_MAX_CHARS := 20000
  first_attempt := by decide

/-! ## The operations -/

/-- `dict.update`. -/
def merged (old new : Diagnostics) : Diagnostics :=
  new.foldl (fun d (key, value) =>
    if d.any fun entry => entry.1 = key then
      d.map fun entry => if entry.1 = key then (key, value) else entry
    else d ++ [(key, value)]) old

/-- `s[:n]`. -/
def truncated (n : ℕ) (s : String) : String := String.ofList (s.toList.take n)

section Operations

variable (settings : Settings) (now : Time)

/-- `_assert_owned_by`. -/
def _assert_owned_by (execution : ReportExecution) (worker : ReportWorker) :
    Except AppException Unit := do
  refuse (execution.organization_id ≠ worker.organization_id)
    (NotFoundException "Execution not found.")
  refuse (execution.worker_id ≠ some worker.id) (NotFoundException "Execution not found.")

/-- `_finalize`. The lease is released, or the row would keep showing up for the
reaper. The microseconds are divided exactly; `int(total_seconds() * 1000)` multiplies a double,
and can be a millisecond less. -/
def _finalize (trace_log : Option String) (diagnostics : Diagnostics)
    (execution : ReportExecution) : ReportExecution :=
  { execution with
    completed_at := some now
    lease_expires_at := none
    duration_ms := some ((now - execution.started_at.getD execution.queued_at) / 1000)
    trace_log := match trace_log with
      | none | some "" => execution.trace_log
      | some text => some (truncated settings.REPORT_TRACE_LOG_MAX_CHARS text)
    diagnostics := merged execution.diagnostics diagnostics }

/-- `mark_started`. -/
def mark_started (execution : ReportExecution) (worker : ReportWorker) :
    Except AppException ReportExecution := do
  _assert_owned_by execution worker
  assert_transition execution.status .RUNNING
  return { execution with
    status := .RUNNING
    started_at := some now
    lease_expires_at := some (now + seconds settings.REPORT_EXECUTION_LEASE_SECONDS) }

/-- `fail`. The stored message is always the application's own. -/
def fail (execution : ReportExecution) (worker : Option ReportWorker)
    (error_code : ReportErrorCode) (target_status : ExecutionStatus)
    (trace_log : Option String) (diagnostics : Diagnostics) :
    Except AppException ReportExecution := do
  (match worker with
    | none => .ok ()
    | some worker => _assert_owned_by execution worker)
  assert_transition execution.status target_status
  return _finalize settings now trace_log diagnostics { execution with
    status := target_status
    error_code := some error_code
    error_message := some (message_for error_code)
    retry_class := some (retry_class_for error_code) }

/-- `extend_lease`. A run past its deadline is failed and then raises, which rolls
the failure back in every caller. -/
def extend_lease (execution : ReportExecution) (worker : ReportWorker) (step : Option String) :
    Except AppException ReportExecution := do
  _assert_owned_by execution worker
  refuse (execution.status.leased = false)
    (ConflictException "This execution is no longer running.")
  (match execution.started_at.or execution.assigned_at with
    | none => .ok ()
    | some started =>
      if started + seconds execution.timeout_seconds < now then do
        let _failed ← fail settings now execution (some worker) .EXECUTION_TIMEOUT .TIMED_OUT none
          [("timeout_seconds", .number execution.timeout_seconds),
            ("step", match step with | none => .null | some step => .text step)]
        .error (ConflictException (message_for .EXECUTION_TIMEOUT))
      else .ok ())
  return { execution with
    lease_expires_at := some (now + seconds settings.REPORT_EXECUTION_LEASE_SECONDS)
    diagnostics := match step with
      | none | some "" => execution.diagnostics
      | some step => merged execution.diagnostics [("step", .text (truncated 100 step))] }

/-- `succeed`. -/
def succeed (execution : ReportExecution) (worker : ReportWorker) (trace_log : Option String)
    (diagnostics : Diagnostics) : Except AppException ReportExecution := do
  _assert_owned_by execution worker
  assert_transition execution.status .SUCCEEDED
  return _finalize settings now trace_log diagnostics { execution with status := .SUCCEEDED }

/-- `cancel`. -/
def cancel (execution : ReportExecution) : Except AppException ReportExecution := do
  assert_transition execution.status .CANCELLED
  return _finalize settings now none [] { execution with
    status := .CANCELLED
    error_code := some .CANCELLED
    error_message := some (message_for .CANCELLED)
    retry_class := some .NON_RETRYABLE }

/-- `can_retry`. -/
def can_retry (execution : ReportExecution) : Bool :=
  execution.retry_class = some .RETRYABLE && execution.attempt < execution.max_attempts

/-- `backoff_seconds`. -/
def backoff_seconds (attempt : ℕ) : ℕ :=
  min (settings.REPORT_RETRY_BACKOFF_SECONDS * 2 ^ (attempt - 1))
    settings.REPORT_RETRY_BACKOFF_MAX_SECONDS

/-- The key of the attempt after an execution. -/
def retryKey (execution : ReportExecution) : String :=
  s!"{execution.idempotency_key}#a{execution.attempt + 1}"

/-- The attempt after an execution, as `create_retry` makes it. -/
def retryOf (execution : ReportExecution) : ReportExecution where
  id := 0
  organization_id := execution.organization_id
  report_id := execution.report_id
  workbook_id := execution.workbook_id
  triggered_by := execution.triggered_by
  trigger_type := .RETRY
  status := .QUEUED
  idempotency_key := retryKey execution
  correlation_id := execution.correlation_id
  scheduled_for := execution.scheduled_for
  attempt := execution.attempt + 1
  max_attempts := execution.max_attempts
  parent_execution_id := some execution.id
  queued_at := now
  available_at := now + seconds (backoff_seconds settings execution.attempt)
  timeout_seconds := execution.timeout_seconds

end Operations

/-! ## Writing a row -/

/-- A column after an UPDATE that names it only if it changed. -/
def column {α : Type} [DecidableEq α] (read new stored : α) : α :=
  if new = read then stored else new

/-- The row after a flush: the columns that the session changed, over what is stored.
The columns left out here are the ones that nothing assigns after the row was
made. -/
def flush (read new stored : ReportExecution) : ReportExecution :=
  { stored with
    worker_id := column read.worker_id new.worker_id stored.worker_id
    status := column read.status new.status stored.status
    assigned_at := column read.assigned_at new.assigned_at stored.assigned_at
    started_at := column read.started_at new.started_at stored.started_at
    completed_at := column read.completed_at new.completed_at stored.completed_at
    duration_ms := column read.duration_ms new.duration_ms stored.duration_ms
    lease_expires_at := column read.lease_expires_at new.lease_expires_at stored.lease_expires_at
    error_code := column read.error_code new.error_code stored.error_code
    error_message := column read.error_message new.error_message stored.error_message
    retry_class := column read.retry_class new.retry_class stored.retry_class
    diagnostics := column read.diagnostics new.diagnostics stored.diagnostics
    trace_log := column read.trace_log new.trace_log stored.trace_log }

theorem column_self {α : Type} [DecidableEq α] (read new : α) : column read new read = new := by
  unfold column
  by_cases h : new = read
  · rw [if_pos h, h]
  · rw [if_neg h]

/-- The same execution at a later time: the columns that make it this one are as they
were. -/
structure Same (r r' : ReportExecution) : Prop where
  id : r'.id = r.id
  organization_id : r'.organization_id = r.organization_id
  idempotency_key : r'.idempotency_key = r.idempotency_key
  correlation_id : r'.correlation_id = r.correlation_id
  attempt : r'.attempt = r.attempt
  max_attempts : r'.max_attempts = r.max_attempts
  parent_execution_id : r'.parent_execution_id = r.parent_execution_id

theorem Same.refl (r : ReportExecution) : Same r r := ⟨rfl, rfl, rfl, rfl, rfl, rfl, rfl⟩

/-- A flush writes the same execution. -/
theorem same_flush (read new stored : ReportExecution) : Same stored (flush read new stored) :=
  ⟨rfl, rfl, rfl, rfl, rfl, rfl, rfl⟩

/-! ## What an operation leaves -/

/-- The columns that say where an execution stands agree: it is leased while it is
with a worker, and completed once it is over. -/
structure Timed (r : ReportExecution) : Prop where
  lease : r.lease_expires_at.isSome = r.status.leased
  completed : r.completed_at.isSome = r.status.terminal

/-- An operation took the execution from one status to another along the state
machine, and left its columns in agreement. -/
structure Moved (target : ExecutionStatus) (r r' : ReportExecution) : Prop where
  same : Same r r'
  allowed : can_transition r.status target = true
  status : r'.status = target
  timed : Timed r → Timed r'

section Moved

variable {settings : Settings} {now : Time} {r r' : ReportExecution} {worker : ReportWorker}
  {trace_log : Option String} {diagnostics : Diagnostics}

/-! What each operation makes of an execution, and what it asks for first. -/

theorem mark_started_eq (h : mark_started settings now r worker = .ok r') :
    _assert_owned_by r worker = .ok () ∧ can_transition r.status .RUNNING = true ∧
      r' = { r with
        status := .RUNNING
        started_at := some now
        lease_expires_at := some (now + seconds settings.REPORT_EXECUTION_LEASE_SECONDS) } := by
  rw [mark_started, bind_eq_ok_iff] at h
  obtain ⟨⟨⟩, howned, h⟩ := h
  rw [bind_eq_ok_iff] at h
  obtain ⟨_, hallowed, h⟩ := h
  cases h
  exact ⟨howned, assert_transition_ok.mp hallowed, rfl⟩

theorem succeed_eq (h : succeed settings now r worker trace_log diagnostics = .ok r') :
    _assert_owned_by r worker = .ok () ∧ can_transition r.status .SUCCEEDED = true ∧
      r' = _finalize settings now trace_log diagnostics { r with status := .SUCCEEDED } := by
  rw [succeed, bind_eq_ok_iff] at h
  obtain ⟨⟨⟩, howned, h⟩ := h
  rw [bind_eq_ok_iff] at h
  obtain ⟨_, hallowed, h⟩ := h
  cases h
  exact ⟨howned, assert_transition_ok.mp hallowed, rfl⟩

theorem cancel_eq (h : cancel settings now r = .ok r') :
    can_transition r.status .CANCELLED = true ∧
      r' = _finalize settings now none [] { r with
        status := .CANCELLED
        error_code := some .CANCELLED
        error_message := some (message_for .CANCELLED)
        retry_class := some .NON_RETRYABLE } := by
  rw [cancel, bind_eq_ok_iff] at h
  obtain ⟨_, hallowed, h⟩ := h
  cases h
  exact ⟨assert_transition_ok.mp hallowed, rfl⟩

theorem fail_eq {worker : Option ReportWorker} {error_code : ReportErrorCode}
    {target : ExecutionStatus}
    (h : fail settings now r worker error_code target trace_log diagnostics = .ok r') :
    (∀ w, worker = some w → _assert_owned_by r w = .ok ()) ∧ can_transition r.status target = true ∧
      r' = _finalize settings now trace_log diagnostics { r with
        status := target
        error_code := some error_code
        error_message := some (message_for error_code)
        retry_class := some (retry_class_for error_code) } := by
  unfold fail at h
  rw [bind_eq_ok_iff] at h
  obtain ⟨⟨⟩, howned, h⟩ := h
  rw [bind_eq_ok_iff] at h
  obtain ⟨_, hallowed, h⟩ := h
  cases h
  refine ⟨?_, assert_transition_ok.mp hallowed, rfl⟩
  rintro w rfl
  exact howned

/-- A lease is extended while the run is not past its deadline. -/
theorem extend_lease_eq {step : Option String}
    (h : extend_lease settings now r worker step = .ok r') :
    _assert_owned_by r worker = .ok () ∧ r.status.leased = true ∧
      (∀ started, r.started_at.or r.assigned_at = some started →
        now ≤ started + seconds r.timeout_seconds) ∧
      ∃ diagnostics, r' = { r with
        lease_expires_at := some (now + seconds settings.REPORT_EXECUTION_LEASE_SECONDS)
        diagnostics := diagnostics } := by
  unfold extend_lease at h
  rw [bind_eq_ok_iff] at h
  obtain ⟨⟨⟩, howned, h⟩ := h
  rw [bind_eq_ok_iff] at h
  obtain ⟨_, hleased, h⟩ := h
  rw [refuse_eq_ok_iff, Bool.not_eq_false] at hleased
  rw [bind_eq_ok_iff] at h
  obtain ⟨_, hintime, h⟩ := h
  cases h
  refine ⟨howned, hleased, fun started hstarted => ?_, _, rfl⟩
  rw [hstarted] at hintime
  dsimp only at hintime
  -- past the deadline the step raises, whether or not the failure could be written
  split at hintime
  · rw [bind_eq_ok_iff] at hintime
    obtain ⟨_, -, hintime⟩ := hintime
    cases hintime
  · rename_i hlate
    exact Nat.le_of_not_lt hlate

/-- Finalizing an execution that is over leaves its columns in agreement. -/
theorem timed_finalize (hover : r.status.terminal = true) :
    Timed (_finalize settings now trace_log diagnostics r) := by
  constructor
  · rcases hstatus : r.status with _ | _ | _ | _ | _ | _ | _ | _ <;>
      simp [_finalize, hstatus, ExecutionStatus.leased, ExecutionStatus.terminal] at hover ⊢
  · exact hover.symm

theorem mark_started_moved (h : mark_started settings now r worker = .ok r') :
    Moved .RUNNING r r' := by
  obtain ⟨-, hallowed, rfl⟩ := mark_started_eq h
  refine ⟨⟨rfl, rfl, rfl, rfl, rfl, rfl, rfl⟩, hallowed, rfl, fun htimed => ⟨rfl, ?_⟩⟩
  -- only an assigned execution may be started, and that is not over
  have hassigned : r.status = .ASSIGNED := by
    rcases hstatus : r.status with _ | _ | _ | _ | _ | _ | _ | _ <;>
      simp [hstatus, can_transition, _ALLOWED] at hallowed ⊢
  have hcompleted := htimed.completed
  rw [hassigned] at hcompleted
  exact hcompleted

theorem succeed_moved (h : succeed settings now r worker trace_log diagnostics = .ok r') :
    Moved .SUCCEEDED r r' := by
  obtain ⟨-, hallowed, rfl⟩ := succeed_eq h
  exact ⟨⟨rfl, rfl, rfl, rfl, rfl, rfl, rfl⟩, hallowed, rfl, fun _ => timed_finalize rfl⟩

theorem cancel_moved (h : cancel settings now r = .ok r') : Moved .CANCELLED r r' := by
  obtain ⟨hallowed, rfl⟩ := cancel_eq h
  exact ⟨⟨rfl, rfl, rfl, rfl, rfl, rfl, rfl⟩, hallowed, rfl, fun _ => timed_finalize rfl⟩

/-- A failure says whether it may be tried again. -/
theorem fail_moved {worker : Option ReportWorker} {error_code : ReportErrorCode}
    {target : ExecutionStatus} (hover : target.terminal = true)
    (h : fail settings now r worker error_code target trace_log diagnostics = .ok r') :
    Moved target r r' ∧ r'.retry_class = some (retry_class_for error_code) := by
  obtain ⟨-, hallowed, rfl⟩ := fail_eq h
  exact ⟨⟨⟨rfl, rfl, rfl, rfl, rfl, rfl, rfl⟩, hallowed, rfl, fun _ => timed_finalize hover⟩, rfl⟩

/-- Extending a lease keeps the status. -/
theorem extend_lease_kept {step : Option String}
    (h : extend_lease settings now r worker step = .ok r') :
    Same r r' ∧ r'.status = r.status ∧ (Timed r → Timed r') := by
  obtain ⟨-, hleased, -, diagnostics, rfl⟩ := extend_lease_eq h
  refine ⟨⟨rfl, rfl, rfl, rfl, rfl, rfl, rfl⟩, rfl, fun htimed => ⟨?_, htimed.completed⟩⟩
  rw [hleased]
  rfl

end Moved

end PaCopilot.reports
