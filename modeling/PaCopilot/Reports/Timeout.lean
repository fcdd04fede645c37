/-
What becomes of an execution that runs past its timeout.

The server means to fail it where the worker reports progress: `extend_lease`
writes TIMED_OUT and raises. But a request that raises is rolled back, so nothing
is written, and the worker, who is answered a conflict, ends its run and reports
it as cancelled, which is not tried again. Whether the reaper or the worker comes
next, the execution is never stored as timed out for the reason that it ran too
long ([`late_progress_unrecorded`]).
-/
import PaCopilot.Reports.Rows

set_option autoImplicit false

namespace PaCopilot.reports

/-! ## The worker -/

/-- `on_progress` of `jobs/poller.py`: a 409 says that the job is no longer the
worker's, any other error is taken for a passing one. -/
def on_progress {α : Type} (answer : Except AppException α) : Bool :=
  match answer with
  | .error (.definite ⟨.ConflictException, _⟩) => false
  | _ => true

/-- One turn of the loop of `execution/supervisor.py` while the child runs: the code of
the failure it ends the run with, if it does. -/
def poll (owned overdue : Bool) : Option String :=
  if owned = false then some "cancelled"
  else if overdue then some "execution_timeout"
  else none

/-! ## A late report -/

/-- The deadline of a run has passed. -/
def Overdue (now : Time) (r : ReportExecution) : Prop :=
  ∃ started, r.started_at.or r.assigned_at = some started ∧
    started + seconds r.timeout_seconds < now

section Late

variable {settings : Settings} {m : Moment} {store : Executions} {r : ReportExecution}
  {worker : ReportWorker}

/-- A failure may end any execution that is with a worker. -/
theorem fail_ok {now : Time} (hleased : r.status.leased = true)
    (howned : _assert_owned_by r worker = .ok ()) {target : ExecutionStatus}
    (htarget : target = .FAILED ∨ target = .TIMED_OUT) (error_code : ReportErrorCode)
    (trace_log : Option String) (diagnostics : Diagnostics) :
    ∃ failed, fail settings now r (some worker) error_code target trace_log diagnostics
        = .ok failed ∧
      failed.status = target ∧ failed.error_code = some error_code ∧ failed.id = r.id ∧
      failed.retry_class = some (retry_class_for error_code) := by
  have hallowed : can_transition r.status target = true := by
    rcases leased_iff.mp hleased with hstatus | hstatus <;> rcases htarget with rfl | rfl <;>
      rw [hstatus] <;> rfl
  unfold fail
  rw [show assert_transition r.status target = .ok () from assert_transition_ok.mpr hallowed]
  dsimp only
  rw [howned]
  exact ⟨_, rfl, rfl, rfl, rfl, rfl⟩

/-- A worker's execution is found. -/
theorem owned_execution_ok (hr : r ∈ store.rows) (howned : _assert_owned_by r worker = .ok ()) :
    _owned_execution r.id worker store = .ok r := by
  have hget : store.get_by_id r.id = some r := by
    rcases hfound : store.get_by_id r.id with _ | found
    · have hnone := List.find?_eq_none.mp hfound r hr
      exact absurd (decide_eq_true rfl) hnone
    · rw [store.eq_of_id hr (Executions.mem_of_get_by_id hfound)
        (Executions.get_by_id_id hfound).symm]
  unfold _owned_execution
  rw [hget]
  dsimp only
  rw [howned]
  rfl

/-- **A late progress report is answered with a conflict.** -/
theorem report_progress_late (hr : r ∈ store.rows) (hleased : r.status.leased = true)
    (howned : _assert_owned_by r worker = .ok ()) (hlate : Overdue m.now r)
    (step : Option String) :
    report_progress settings m r.id worker step store
      = .error (ConflictException (message_for .EXECUTION_TIMEOUT)) := by
  obtain ⟨started, hstarted, hlate⟩ := hlate
  have hextended : extend_lease settings m.now r worker step
      = .error (ConflictException (message_for .EXECUTION_TIMEOUT)) := by
    have hfail : ∀ diagnostics, ∃ failed, fail settings m.now r (some worker) .EXECUTION_TIMEOUT
        .TIMED_OUT none diagnostics = .ok failed := by
      intro diagnostics
      obtain ⟨failed, hfail, -⟩ := fail_ok hleased howned (.inr rfl) _ none diagnostics
      exact ⟨failed, hfail⟩
    choose failed hfail using hfail
    unfold extend_lease
    rw [howned, hstarted, hleased]
    dsimp only
    rw [if_pos hlate, hfail]
    rfl
  rw [report_progress, owned_execution_ok hr howned]
  show (extend_lease settings m.now r worker step >>= _) = _
  rw [hextended]
  rfl

/-- So it leaves the table as it was. -/
theorem handle_progress_late (hr : r ∈ store.rows) (hleased : r.status.leased = true)
    (howned : _assert_owned_by r worker = .ok ()) (hlate : Overdue m.now r)
    (step : Option String) :
    handle settings m (.progress r.id worker step) store = store := by
  rw [handle, outcome, report_progress_late hr hleased howned hlate]
  rfl

/-! ## The reports after it -/

/-- A worker's report that the run took too long. -/
def ReportsTimeout (execution_id : ℕ) (request : Request) : Prop :=
  ∃ worker trace_log diagnostics,
    request = .fail execution_id worker (some "execution_timeout") trace_log diagnostics

theorem coerce_error_code_timeout {value : Option String}
    (h : coerce_error_code value = .EXECUTION_TIMEOUT) : value = some "execution_timeout" := by
  rcases value with _ | text
  · cases h
  · unfold coerce_error_code ReportErrorCode.ofText at h
    dsimp only at h
    split at h <;> cases h
    rfl

/-- What a move writes to the error of an execution. -/
inductive ErrorMove (request : Request) (r r' : ReportExecution) : Prop
  | kept (hcode : r'.error_code = r.error_code) (hopen : r.status.terminal = false)
      (hstatus : r'.status ≠ .TIMED_OUT)
  | replaced (hcode : r'.error_code = r.error_code) (hstatus : r'.status = .RETRYING)
  | timedOut (hcode : r'.error_code ≠ some .EXECUTION_TIMEOUT) (hstatus : r'.status = .TIMED_OUT)
  | cancelled (hcode : r'.error_code = some .CANCELLED) (hstatus : r'.status = .CANCELLED)
  | failed {worker : ReportWorker} {error_code trace_log : Option String}
      {diagnostics : Diagnostics}
      (hrequest : request = .fail r.id worker error_code trace_log diagnostics)
      (hcode : r'.error_code = some (coerce_error_code error_code)) (hstatus : r'.status = .FAILED)

theorem open_of_moved {target : ExecutionStatus} {r r' : ReportExecution}
    (h : Moved target r r') (htarget : target ≠ .RETRYING) : r.status.terminal = false := by
  by_contra hover
  rw [Bool.not_eq_false] at hover
  exact htarget (terminal_of_can_transition h.allowed hover)

/-- The code that a failure is stored with. -/
theorem fail_error_code {settings : Settings} {now : Time} {r r' : ReportExecution}
    {worker : Option ReportWorker} {error_code : ReportErrorCode} {target : ExecutionStatus}
    {trace_log : Option String} {diagnostics : Diagnostics}
    (h : fail settings now r worker error_code target trace_log diagnostics = .ok r') :
    r'.error_code = some error_code ∧ r'.status = target := by
  obtain ⟨-, -, rfl⟩ := fail_eq h
  exact ⟨rfl, rfl⟩

/-- **Only a worker's report writes that a run took too long.** -/
theorem RowMove.error {request : Request} {r r' : ReportExecution}
    (h : RowMove settings m request r r') : ErrorMove request r r' := by
  cases h with
  | started h =>
    -- these leave the error columns as they are, and the row is open before and after
    have hmoved := mark_started_moved h
    apply ErrorMove.kept _ (open_of_moved hmoved fun heq => by cases heq)
    · rw [hmoved.status]
      exact fun heq => by cases heq
    · obtain ⟨-, -, rfl⟩ := mark_started_eq h
      rfl
  | extended h =>
    obtain ⟨-, hleased, -, diagnostics, rfl⟩ := extend_lease_eq h
    rw [leased_iff] at hleased
    apply ErrorMove.kept
    · rfl
    · rcases hleased with heq | heq <;> rw [heq] <;> rfl
    · rcases hleased with heq | heq <;> rw [heq] <;> exact fun heq => by cases heq
  | succeeded h =>
    have hmoved := succeed_moved h
    apply ErrorMove.kept _ (open_of_moved hmoved fun heq => by cases heq)
    · rw [hmoved.status]
      exact fun heq => by cases heq
    · obtain ⟨-, -, rfl⟩ := succeed_eq h
      rfl
  | failed h =>
    obtain ⟨hcode, hstatus⟩ := fail_error_code h
    exact .failed rfl hcode hstatus
  | cancelled h =>
    obtain ⟨-, rfl⟩ := cancel_eq h
    exact .cancelled rfl rfl
  | claimed hqueued _ =>
    apply ErrorMove.kept
    · rfl
    · rw [hqueued]
      rfl
    · exact fun heq => by cases heq
  | lapsed _ _ h =>
    obtain ⟨hcode, hstatus⟩ := fail_error_code h
    -- the sweep has a code of its own for each of its two reasons
    apply ErrorMove.timedOut _ hstatus
    rw [hcode]
    exact fun heq => by cases heq
  | unclaimed _ _ h =>
    obtain ⟨hcode, hstatus⟩ := fail_error_code h
    apply ErrorMove.timedOut _ hstatus
    rw [hcode]
    exact fun heq => by cases heq
  | replaced _ => exact .replaced rfl rfl

/-- An execution that is not over has no error, and none is timed out for having run
too long. -/
structure Unrecorded (q : ReportExecution) : Prop where
  of_open : q.status.terminal = false → q.error_code = none
  timed_out : q.status = .TIMED_OUT → q.error_code ≠ some .EXECUTION_TIMEOUT

theorem Unrecorded.move {request : Request} {q q' : ReportExecution} (hq : Unrecorded q)
    (h : RowMove settings m request q q') : Unrecorded q' := by
  rcases h.error with ⟨hcode, hopen, hstatus⟩ | ⟨hcode, hstatus⟩ | ⟨hcode, hstatus⟩
    | ⟨hcode, hstatus⟩ | ⟨-, hcode, hstatus⟩
  · refine ⟨fun _ => ?_, fun heq => absurd heq hstatus⟩
    rw [hcode]
    exact hq.of_open hopen
  all_goals
    constructor
    · rw [hstatus]
      exact fun heq => by cases heq
    · rw [hstatus]
      intro heq
      first | exact hcode | cases heq

theorem unrecorded_of_requests (settings : Settings) (requests : List (Moment × Request)) :
    ∀ q ∈ (tableAfter settings requests Executions.empty).rows, Unrecorded q := by
  apply tableAfter_all (P := Unrecorded) (Q := fun _ => True) _ (fun _ _ => trivial)
    (by simp [Executions.empty])
  intro m request store _ hall q hreached
  induction hreached with
  | stored hq => exact hall _ hq
  | queued => exact ⟨fun _ => rfl, fun heq => by cases heq⟩
  | retried => exact ⟨fun _ => rfl, fun heq => by cases heq⟩
  | moved _ hmove ih => exact ih.move hmove

/-- Without a report that it ran too long, an execution is not stored with that
error. -/
theorem not_blamed {execution_id : ℕ} {requests : List (Moment × Request)}
    (hreports : ∀ entry ∈ requests, ¬ ReportsTimeout execution_id entry.2)
    (hstore : ∀ q ∈ store.rows, q.id = execution_id → q.error_code ≠ some .EXECUTION_TIMEOUT) :
    ∀ q ∈ (tableAfter settings requests store).rows,
      q.id = execution_id → q.error_code ≠ some .EXECUTION_TIMEOUT := by
  apply tableAfter_all (P := fun q => q.id = execution_id → q.error_code ≠ some .EXECUTION_TIMEOUT)
    (Q := fun request => ¬ ReportsTimeout execution_id request) _ hreports hstore
  intro m request store hnot hall q hreached
  induction hreached with
  | stored hq => exact hall _ hq
  | queued => exact fun _ heq => by cases heq
  | retried => exact fun _ heq => by cases heq
  | moved _ hmove ih =>
    intro hid
    rw [hmove.same.id] at hid
    rcases hmove.error with ⟨hcode, -, -⟩ | ⟨hcode, -⟩ | ⟨hcode, -⟩ | ⟨hcode, -⟩ | ⟨hfail, hcode, -⟩
    · rw [hcode]
      exact ih hid
    · rw [hcode]
      exact ih hid
    · exact hcode
    · rw [hcode]
      exact fun heq => by cases heq
    · rw [hcode]
      intro heq
      have htext := coerce_error_code_timeout (Option.some.inj heq)
      rw [htext, hid] at hfail
      exact hnot ⟨_, _, _, hfail⟩

/-- A cancellation that a worker reports is not tried again. -/
theorem handle_cancelled (h : WellFormed store) (hr : r ∈ store.rows)
    (hleased : r.status.leased = true) (howned : _assert_owned_by r worker = .ok ())
    (trace_log : Option String) (diagnostics : Diagnostics) :
    ∃ q ∈ (handle settings m (.fail r.id worker (some "cancelled") trace_log diagnostics)
        store).rows,
      q.id = r.id ∧ q.status = .FAILED ∧ q.error_code = some .CANCELLED ∧
      q.retry_class = some .NON_RETRYABLE ∧
      ∀ c ∈ (handle settings m (.fail r.id worker (some "cancelled") trace_log diagnostics)
        store).rows, c.parent_execution_id ≠ some r.id := by
  obtain ⟨failed, hfail, hstatus, hcode, hid, hclass⟩ :
      ∃ failed, fail settings m.now r (some worker) .CANCELLED .FAILED trace_log diagnostics
        = .ok failed ∧ _ :=
    fail_ok hleased howned (.inl rfl) .CANCELLED trace_log diagnostics
  -- the code of a cancellation is one that is not retried
  have hnever : can_retry failed = false := by
    rw [can_retry, hclass]
    rfl
  have hexecution := owned_execution_ok hr howned
  have houtcome : outcome settings m (.fail r.id worker (some "cancelled") trace_log diagnostics)
      store = .ok (store.update r failed) := by
    rw [outcome, fail_job, hexecution]
    show ((fail settings m.now r (some worker) .CANCELLED .FAILED trace_log diagnostics
      >>= _ : Except AppException _)).map _ = _
    rw [hfail]
    show (create_retry settings m failed (store.update r failed)).map _ = _
    rw [create_retry, if_pos hnever]
    rfl
  have hwell := outcome_wellFormed h houtcome
  have hmem := mem_update_written hr (written_failed hfail)
  rw [handle, houtcome]
  refine ⟨failed, hmem, hid, hstatus, hcode, hclass, ?_⟩
  rw [← hid]
  apply hwell.no_retry hmem
  rw [hstatus]
  exact fun heq => by cases heq

/-- **A timeout is never recorded.** In every run, a progress report after the deadline
leaves the execution with its worker; whatever requests come later, it is never
`TIMED_OUT` with the error that it ran too long, and has that error only if a worker
reports it; and the report that the worker ends the run with, having been answered a
conflict, fails it for good. -/
theorem late_progress_unrecorded (settings : Settings) (before later : List (Moment × Request))
    (m : Moment) (worker : ReportWorker) (step : Option String) {r : ReportExecution}
    (hr : r ∈ (tableAfter settings before Executions.empty).rows)
    (hleased : r.status.leased = true) (howned : _assert_owned_by r worker = .ok ())
    (hlate : Overdue m.now r) :
    r ∈ (tableAfter settings (before ++ [(m, .progress r.id worker step)]) Executions.empty).rows ∧
    (∀ q ∈ (tableAfter settings (before ++ (m, .progress r.id worker step) :: later)
        Executions.empty).rows,
      q.id = r.id → ¬ (q.status = .TIMED_OUT ∧ q.error_code = some .EXECUTION_TIMEOUT)) ∧
    ((∀ entry ∈ later, ¬ ReportsTimeout r.id entry.2) →
      ∀ q ∈ (tableAfter settings (before ++ (m, .progress r.id worker step) :: later)
        Executions.empty).rows, q.id = r.id → q.error_code ≠ some .EXECUTION_TIMEOUT) ∧
    (∀ m' overdue trace_log diagnostics,
      let ended := tableAfter settings (before ++ [(m, .progress r.id worker step),
        (m', .fail r.id worker (poll (on_progress (report_progress settings m r.id worker step
          (tableAfter settings before Executions.empty))) overdue) trace_log diagnostics)])
        Executions.empty
      ∃ q ∈ ended.rows, q.id = r.id ∧ q.status = .FAILED ∧ q.error_code = some .CANCELLED ∧
        q.retry_class = some .NON_RETRYABLE ∧ ∀ c ∈ ended.rows, c.parent_execution_id ≠ some r.id) := by
  have hrolled : ∀ rest, tableAfter settings (before ++ (m, .progress r.id worker step) :: rest)
      Executions.empty = tableAfter settings rest (tableAfter settings before Executions.empty) := by
    intro rest
    rw [tableAfter_append, tableAfter, handle_progress_late hr hleased howned hlate]
  have hopen : r.status.terminal = false := by
    rcases leased_iff.mp hleased with hstatus | hstatus <;> rw [hstatus] <;> rfl
  refine ⟨?_, ?_, ?_, ?_⟩
  · rw [hrolled]
    exact hr
  · intro q hq _ hrecorded
    exact (unrecorded_of_requests settings _ q hq).timed_out hrecorded.1 hrecorded.2
  · intro hreports
    rw [hrolled]
    apply not_blamed hreports
    intro q hq hid
    rw [Executions.eq_of_id hq hr hid, (unrecorded_of_requests settings before r hr).of_open hopen]
    exact fun heq => by cases heq
  · intro m' overdue trace_log diagnostics
    dsimp only
    -- the worker is answered a conflict, so its loop ends with a cancellation
    rw [report_progress_late hr hleased howned hlate, hrolled, tableAfter, tableAfter]
    exact handle_cancelled (tableAfter_wellFormed empty_wellFormed) hr hleased howned trace_log
      diagnostics

end Late

/-! ## A wedged run -/

/-- A report that may take a minute. -/
def minuteReport : ReportDefinition := { salesReport with timeout_seconds := .number 60 }

/-- It is run, and its worker starts it 20 s later. -/
def startedRun : List (Moment × Request) :=
  [(at_ 0, .enqueue minuteReport [ableWorker] 1 .MANUAL (some 7) "manual:1:7:20260101T0000" none),
    (at_ (seconds 10), .claim_next ableWorker [minuteReport]),
    (at_ (seconds 20), .start 1 ableWorker)]

/-- The worker reports a refresh that hangs, 61 s after the start. -/
def wedgedRun : List (Moment × Request) :=
  startedRun ++ [(at_ (seconds 81), .progress 1 ableWorker (some "refresh_started"))]

/-- **A timeout that is lost.** After the late report the execution is as it was, and
the worker's cancellation ends it with two attempts left and no retry. -/
theorem wedged_run_lost :
    (tableAfter defaultSettings wedgedRun Executions.empty).rows.map
        (fun r => (r.status, r.error_code, r.completed_at)) = [(.RUNNING, none, none)] ∧
    (tableAfter defaultSettings (wedgedRun ++ [(at_ (seconds 83),
        .fail 1 ableWorker (some "cancelled") none [])]) Executions.empty).rows.map
        (fun r => (r.status, r.error_code, r.retry_class, r.attempt, r.max_attempts))
      = [(.FAILED, some .CANCELLED, some .NON_RETRYABLE, 1, 3)] := by
  constructor
  · decide
  · decide

/-- The execution of `startedRun`. -/
def startedExecution : ReportExecution where
  id := 1
  organization_id := 1
  report_id := 1
  workbook_id := some 1
  worker_id := some 1
  triggered_by := some 7
  trigger_type := .MANUAL
  status := .RUNNING
  idempotency_key := "manual:1:7:20260101T0000"
  correlation_id := 0
  scheduled_for := none
  attempt := 1
  max_attempts := 3
  queued_at := 0
  available_at := 0
  assigned_at := some (seconds 10)
  started_at := some (seconds 20)
  lease_expires_at := some (seconds 140)
  timeout_seconds := 60

/-- `late_progress_unrecorded` at the wedged run, which the reaper meets in the end. -/
theorem wedged_run_unrecorded :
    startedExecution ∈ (tableAfter defaultSettings (startedRun ++
        [(at_ (seconds 81), .progress 1 ableWorker (some "refresh_started"))])
        Executions.empty).rows ∧
    ∀ q ∈ (tableAfter defaultSettings (startedRun ++
        [(at_ (seconds 81), .progress 1 ableWorker (some "refresh_started")),
          (at_ (seconds 200), .reap none)]) Executions.empty).rows,
      q.id = 1 → q.error_code ≠ some .EXECUTION_TIMEOUT := by
  obtain ⟨hkept, -, hblamed, -⟩ :=
    late_progress_unrecorded defaultSettings startedRun [(at_ (seconds 200), .reap none)]
      (at_ (seconds 81)) ableWorker (some "refresh_started") (r := startedExecution) (by decide)
      (by decide) (by decide) ⟨seconds 20, rfl, by decide⟩
  refine ⟨hkept, hblamed fun entry hentry hreports => ?_⟩
  rw [List.mem_singleton] at hentry
  obtain ⟨worker, trace_log, diagnostics, hrequest⟩ := hreports
  rw [hentry] at hrequest
  cases hrequest

end PaCopilot.reports
