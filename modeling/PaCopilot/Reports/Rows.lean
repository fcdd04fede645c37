/-
What a request can make of a row.

Every row of the table after a request was there before it or is new, and was
moved from there by the operations that the request is made of ([`Reached`]).
This says once, for all the requests, what the columns of a row can become. An
invariant of rows is then an induction over `Reached`, with no table in it.
-/
import PaCopilot.Reports.Lifecycle

set_option autoImplicit false

namespace PaCopilot.reports

/-! ## One move -/

/-- The requests that reap before they do anything else. -/
def Request.reaps : Request → Bool
  | .claim_next .. | .reap .. => true
  | _ => false

section Moves

variable (settings : Settings) (m : Moment)

/-- An operation that a request applies to a row it read, and the row it writes. -/
inductive RowMove : Request → ReportExecution → ReportExecution → Prop
  | started {r r' : ReportExecution} {worker : ReportWorker}
      (h : mark_started settings m.now r worker = .ok r') : RowMove (.start r.id worker) r r'
  | extended {r r' : ReportExecution} {worker : ReportWorker} {step : Option String}
      (h : extend_lease settings m.now r worker step = .ok r') :
      RowMove (.progress r.id worker step) r r'
  | succeeded {r r' : ReportExecution} {worker : ReportWorker} {trace_log : Option String}
      {diagnostics : Diagnostics}
      (h : succeed settings m.now r worker trace_log diagnostics = .ok r') :
      RowMove (.complete r.id worker trace_log diagnostics) r r'
  | failed {r r' : ReportExecution} {worker : ReportWorker} {error_code trace_log : Option String}
      {diagnostics : Diagnostics}
      (h : fail settings m.now r (some worker) (coerce_error_code error_code) .FAILED trace_log
        diagnostics = .ok r') :
      RowMove (.fail r.id worker error_code trace_log diagnostics) r r'
  | cancelled {r r' : ReportExecution} {organization_id : ℕ}
      (h : cancel settings m.now r = .ok r') : RowMove (.cancel r.id organization_id) r r'
  | claimed {r : ReportExecution} {worker : ReportWorker} {reports : List ReportDefinition}
      (hqueued : r.status = .QUEUED) (havailable : r.available_at ≤ m.now) :
      RowMove (.claim_next worker reports) r (claimed settings m worker r)
  /-- the reaper met a lease that had lapsed -/
  | lapsed {request : Request} {r r' : ReportExecution} {diagnostics : Diagnostics}
      (hreaps : request.reaps = true) (hlapsed : r.lease_expires_at.any (· < m.now) = true)
      (h : fail settings m.now r none .WORKER_LEASE_EXPIRED .TIMED_OUT none diagnostics = .ok r') :
      RowMove request r r'
  /-- the reaper met an execution that nobody had claimed in time -/
  | unclaimed {request : Request} {r r' : ReportExecution} {diagnostics : Diagnostics}
      (hreaps : request.reaps = true)
      (hstale : r.queued_at + seconds r.timeout_seconds < m.db_now)
      (h : fail settings m.now r none .WORKER_OFFLINE .TIMED_OUT none diagnostics = .ok r') :
      RowMove request r r'
  /-- a retry was made of the failure -/
  | replaced {request : Request} {r : ReportExecution} (h : can_retry r = true) :
      RowMove request r { r with status := .RETRYING }

/-- The rows that a request can leave in the table. -/
inductive Reached (request : Request) (store : Executions) : ReportExecution → Prop
  | stored {r : ReportExecution} (h : r ∈ store.rows) : Reached request store r
  | queued {report : ReportDefinition} {organization_id : ℕ} {trigger_type : TriggerType}
      {triggered_by : Option ℕ} {idempotency_key : String} {correlation_id : ℕ}
      {scheduled_for : Option Time} {id : ℕ} :
      Reached request store { queued settings m report organization_id trigger_type triggered_by
        idempotency_key correlation_id scheduled_for with id := id }
  | retried {r : ReportExecution} {id : ℕ} (hr : Reached request store r)
      (h : can_retry r = true) :
      Reached request store { retryOf settings m.now r with id := id }
  | moved {r r' : ReportExecution} (hr : Reached request store r)
      (h : RowMove settings m request r r') : Reached request store r'

end Moves

/-- A move leaves the same execution. -/
theorem RowMove.same {settings : Settings} {m : Moment} {request : Request}
    {r r' : ReportExecution} (h : RowMove settings m request r r') : Same r r' := by
  cases h with
  | started h => exact (mark_started_moved h).same
  | extended h => exact (extend_lease_kept h).1
  | succeeded h => exact (succeed_moved h).same
  | failed h => exact (fail_moved rfl h).1.same
  | cancelled h => exact (cancel_moved h).same
  | claimed _ _ => exact ⟨rfl, rfl, rfl, rfl, rfl, rfl, rfl⟩
  | lapsed _ _ h => exact (fail_moved rfl h).1.same
  | unclaimed _ _ h => exact (fail_moved rfl h).1.same
  | replaced _ => exact ⟨rfl, rfl, rfl, rfl, rfl, rfl, rfl⟩

/-! ## What an operation writes -/

section Written

variable {settings : Settings} {now : Time} {r r' : ReportExecution} {worker : ReportWorker}
  {trace_log : Option String} {diagnostics : Diagnostics}

/-- A row that an operation made of another: the flush writes all of it. -/
def Written (read new : ReportExecution) : Prop := flush read new read = new

theorem written_started (h : mark_started settings now r worker = .ok r') : Written r r' := by
  obtain ⟨-, -, rfl⟩ := mark_started_eq h
  simp only [Written, flush, column_self]

theorem written_extended {step : Option String}
    (h : extend_lease settings now r worker step = .ok r') : Written r r' := by
  obtain ⟨-, -, -, diagnostics, rfl⟩ := extend_lease_eq h
  simp only [Written, flush, column_self]

theorem written_succeeded (h : succeed settings now r worker trace_log diagnostics = .ok r') :
    Written r r' := by
  obtain ⟨-, -, rfl⟩ := succeed_eq h
  simp only [Written, flush, column_self, _finalize]

theorem written_failed {worker : Option ReportWorker} {error_code : ReportErrorCode}
    {target : ExecutionStatus}
    (h : fail settings now r worker error_code target trace_log diagnostics = .ok r') :
    Written r r' := by
  obtain ⟨-, -, rfl⟩ := fail_eq h
  simp only [Written, flush, column_self, _finalize]

theorem written_cancelled (h : cancel settings now r = .ok r') : Written r r' := by
  obtain ⟨-, rfl⟩ := cancel_eq h
  simp only [Written, flush, column_self, _finalize]

theorem written_claimed {m : Moment} : Written r (claimed settings m worker r) := by
  simp only [Written, flush, column_self, claimed]

theorem written_status {status : ExecutionStatus} : Written r { r with status := status } := by
  simp only [Written, flush, column_self]

theorem RowMove.written {m : Moment} {request : Request} (h : RowMove settings m request r r') :
    Written r r' := by
  cases h with
  | started h => exact written_started h
  | extended h => exact written_extended h
  | succeeded h => exact written_succeeded h
  | failed h => exact written_failed h
  | cancelled h => exact written_cancelled h
  | claimed _ _ => exact written_claimed
  | lapsed _ _ h => exact written_failed h
  | unclaimed _ _ h => exact written_failed h
  | replaced _ => exact written_status

/-- No operation changes the times that an execution was queued with. -/
theorem Written.queued (h : Written r r') :
    r'.queued_at = r.queued_at ∧ r'.available_at = r.available_at ∧
      r'.timeout_seconds = r.timeout_seconds := by
  rw [Written] at h
  rw [← h]
  exact ⟨rfl, rfl, rfl⟩

end Written

/-! ## What a request leaves -/

section Requests

variable {settings : Settings} {m : Moment} {store store' : Executions}
  {r read new execution : ReportExecution} {P : ReportExecution → Prop}

/-- An update puts the new row in the place of the one that was read. -/
theorem update_all (hall : ∀ q ∈ store.rows, P q) (hread : read ∈ store.rows)
    (hwritten : Written read new) (hnew : P new) : ∀ q ∈ (store.update read new).rows, P q := by
  intro q hq
  rw [Executions.update_rows, List.mem_map] at hq
  obtain ⟨p, hp, rfl⟩ := hq
  by_cases hid : p.id = read.id
  · rw [if_pos hid, store.eq_of_id hp hread hid, hwritten]
    exact hnew
  · rw [if_neg hid]
    exact hall p hp

theorem mem_update_written (hread : read ∈ store.rows) (hwritten : Written read new) :
    new ∈ (store.update read new).rows := by
  have hmem : flush read new read ∈ (store.update read new).rows :=
    Executions.mem_update_self hread rfl
  rwa [hwritten] at hmem

variable {request : Request} {base : Executions}

/-- A retry adds a row and marks the one it retries. -/
theorem create_retry_reached (hall : ∀ q ∈ store.rows, Reached settings m request base q)
    (hmem : execution ∈ store.rows) {retry : Option ReportExecution}
    (hok : create_retry settings m execution store = .ok (retry, store')) :
    ∀ q ∈ store'.rows, Reached settings m request base q := by
  rcases create_retry_rows hok with rfl | ⟨created, stored, hcreate, hcan, rfl⟩
  · exact hall
  obtain ⟨hcreated, hrows, -⟩ := Executions.create_ok hcreate
  have hexecution := hall execution hmem
  apply update_all _ _ written_status (hexecution.moved (.replaced hcan))
  · intro q hq
    rw [hrows, List.mem_append, List.mem_singleton] at hq
    rcases hq with hq | rfl
    · exact hall q hq
    · rw [hcreated]
      exact hexecution.retried hcan
  · rw [hrows]
    exact List.mem_append_left _ hmem

theorem reap_reached (hreaps : request.reaps = true)
    (hall : ∀ q ∈ store.rows, Reached settings m request base q) {organization_id : Option ℕ}
    {reaped : ℕ}
    (hok : reap_stale_executions settings m organization_id store = .ok (reaped, store')) :
    ∀ q ∈ store'.rows, Reached settings m request base q := by
  apply reap_keeps (I := fun s => ∀ q ∈ s.rows, Reached settings m request base q) _ _ hall hok
  · intro s s' r failed diagnostics retry hs hr hlapsed hfail hretry
    have hwritten := written_failed hfail
    have hupdated := update_all hs hr hwritten ((hs r hr).moved (.lapsed hreaps hlapsed hfail))
    exact create_retry_reached hupdated (mem_update_written hr hwritten) hretry
  · intro s r failed diagnostics hs hr hunclaimed hfail
    exact update_all hs hr (written_failed hfail)
      ((hs r hr).moved (.unclaimed hreaps hunclaimed hfail))

/-- A claim hands out an execution that is available. -/
theorem claimCandidate_available {worker : ReportWorker} {supported_formats : List String}
    {reports : List ReportDefinition}
    (h : claimCandidate m worker supported_formats reports store = some r) :
    r.available_at ≤ m.now := by
  have hmem := (m.order.perm _).mem_iff.mp (mem_of_oldest h)
  rw [List.mem_filter] at hmem
  simp only [Bool.and_eq_true, decide_eq_true_eq] at hmem
  exact hmem.2.1.2

theorem claim_next_reached {worker : ReportWorker} {reports : List ReportDefinition}
    (hall : ∀ q ∈ store.rows, Reached settings m (.claim_next worker reports) base q)
    {handed : Option ReportExecution}
    (hok : claim_next settings m worker reports store = .ok (handed, store')) :
    ∀ q ∈ store'.rows, Reached settings m (.claim_next worker reports) base q := by
  obtain ⟨reaped, between, hreap, hclaim⟩ := claim_next_ok hok
  have hbetween := reap_reached rfl hall hreap
  rcases hclaim with rfl | ⟨supported_formats, r, hcandidate, rfl⟩
  · exact hbetween
  · obtain ⟨hr, hqueued⟩ := claimCandidate_queued hcandidate
    exact update_all hbetween hr written_claimed
      ((hbetween r hr).moved (.claimed hqueued (claimCandidate_available hcandidate)))

theorem enqueue_reached (hall : ∀ q ∈ store.rows, Reached settings m request base q)
    {report : ReportDefinition} {workers : List ReportWorker} {organization_id : ℕ}
    {trigger_type : TriggerType} {triggered_by : Option ℕ} {key : String}
    {scheduled_for : Option Time} {result : ReportExecution × Bool}
    (hok : enqueue settings m report workers organization_id trigger_type triggered_by key
      scheduled_for store = .ok (result, store')) :
    ∀ q ∈ store'.rows, Reached settings m request base q := by
  rcases enqueue_ok hok with rfl | ⟨created, hcreate⟩
  · exact hall
  obtain ⟨hcreated, hrows, -⟩ := Executions.create_ok hcreate
  intro q hq
  rw [hrows, List.mem_append, List.mem_singleton] at hq
  rcases hq with hq | rfl
  · exact hall q hq
  · rw [hcreated]
    exact .queued

/-- **The rows that a request leaves are the ones it can reach.** -/
theorem outcome_reached (hok : outcome settings m request store = .ok store') :
    ∀ q ∈ store'.rows, Reached settings m request store q := by
  have hall : ∀ q ∈ store.rows, Reached settings m request store q := fun q hq => .stored hq
  cases request with
  | enqueue report workers organization_id trigger_type triggered_by key scheduled_for =>
    rw [outcome, map_eq_ok_iff] at hok
    obtain ⟨⟨result, _⟩, hok, rfl⟩ := hok
    exact enqueue_reached hall hok
  | claim_next worker reports =>
    rw [outcome, map_eq_ok_iff] at hok
    obtain ⟨⟨handed, _⟩, hok, rfl⟩ := hok
    exact claim_next_reached hall hok
  | start execution_id worker =>
    rw [outcome, map_eq_ok_iff] at hok
    obtain ⟨⟨started, _⟩, hok, rfl⟩ := hok
    obtain ⟨execution, hmem, rfl, hnew, rfl⟩ := start_job_ok hok
    exact update_all hall hmem (written_started hnew) ((hall _ hmem).moved (.started hnew))
  | progress execution_id worker step =>
    rw [outcome, map_eq_ok_iff] at hok
    obtain ⟨⟨extended, _⟩, hok, rfl⟩ := hok
    obtain ⟨execution, hmem, rfl, hnew, rfl⟩ := report_progress_ok hok
    exact update_all hall hmem (written_extended hnew) ((hall _ hmem).moved (.extended hnew))
  | complete execution_id worker trace_log diagnostics =>
    rw [outcome, map_eq_ok_iff] at hok
    obtain ⟨⟨succeeded, _⟩, hok, rfl⟩ := hok
    obtain ⟨execution, hmem, rfl, ⟨-, rfl⟩ | ⟨-, hnew, rfl⟩⟩ := complete_job_ok hok
    · exact hall
    · exact update_all hall hmem (written_succeeded hnew) ((hall _ hmem).moved (.succeeded hnew))
  | fail execution_id worker error_code trace_log diagnostics =>
    rw [outcome, map_eq_ok_iff] at hok
    obtain ⟨⟨retry, _⟩, hok, rfl⟩ := hok
    obtain ⟨execution, hmem, rfl, failed, hfail, hretry⟩ := fail_job_ok hok
    -- the failure is written, and then the retry and its mark
    have hwritten := written_failed hfail
    have hupdated := update_all hall hmem hwritten ((hall _ hmem).moved (.failed hfail))
    exact create_retry_reached hupdated (mem_update_written hmem hwritten) hretry
  | cancel execution_id organization_id =>
    rw [outcome, map_eq_ok_iff] at hok
    obtain ⟨⟨cancelled, _⟩, hok, rfl⟩ := hok
    obtain ⟨execution, hmem, rfl, hnew, rfl⟩ := cancel_execution_ok hok
    exact update_all hall hmem (written_cancelled hnew) ((hall _ hmem).moved (.cancelled hnew))
  | reap organization_id =>
    rw [outcome, map_eq_ok_iff] at hok
    obtain ⟨⟨reaped, _⟩, hok, rfl⟩ := hok
    exact reap_reached rfl hall hok

theorem handle_reached (settings : Settings) (m : Moment) (request : Request) (store : Executions) :
    ∀ q ∈ (handle settings m request store).rows, Reached settings m request store q := by
  intro q hq
  rw [handle] at hq
  rcases hok : outcome settings m request store with e | after
  · rw [hok] at hq
    exact .stored hq
  · rw [hok] at hq
    exact outcome_reached hok q hq

/-- **What every request keeps of the rows it can reach, a run keeps of all rows.** The
requests of the run may be assumed to meet a condition. -/
theorem tableAfter_all {Q : Request → Prop}
    (hkept : ∀ m request store, Q request → (∀ q ∈ store.rows, P q) →
      ∀ q, Reached settings m request store q → P q)
    {requests : List (Moment × Request)} (hQ : ∀ entry ∈ requests, Q entry.2)
    (hall : ∀ q ∈ store.rows, P q) : ∀ q ∈ (tableAfter settings requests store).rows, P q := by
  induction requests generalizing store with
  | nil => exact hall
  | cons entry rest ih =>
    obtain ⟨m, request⟩ := entry
    rw [tableAfter]
    apply ih (fun entry hentry => hQ entry (List.mem_cons_of_mem _ hentry))
    intro q hq
    exact hkept m request store (hQ (m, request) List.mem_cons_self) hall q
      (handle_reached settings m request store q hq)

end Requests

end PaCopilot.reports
