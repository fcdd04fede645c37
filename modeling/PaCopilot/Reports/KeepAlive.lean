/-
What a worker can rely on that keeps in touch.

While the child process runs, the supervisor reports progress at every poll, and each report
renews the lease. The execution is seen here as its worker sees it: whether it has started it, and
the two times that bound it ([`Hold`]). The table follows this under all the requests that may
come in between, as long as no reaper comes while the lease is over ([`kept_alive`]). So the
worker is not told that the execution is no longer its own, and its success is recorded.
-/
import PaCopilot.Reports.Timeout

set_option autoImplicit false

namespace PaCopilot.reports

/-! ## An execution as its worker sees it -/

/-- An execution that is with a worker. Its deadline counts from `since`. -/
structure Hold where
  running : Bool
  since : Time
  lease : Time
  deriving DecidableEq

/-- A worker under another of its records. -/
def SameWorker (w worker : ReportWorker) : Prop :=
  w.organization_id = worker.organization_id ∧ w.id = worker.id

instance (w worker : ReportWorker) : Decidable (SameWorker w worker) :=
  inferInstanceAs (Decidable (_ ∧ _))

section Hold

variable (settings : Settings) (k : ℕ) (worker : ReportWorker) (timeout : ℕ)

def Hold.status (hold : Hold) : ExecutionStatus := if hold.running then .RUNNING else .ASSIGNED

def Hold.deadline (hold : Hold) : Time := hold.since + seconds timeout

/-- A lease that begins. -/
def leaseFrom (now : Time) : Time := now + seconds settings.REPORT_EXECUTION_LEASE_SECONDS

/-- What a request makes of it: the worker starts it once, and renews its lease until the
deadline. -/
def Hold.after (hold : Hold) (m : Moment) : Request → Hold
  | .start execution_id w =>
    if execution_id = k ∧ SameWorker w worker ∧ hold.running = false then
      ⟨true, m.now, leaseFrom settings m.now⟩
    else hold
  | .progress execution_id w _ =>
    if execution_id = k ∧ SameWorker w worker ∧ m.now ≤ hold.deadline timeout then
      { hold with lease := leaseFrom settings m.now }
    else hold
  | _ => hold

/-- A request that does not end it: nobody cancels it, the worker does not report the end of it,
and no reaper comes while its lease is over. -/
def Hold.Spared (hold : Hold) (m : Moment) : Request → Prop
  | .cancel execution_id _ => execution_id ≠ k
  | .complete execution_id w _ _ => ¬ (execution_id = k ∧ SameWorker w worker)
  | .fail execution_id w _ _ _ => ¬ (execution_id = k ∧ SameWorker w worker)
  | .claim_next _ _ | .reap _ => m.now ≤ hold.lease
  | _ => True

instance (hold : Hold) (m : Moment) (request : Request) :
    Decidable (hold.Spared k worker m request) := by
  cases request <;> unfold Hold.Spared <;> infer_instance

/-- After several requests. -/
def Hold.afterAll : List (Moment × Request) → Hold → Hold
  | [], hold => hold
  | (m, request) :: rest, hold =>
    Hold.afterAll rest (hold.after settings k worker timeout m request)

/-- The worker keeps in touch while these requests come. -/
def InTouch : List (Moment × Request) → Hold → Prop
  | [], _ => True
  | (m, request) :: rest, hold =>
    hold.Spared k worker m request ∧ InTouch rest (hold.after settings k worker timeout m request)

instance decidableInTouch : ∀ (requests : List (Moment × Request)) (hold : Hold),
    Decidable (InTouch settings k worker timeout requests hold)
  | [], _ => .isTrue trivial
  | (m, request) :: rest, hold =>
    have := decidableInTouch rest (hold.after settings k worker timeout m request)
    inferInstanceAs (Decidable (_ ∧ _))

/-- The row of the execution. -/
structure Holds (hold : Hold) (r : ReportExecution) : Prop where
  id : r.id = k
  organization : r.organization_id = worker.organization_id
  worker_id : r.worker_id = some worker.id
  status : r.status = hold.status
  since : r.started_at.or r.assigned_at = some hold.since
  lease : r.lease_expires_at = some hold.lease
  timeout : r.timeout_seconds = timeout

end Hold

section Requests

variable {settings : Settings} {k timeout : ℕ} {worker w : ReportWorker} {hold : Hold} {m : Moment}
  {store store' : Executions} {r q : ReportExecution}

theorem Hold.status_renewed (hold : Hold) (lease : Time) :
    ({ hold with lease := lease } : Hold).status = hold.status := rfl

theorem Hold.leased (hold : Hold) : hold.status.leased = true := by
  unfold Hold.status
  cases hold.running <;> rfl

theorem Holds.owned_iff (h : Holds k worker timeout hold r) :
    _assert_owned_by r w = .ok () ↔ SameWorker w worker := by
  unfold _assert_owned_by SameWorker
  rw [bind_eq_ok_iff]
  simp only [refuse_eq_ok_iff, not_not, h.organization, h.worker_id, Option.some.injEq]
  constructor
  · rintro ⟨_, horganization, hid⟩
    exact ⟨horganization.symm, hid.symm⟩
  · rintro ⟨horganization, hid⟩
    exact ⟨⟨⟩, horganization.symm, hid.symm⟩

/-! ## The worker's own requests -/

theorem Holds.found (h : Holds k worker timeout hold r) (hr : r ∈ store.rows)
    (hw : SameWorker w worker) : _owned_execution k w store = .ok r := by
  rw [← h.id]
  exact owned_execution_ok hr (h.owned_iff.mpr hw)

/-- The worker starts the execution. -/
theorem handle_start (h : Holds k worker timeout hold r) (hr : r ∈ store.rows)
    (hw : SameWorker w worker) (hassigned : hold.running = false) :
    ∃ r' ∈ (handle settings m (.start k w) store).rows,
      Holds k worker timeout ⟨true, m.now, leaseFrom settings m.now⟩ r' := by
  have hstarts : ∃ started, mark_started settings m.now r w = .ok started := by
    unfold mark_started
    rw [h.owned_iff.mpr hw, h.status, Hold.status, hassigned]
    exact ⟨_, rfl⟩
  obtain ⟨started, hstarted⟩ := hstarts
  have hmem : flush r started r ∈ (store.update r started).rows := Executions.mem_update_self hr rfl
  rw [written_started hstarted] at hmem
  have hjob : start_job settings m k w store = .ok (started, store.update r started) := by
    rw [start_job, h.found hr hw]
    show (mark_started settings m.now r w >>= _) = _
    rw [hstarted]
    rfl
  refine ⟨started, ?_, ?_⟩
  · rw [handle, outcome, hjob]
    exact hmem
  · obtain ⟨-, -, rfl⟩ := mark_started_eq hstarted
    exact ⟨h.id, h.organization, h.worker_id, rfl, rfl, rfl, h.timeout⟩

/-- The worker reports progress before the deadline. -/
theorem report_progress_in_time (h : Holds k worker timeout hold r) (hr : r ∈ store.rows)
    (hw : SameWorker w worker) (htime : m.now ≤ hold.deadline timeout) (step : Option String) :
    ∃ extended, report_progress settings m k w step store
        = .ok (extended, store.update r extended) ∧
      extended ∈ (store.update r extended).rows ∧
      Holds k worker timeout { hold with lease := leaseFrom settings m.now } extended := by
  have hleased : r.status.leased = true := by
    rw [h.status]
    exact hold.leased
  have hintime : ¬ hold.since + seconds r.timeout_seconds < m.now := by
    rw [Hold.deadline, ← h.timeout] at htime
    exact Nat.not_lt.mpr htime
  have hextended : ∃ extended, extend_lease settings m.now r w step = .ok extended := by
    unfold extend_lease
    rw [h.owned_iff.mpr hw, h.since, hleased]
    dsimp only
    rw [if_neg hintime]
    exact ⟨_, rfl⟩
  obtain ⟨extended, hextended⟩ := hextended
  have hmem : flush r extended r ∈ (store.update r extended).rows :=
    Executions.mem_update_self hr rfl
  rw [written_extended hextended] at hmem
  refine ⟨extended, ?_, hmem, ?_⟩
  · rw [report_progress, h.found hr hw]
    show (extend_lease settings m.now r w step >>= _) = _
    rw [hextended]
    rfl
  · obtain ⟨-, -, -, diagnostics, rfl⟩ := extend_lease_eq hextended
    exact ⟨h.id, h.organization, h.worker_id, h.status.trans (hold.status_renewed _).symm, h.since,
      rfl, h.timeout⟩

/-- The worker reports its success. -/
theorem complete_job_held (h : Holds k worker timeout hold r) (hr : r ∈ store.rows)
    (hw : SameWorker w worker) (hrunning : hold.running = true) (trace_log : Option String)
    (diagnostics : Diagnostics) :
    ∃ succeeded, complete_job settings m k w trace_log diagnostics store
        = .ok (succeeded, store.update r succeeded) ∧
      succeeded ∈ (store.update r succeeded).rows ∧
      succeeded.id = k ∧ succeeded.status = .SUCCEEDED := by
  have hstatus : r.status = .RUNNING := by
    rw [h.status, Hold.status, hrunning]
    rfl
  have hsucceeds : ∃ succeeded,
      succeed settings m.now r w trace_log diagnostics = .ok succeeded := by
    unfold succeed
    rw [h.owned_iff.mpr hw, hstatus]
    exact ⟨_, rfl⟩
  obtain ⟨succeeded, hsucceeded⟩ := hsucceeds
  have hmem : flush r succeeded r ∈ (store.update r succeeded).rows :=
    Executions.mem_update_self hr rfl
  rw [written_succeeded hsucceeded] at hmem
  have hmoved := succeed_moved hsucceeded
  refine ⟨succeeded, ?_, hmem, hmoved.same.id.trans h.id, hmoved.status⟩
  rw [complete_job, h.found hr hw]
  show (if r.status = .SUCCEEDED then _
    else succeed settings m.now r w trace_log diagnostics >>= _) = _
  rw [hsucceeded, if_neg (by rw [hstatus]; exact fun heq => by cases heq)]
  rfl

/-! ## The requests of others -/

/-- A reaper that comes while the lease holds leaves the row alone. -/
theorem mem_reap (h : Holds k worker timeout hold r) (hr : r ∈ store.rows)
    (hlease : m.now ≤ hold.lease) {organization_id : Option ℕ} {reaped : ℕ}
    (hok : reap_stale_executions settings m organization_id store = .ok (reaped, store')) :
    r ∈ store'.rows := by
  rw [reap_stale_executions] at hok
  dsimp only at hok
  rw [bind_eq_ok_iff] at hok
  obtain ⟨between, hfirst, hok⟩ := hok
  rw [bind_eq_ok_iff] at hok
  obtain ⟨after, hsecond, hok⟩ := hok
  cases hok
  have hbetween : r ∈ between.rows := by
    refine reapExpired_keeps (I := fun s => r ∈ s.rows) ?_ hr (fun q hq => (expired_of_mem hq).1)
      (query_rows store m.order _ 50).2 hfirst
    intro s s' q failed diagnostics retry hs _ hq hfail hretry
    obtain ⟨hqmem, -, hlapsed⟩ := expired_of_mem hq
    have hne : r.id ≠ q.id := by
      intro hid
      rw [← store.eq_of_id hr hqmem hid, h.lease] at hlapsed
      exact absurd (of_decide_eq_true hlapsed) (Nat.not_lt.mpr hlease)
    have hfailed : failed.id = q.id := (fail_moved rfl hfail).1.same.id
    apply mem_create_retry_of_ne _ (by rwa [hfailed]) hretry
    exact Executions.mem_update_of_ne hs hne
  refine reapStale_keeps (I := fun s => r ∈ s.rows) ?_ hbetween (fun q hq => (stale_of_mem hq).1)
    (query_rows between m.order _ 50).2 hsecond
  intro s q failed diagnostics hs _ hq _
  obtain ⟨hqmem, hqueued, -⟩ := stale_of_mem hq
  refine Executions.mem_update_of_ne hs fun hid => ?_
  have hleased := hold.leased
  rw [← h.status, between.eq_of_id hbetween hqmem hid, hqueued] at hleased
  cases hleased

/-- What is done to another row leaves this one alone. -/
theorem mem_update_other {execution new : ReportExecution} (hr : r ∈ store.rows)
    (hmem : execution ∈ store.rows) (hne : execution ≠ r) :
    r ∈ (store.update execution new).rows :=
  Executions.mem_update_of_ne hr fun hid => hne (store.eq_of_id hr hmem hid).symm

theorem mem_claim_next (h : Holds k worker timeout hold r) (hr : r ∈ store.rows)
    (hlease : m.now ≤ hold.lease) {reports : List ReportDefinition}
    {handed : Option ReportExecution}
    (hok : claim_next settings m w reports store = .ok (handed, store')) : r ∈ store'.rows := by
  obtain ⟨reaped, between, hreap, hclaim⟩ := claim_next_ok hok
  have hbetween : r ∈ between.rows := mem_reap h hr hlease hreap
  rcases hclaim with rfl | ⟨supported_formats, q, hcandidate, rfl⟩
  · exact hbetween
  · obtain ⟨hq, hqueued⟩ := claimCandidate_queued hcandidate
    refine mem_update_other hbetween hq ?_
    rintro rfl
    have hleased := hold.leased
    rw [← h.status, hqueued] at hleased
    cases hleased

theorem mem_start_job (h : Holds k worker timeout hold r) (hr : r ∈ store.rows)
    {execution_id : ℕ} {started : ReportExecution}
    (hown : ¬ (execution_id = k ∧ SameWorker w worker ∧ hold.running = false))
    (hok : start_job settings m execution_id w store = .ok (started, store')) :
    r ∈ store'.rows := by
  obtain ⟨execution, hmem, hid, hnew, rfl⟩ := start_job_ok hok
  refine mem_update_other hr hmem ?_
  rintro rfl
  obtain ⟨howned, hallowed, -⟩ := mark_started_eq hnew
  refine hown ⟨hid.symm.trans h.id, h.owned_iff.mp howned, ?_⟩
  rw [h.status, Hold.status] at hallowed
  cases hrunning : hold.running
  · rfl
  · rw [hrunning] at hallowed
    cases hallowed

theorem mem_report_progress (h : Holds k worker timeout hold r) (hr : r ∈ store.rows)
    {execution_id : ℕ} {step : Option String} {extended : ReportExecution}
    (hown : ¬ (execution_id = k ∧ SameWorker w worker ∧ m.now ≤ hold.deadline timeout))
    (hok : report_progress settings m execution_id w step store = .ok (extended, store')) :
    r ∈ store'.rows := by
  obtain ⟨execution, hmem, hid, hnew, rfl⟩ := report_progress_ok hok
  refine mem_update_other hr hmem ?_
  rintro rfl
  obtain ⟨howned, -, hintime, -⟩ := extend_lease_eq hnew
  refine hown ⟨hid.symm.trans h.id, h.owned_iff.mp howned, ?_⟩
  rw [Hold.deadline, ← h.timeout]
  exact hintime _ h.since

section Ended

variable {execution_id : ℕ} {trace_log : Option String} {diagnostics : Diagnostics}

theorem mem_complete_job (h : Holds k worker timeout hold r) (hr : r ∈ store.rows)
    {succeeded : ReportExecution} (hown : ¬ (execution_id = k ∧ SameWorker w worker))
    (hok : complete_job settings m execution_id w trace_log diagnostics store
      = .ok (succeeded, store')) : r ∈ store'.rows := by
  obtain ⟨execution, hmem, hid, ⟨-, rfl⟩ | ⟨-, hnew, rfl⟩⟩ := complete_job_ok hok
  · exact hr
  · refine mem_update_other hr hmem ?_
    rintro rfl
    exact hown ⟨hid.symm.trans h.id, h.owned_iff.mp (succeed_eq hnew).1⟩

theorem mem_fail_job (h : Holds k worker timeout hold r) (hr : r ∈ store.rows)
    {error_code : Option String} {retry : Option ReportExecution}
    (hown : ¬ (execution_id = k ∧ SameWorker w worker))
    (hok : fail_job settings m execution_id w error_code trace_log diagnostics store
      = .ok (retry, store')) : r ∈ store'.rows := by
  obtain ⟨execution, hmem, hid, failed, hfail, hretry⟩ := fail_job_ok hok
  have hne : execution ≠ r := by
    rintro rfl
    exact hown ⟨hid.symm.trans h.id, h.owned_iff.mp ((fail_eq hfail).1 w rfl)⟩
  have hfailed : failed.id = execution.id := (fail_moved rfl hfail).1.same.id
  refine mem_create_retry_of_ne (mem_update_other hr hmem hne) ?_ hretry
  rw [hfailed]
  exact fun hid => hne (store.eq_of_id hr hmem hid).symm

end Ended

/-- **A request follows the hold.** -/
theorem Holds.step (h : Holds k worker timeout hold r) (hr : r ∈ store.rows) {request : Request}
    (hspared : hold.Spared k worker m request) :
    ∃ r' ∈ (handle settings m request store).rows,
      Holds k worker timeout (hold.after settings k worker timeout m request) r' := by
  -- a request that does not return changes nothing
  have hstays : (∀ after, outcome settings m request store = .ok after → r ∈ after.rows) →
      r ∈ (handle settings m request store).rows := by
    intro hafter
    rw [handle]
    rcases hok : outcome settings m request store with e | after
    · exact hr
    · exact hafter after hok
  cases request with
  | enqueue report workers organization_id trigger_type triggered_by key scheduled_for =>
    refine ⟨r, hstays fun after hok => ?_, h⟩
    rw [outcome, map_eq_ok_iff] at hok
    obtain ⟨⟨result, _⟩, hok, rfl⟩ := hok
    rcases enqueue_ok hok with rfl | ⟨created, hcreate⟩
    · exact hr
    · obtain ⟨-, hrows, -⟩ := Executions.create_ok hcreate
      rw [hrows]
      exact List.mem_append_left _ hr
  | claim_next w reports =>
    refine ⟨r, hstays fun after hok => ?_, h⟩
    rw [outcome, map_eq_ok_iff] at hok
    obtain ⟨⟨handed, _⟩, hok, rfl⟩ := hok
    exact mem_claim_next h hr hspared hok
  | start execution_id w =>
    by_cases hown : execution_id = k ∧ SameWorker w worker ∧ hold.running = false
    · obtain ⟨rfl, hw, hassigned⟩ := hown
      rw [Hold.after, if_pos ⟨rfl, hw, hassigned⟩]
      exact handle_start h hr hw hassigned
    · rw [Hold.after, if_neg hown]
      refine ⟨r, hstays fun after hok => ?_, h⟩
      rw [outcome, map_eq_ok_iff] at hok
      obtain ⟨⟨started, _⟩, hok, rfl⟩ := hok
      exact mem_start_job h hr hown hok
  | progress execution_id w step =>
    by_cases hown : execution_id = k ∧ SameWorker w worker ∧ m.now ≤ hold.deadline timeout
    · obtain ⟨rfl, hw, htime⟩ := hown
      rw [Hold.after, if_pos ⟨rfl, hw, htime⟩]
      obtain ⟨extended, hreport, hmem, hholds⟩ := report_progress_in_time h hr hw htime step
      refine ⟨extended, ?_, hholds⟩
      rw [handle, outcome, hreport]
      exact hmem
    · rw [Hold.after, if_neg hown]
      refine ⟨r, hstays fun after hok => ?_, h⟩
      rw [outcome, map_eq_ok_iff] at hok
      obtain ⟨⟨extended, _⟩, hok, rfl⟩ := hok
      exact mem_report_progress h hr hown hok
  | complete execution_id w trace_log diagnostics =>
    refine ⟨r, hstays fun after hok => ?_, h⟩
    rw [outcome, map_eq_ok_iff] at hok
    obtain ⟨⟨succeeded, _⟩, hok, rfl⟩ := hok
    exact mem_complete_job h hr hspared hok
  | fail execution_id w error_code trace_log diagnostics =>
    refine ⟨r, hstays fun after hok => ?_, h⟩
    rw [outcome, map_eq_ok_iff] at hok
    obtain ⟨⟨retry, _⟩, hok, rfl⟩ := hok
    exact mem_fail_job h hr hspared hok
  | cancel execution_id organization_id =>
    refine ⟨r, hstays fun after hok => ?_, h⟩
    rw [outcome, map_eq_ok_iff] at hok
    obtain ⟨⟨cancelled, _⟩, hok, rfl⟩ := hok
    obtain ⟨execution, hmem, hid, -, rfl⟩ := cancel_execution_ok hok
    refine mem_update_other hr hmem ?_
    rintro rfl
    exact hspared (hid.symm.trans h.id)
  | reap organization_id =>
    refine ⟨r, hstays fun after hok => ?_, h⟩
    rw [outcome, map_eq_ok_iff] at hok
    obtain ⟨⟨reaped, _⟩, hok, rfl⟩ := hok
    exact mem_reap h hr hspared hok

/-- So does a run. -/
theorem Holds.run {later : List (Moment × Request)} (h : Holds k worker timeout hold r)
    (hr : r ∈ store.rows) (htouch : InTouch settings k worker timeout later hold) :
    ∃ r' ∈ (tableAfter settings later store).rows,
      Holds k worker timeout (hold.afterAll settings k worker timeout later) r' := by
  induction later generalizing store hold r with
  | nil => exact ⟨r, hr, h⟩
  | cons entry rest ih =>
    obtain ⟨m, request⟩ := entry
    obtain ⟨r', hr', h'⟩ := h.step hr htouch.1
    exact ih h' hr' htouch.2

end Requests

/-! ## The rows that a worker holds -/

/-- A row that is with a worker knows since when. -/
def Dated (q : ReportExecution) : Prop := q.status.leased = true → q.assigned_at.isSome = true

theorem dated_of_requests (settings : Settings) (requests : List (Moment × Request)) :
    ∀ q ∈ (tableAfter settings requests Executions.empty).rows, Dated q := by
  apply tableAfter_all (P := Dated) (Q := fun _ => True) _ (fun _ _ => trivial)
    (by simp [Executions.empty])
  intro m request store _ hall q hreached
  induction hreached with
  | stored hq => exact hall _ hq
  | queued => exact fun hleased => by cases hleased
  | retried => exact fun hleased => by cases hleased
  | moved _ hmove ih =>
    intro hleased
    cases hmove with
    | started h =>
      obtain ⟨-, hallowed, rfl⟩ := mark_started_eq h
      apply ih
      rcases hstatus : ReportExecution.status _ with _ | _ | _ | _ | _ | _ | _ | _ <;>
        rw [hstatus] at hallowed <;> first | rfl | cases hallowed
    | extended h =>
      obtain ⟨-, hbefore, -, diagnostics, rfl⟩ := extend_lease_eq h
      exact ih hbefore
    | succeeded h => rw [(succeed_moved h).status] at hleased; cases hleased
    | failed h => rw [(fail_moved rfl h).1.status] at hleased; cases hleased
    | cancelled h => rw [(cancel_moved h).status] at hleased; cases hleased
    | claimed _ _ => rfl
    | lapsed _ _ h => rw [(fail_moved rfl h).1.status] at hleased; cases hleased
    | unclaimed _ _ h => rw [(fail_moved rfl h).1.status] at hleased; cases hleased
    | replaced _ => cases hleased

/-- What its row says of an execution that is with a worker. -/
def ReportExecution.hold (r : ReportExecution) : Hold where
  running := r.status = .RUNNING
  since := (r.started_at.or r.assigned_at).getD 0
  lease := r.lease_expires_at.getD 0

theorem holds_of_requests {settings : Settings} {requests : List (Moment × Request)}
    {worker : ReportWorker} {r : ReportExecution}
    (hr : r ∈ (tableAfter settings requests Executions.empty).rows)
    (hleased : r.status.leased = true) (howned : _assert_owned_by r worker = .ok ()) :
    Holds r.id worker r.timeout_seconds r.hold r := by
  unfold _assert_owned_by at howned
  rw [bind_eq_ok_iff] at howned
  obtain ⟨_, horganization, hworker⟩ := howned
  rw [refuse_eq_ok_iff, not_not] at horganization hworker
  have hlease := ((tableAfter_wellFormed empty_wellFormed).timed r hr).lease
  rw [hleased, Option.isSome_iff_exists] at hlease
  obtain ⟨lease, hlease⟩ := hlease
  obtain ⟨assigned, hassigned⟩ :=
    Option.isSome_iff_exists.mp (dated_of_requests settings requests r hr hleased)
  refine ⟨rfl, horganization, hworker, ?_, ?_, ?_, rfl⟩
  · rcases leased_iff.mp hleased with hstatus | hstatus <;>
      rw [Hold.status, ReportExecution.hold, hstatus] <;> rfl
  · rw [ReportExecution.hold, hassigned]
    cases r.started_at <;> rfl
  · rw [ReportExecution.hold, hlease]
    rfl

/-! ## The supervisor -/

/-- A turn of the supervisor's loop: the requests that have come since the one before, the report
of progress, and whether the supervisor's own limit is over. -/
structure Turn where
  others : List (Moment × Request)
  m : Moment
  step : Option String
  overdue : Bool

section Supervisor

variable (settings : Settings) (k : ℕ) (worker : ReportWorker)

/-- All the requests of a turn. -/
def Turn.requests (t : Turn) : List (Moment × Request) :=
  t.others ++ [(t.m, .progress k worker t.step)]

/-- `ExecutionSupervisor.run` while the child runs: the table it leaves, and the failure that it
ends the run with. Without one the child has exited. -/
def supervise : List Turn → Executions → Executions × Option String
  | [], store => (store, none)
  | t :: turns, store =>
    let between := tableAfter settings t.others store
    let answer := report_progress settings t.m k worker t.step between
    let after := handle settings t.m (.progress k worker t.step) between
    match poll (on_progress answer) t.overdue with
    | some error_code => (after, some error_code)
    | none => supervise turns after

end Supervisor

section Kept

variable {settings : Settings} {k timeout : ℕ} {worker : ReportWorker} {hold : Hold}
  {store : Executions} {r : ReportExecution}

theorem inTouch_append {xs ys : List (Moment × Request)} :
    InTouch settings k worker timeout (xs ++ ys) hold ↔
      InTouch settings k worker timeout xs hold ∧
        InTouch settings k worker timeout ys (hold.afterAll settings k worker timeout xs) := by
  induction xs generalizing hold with
  | nil => exact ⟨fun h => ⟨trivial, h⟩, And.right⟩
  | cons entry rest ih =>
    rw [List.cons_append, InTouch, InTouch, Hold.afterAll, ih, and_assoc]

theorem Hold.afterAll_append (xs ys : List (Moment × Request)) :
    hold.afterAll settings k worker timeout (xs ++ ys)
      = (hold.afterAll settings k worker timeout xs).afterAll settings k worker timeout ys := by
  induction xs generalizing hold with
  | nil => rfl
  | cons entry rest ih => exact ih

/-- What a worker has started, it has started for good. -/
theorem Hold.afterAll_running (hrunning : hold.running = true) (later : List (Moment × Request)) :
    (hold.afterAll settings k worker timeout later).running = true ∧
      (hold.afterAll settings k worker timeout later).since = hold.since := by
  induction later generalizing hold with
  | nil => exact ⟨hrunning, rfl⟩
  | cons entry rest ih =>
    obtain ⟨m, request⟩ := entry
    have hafter : (hold.after settings k worker timeout m request).running = true ∧
        (hold.after settings k worker timeout m request).since = hold.since := by
      cases request with
      | start execution_id w =>
        rw [Hold.after, if_neg (by rw [hrunning]; exact fun h => by cases h.2.2)]
        exact ⟨hrunning, rfl⟩
      | progress execution_id w step =>
        rw [Hold.after]
        split <;> exact ⟨hrunning, rfl⟩
      | _ => exact ⟨hrunning, rfl⟩
    rw [Hold.afterAll]
    exact ⟨(ih hafter.1).1, (ih hafter.1).2.trans hafter.2⟩

/-- The supervisor is not told that the execution is no longer its worker's. -/
theorem supervise_kept {turns : List Turn} (h : Holds k worker timeout hold r)
    (hr : r ∈ store.rows) (hrunning : hold.running = true)
    (htouch : InTouch settings k worker timeout (turns.flatMap (Turn.requests k worker)) hold)
    (htime : ∀ t ∈ turns, t.m.now ≤ hold.deadline timeout) :
    (supervise settings k worker turns store = (tableAfter settings
        (turns.flatMap (Turn.requests k worker)) store, none) ∨
      ∃ t ∈ turns, t.overdue = true ∧
        (supervise settings k worker turns store).2 = some "execution_timeout") := by
  induction turns generalizing store hold r with
  | nil => exact .inl rfl
  | cons t turns ih =>
    rw [List.flatMap_cons, inTouch_append, Turn.requests, inTouch_append] at htouch
    obtain ⟨⟨hothers, -⟩, hrest⟩ := htouch
    obtain ⟨q, hq, hheld⟩ := h.run hr hothers
    obtain ⟨hrunning', hsince⟩ : (hold.afterAll settings k worker timeout t.others).running = true ∧
      (hold.afterAll settings k worker timeout t.others).since = hold.since :=
      Hold.afterAll_running hrunning t.others
    have hintime : t.m.now
        ≤ (hold.afterAll settings k worker timeout t.others).deadline timeout := by
      rw [Hold.deadline, hsince]
      exact htime t List.mem_cons_self
    obtain ⟨extended, hreport, hmem, hextended⟩ :=
      report_progress_in_time hheld hq ⟨rfl, rfl⟩ hintime t.step
    have hafter :
        handle settings t.m (.progress k worker t.step) (tableAfter settings t.others store)
          = (tableAfter settings t.others store).update q extended := by
      rw [handle, outcome, hreport]
      rfl
    rw [supervise, hreport]
    cases hoverdue : t.overdue with
    | true => exact .inr ⟨t, List.mem_cons_self, hoverdue, rfl⟩
    | false =>
      have hhold : hold.afterAll settings k worker timeout (t.others ++ [(t.m, .progress k worker
            t.step)]) = { hold.afterAll settings k worker timeout t.others with
          lease := leaseFrom settings t.m.now } := by
        rw [Hold.afterAll_append, Hold.afterAll, Hold.after, if_pos ⟨rfl, ⟨rfl, rfl⟩, hintime⟩]
        rfl
      rw [hhold] at hrest
      rw [← hafter] at hmem
      have hnext := ih hextended hmem hrunning' hrest fun u hu => by
        rw [Hold.deadline, hsince]
        exact htime u (List.mem_cons_of_mem _ hu)
      have hturn : tableAfter settings ((t :: turns).flatMap (Turn.requests k worker)) store
          = tableAfter settings (turns.flatMap (Turn.requests k worker))
            (handle settings t.m (.progress k worker t.step)
              (tableAfter settings t.others store)) := by
        rw [List.flatMap_cons, Turn.requests, tableAfter_append, tableAfter_append]
        rfl
      rw [hturn]
      rcases hnext with hexited | ⟨u, hu, hover, hcode⟩
      · exact .inl hexited
      · exact .inr ⟨u, List.mem_cons_of_mem _ hu, hover, hcode⟩

/-- **A worker that keeps in touch is not disowned.** An execution is running with a worker, whose
supervisor reports progress while the child runs. Whatever requests come in between, as long as
nobody cancels the execution and no reaper comes while its lease is over, no report of before the
deadline is answered with a conflict. When the child has exited, the execution is still running
with the worker, has not been tried again, and the success that the worker reports is recorded. -/
theorem kept_alive (settings : Settings) (before : List (Moment × Request)) (turns : List Turn)
    (worker : ReportWorker) {r : ReportExecution}
    (hr : r ∈ (tableAfter settings before Executions.empty).rows) (hrunning : r.status = .RUNNING)
    (howned : _assert_owned_by r worker = .ok ())
    (htouch : InTouch settings r.id worker r.timeout_seconds
      (turns.flatMap (Turn.requests r.id worker)) r.hold)
    (htime : ∀ t ∈ turns, t.m.now ≤ r.hold.deadline r.timeout_seconds) :
    let run := supervise settings r.id worker turns (tableAfter settings before Executions.empty)
    (run.2 = none ∨ ∃ t ∈ turns, t.overdue = true ∧ run.2 = some "execution_timeout") ∧
      (run.2 = none →
        (∃ q ∈ run.1.rows, q.id = r.id ∧ q.status = .RUNNING ∧ q.worker_id = r.worker_id) ∧
        (∀ c ∈ run.1.rows, c.parent_execution_id ≠ some r.id) ∧
        ∀ m trace_log diagnostics,
          ∃ done ∈ (handle settings m (.complete r.id worker trace_log diagnostics) run.1).rows,
            done.id = r.id ∧ done.status = .SUCCEEDED) := by
  have hleased : r.status.leased = true := by
    rw [hrunning]
    rfl
  have hheld := holds_of_requests hr hleased howned
  have hstarted : r.hold.running = true := decide_eq_true hrunning
  have hkept := supervise_kept hheld hr hstarted htouch htime
  dsimp only
  refine ⟨hkept.imp (congrArg Prod.snd) id, fun hexited => ?_⟩
  rcases hkept with hkept | ⟨t, -, -, hcode⟩
  · rw [hkept]
    dsimp only
    obtain ⟨q, hq, hholds⟩ := hheld.run hr htouch
    have hrunning' : (r.hold.afterAll settings r.id worker r.timeout_seconds
        (turns.flatMap (Turn.requests r.id worker))).running = true :=
      (Hold.afterAll_running hstarted _).1
    have hstatus : q.status = .RUNNING := by
      rw [hholds.status, Hold.status, hrunning']
      rfl
    refine ⟨⟨q, hq, hholds.id, hstatus, hholds.worker_id.trans hheld.worker_id.symm⟩, ?_, ?_⟩
    · have hwell : WellFormed (tableAfter settings (turns.flatMap (Turn.requests r.id worker))
          (tableAfter settings before Executions.empty)) :=
        tableAfter_wellFormed (tableAfter_wellFormed empty_wellFormed)
      have hopen : q.status ≠ .RETRYING := by
        rw [hstatus]
        exact fun heq => by cases heq
      have hnone := hwell.no_retry hq hopen
      rw [hholds.id] at hnone
      exact hnone
    · intro m trace_log diagnostics
      obtain ⟨succeeded, hcomplete, hmem, hid, hdone⟩ : ∃ succeeded,
          complete_job settings m r.id worker trace_log diagnostics _ = .ok (succeeded, _) ∧ _ :=
        complete_job_held hholds hq ⟨rfl, rfl⟩ hrunning' trace_log diagnostics
      refine ⟨succeeded, ?_, hid, hdone⟩
      rw [handle, outcome, hcomplete]
      exact hmem
  · rw [hexited] at hcode
    cases hcode

/-! ## A refresh that takes its time -/

/-- Two polls of `startedRun`, and a reaper and another worker's claim in between. -/
def refreshing : List Turn :=
  [{ others := [(at_ (seconds 40), .reap none)], m := at_ (seconds 50)
     step := some "refresh_started", overdue := false },
    { others := [(at_ (seconds 60), .claim_next ableWorker [minuteReport])], m := at_ (seconds 79)
      step := some "refresh_started", overdue := false }]

theorem refreshing_kept : ∃ done ∈ (handle defaultSettings (at_ (seconds 90))
      (.complete startedExecution.id ableWorker none []) (supervise defaultSettings
        startedExecution.id ableWorker refreshing
        (tableAfter defaultSettings startedRun Executions.empty)).1).rows,
    done.id = startedExecution.id ∧ done.status = .SUCCEEDED :=
  have hkept := kept_alive defaultSettings startedRun refreshing ableWorker (r := startedExecution)
    (by decide) rfl (by decide) (by decide) (by decide)
  (hkept.2 (by decide)).2.2 (at_ (seconds 90)) none []

end Kept

end PaCopilot.reports
