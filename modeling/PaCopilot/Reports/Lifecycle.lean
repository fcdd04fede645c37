/-
What holds of the report executions after any sequence of requests.

Every request is composed of edits of rows and of retries, so each keeps the table
of lineages well formed: the routes with one edit, the reaper with one after the
other over rows that it meets once, a failure with an edit and a retry. The
lifecycle of a run of a report follows ([`lifecycle_of_requests`]).
-/
import PaCopilot.Reports.Lineage

set_option autoImplicit false

namespace PaCopilot.reports

/-! ## The requests -/

section Requests

variable {settings : Settings} {m : Moment} {store store' : Executions}
  {r execution read new : ReportExecution}

/-- A flush of a row over itself has the new columns. -/
theorem flush_self_status (read new : ReportExecution) : (flush read new read).status = new.status :=
  column_self _ _

theorem timed_flush_self (h : Timed new) : Timed (flush read new read) := by
  constructor
  · rw [flush_self_status, ← h.lease]
    exact congrArg Option.isSome (column_self _ _)
  · rw [flush_self_status, ← h.completed]
    exact congrArg Option.isSome (column_self _ _)

/-- The update of an execution that was read from the table. -/
theorem WellFormed.update (h : WellFormed store) (hread : read ∈ store.rows)
    (htimed : Timed read → Timed new)
    (hretrying : new.status = .RETRYING ↔ read.status = .RETRYING) :
    WellFormed (store.update read new) := by
  apply h.edit
  · intro r hr
    by_cases hid : r.id = read.id
    · rw [if_pos hid, store.eq_of_id hr hread hid]
      exact timed_flush_self (htimed (h.timed read hread))
    · rw [if_neg hid]
      exact h.timed r hr
  · intro r hr
    by_cases hid : r.id = read.id
    · rw [if_pos hid, store.eq_of_id hr hread hid, flush_self_status]
      exact hretrying
    · rw [if_neg hid]

/-- A move along the state machine to a status other than `RETRYING`. -/
theorem WellFormed.move (h : WellFormed store) (hread : read ∈ store.rows)
    {target : ExecutionStatus} (hmoved : Moved target read new) (htarget : target ≠ .RETRYING) :
    WellFormed (store.update read new) := by
  apply h.update hread hmoved.timed
  refine iff_of_false ?_ ?_
  · rw [hmoved.status]
    exact htarget
  · intro hretrying
    have hallowed := hmoved.allowed
    rw [hretrying] at hallowed
    cases hallowed

/-- A new first attempt is appended under a correlation id of its own. -/
theorem enqueue_wellFormed (h : WellFormed store) {report : ReportDefinition}
    {workers : List ReportWorker} {organization_id : ℕ} {trigger_type : TriggerType}
    {triggered_by : Option ℕ} {key : String} {scheduled_for : Option Time}
    {result : ReportExecution × Bool}
    (hok : enqueue settings m report workers organization_id trigger_type triggered_by key
      scheduled_for store = .ok (result, store')) : WellFormed store' := by
  rcases enqueue_ok hok with rfl | ⟨created, hcreate⟩
  · exact h
  obtain ⟨hcreated, hrows, hnext⟩ := Executions.create_ok hcreate
  have hcorrelation : created.correlation_id = store.next := by rw [hcreated]; rfl
  -- nothing has drawn this correlation id before
  have hempty : lineage store.rows created.correlation_id = [] := by
    rw [lineage, List.filter_eq_nil_iff]
    intro r hr
    have hlt := h.drawn r hr
    rw [hcorrelation, decide_eq_true_eq]
    omega
  have happend : Appendable store created := by
    constructor
    case timed => rw [hcreated]; exact ⟨rfl, rfl⟩
    case attempt => rw [hempty, hcreated]; rfl
    case status => rw [hcreated]; exact fun h => by cases h
    case parent => rw [hcreated]; exact fun p hp => by cases hp
    case later => rw [hcreated]; exact fun hlater => absurd hlater (Nat.lt_irrefl 1)
    case bounded => rw [hcreated]; exact settings.first_attempt
    case same_max =>
      intro r hr hsame
      have hlt := h.drawn r hr
      omega
  apply h.append happend (f := fun r => r) Same.refl
  · rw [hrows, List.map_id']
    rfl
  · rw [hnext]
    exact Nat.le_add_right_of_le (Nat.le_succ _)
  · rw [hnext, hcorrelation]
    exact Nat.lt_add_right 1 (Nat.lt_succ_self _)
  · exact h.timed
  · intro r hr
    have hlt := h.drawn r hr
    rw [hcorrelation]
    exact ⟨.inl, fun hor => hor.resolve_right (by omega)⟩

/-- A retry is made when the execution may be retried and none was made before. -/
theorem create_retry_inv {retry : Option ReportExecution}
    (hok : create_retry settings m execution store = .ok (retry, store')) :
    (store' = store ∧ ¬ (can_retry execution = true ∧
        store.get_by_idempotency_key execution.organization_id (retryKey execution) = none)) ∨
      ((can_retry execution = true ∧
        store.get_by_idempotency_key execution.organization_id (retryKey execution) = none) ∧
      ∃ created stored,
        store.create (retryOf settings m.now execution) = .ok (created, stored) ∧
          store' = stored.update execution { execution with status := .RETRYING }) := by
  unfold create_retry at hok
  by_cases hcan : can_retry execution = false
  · rw [if_pos hcan] at hok
    cases hok
    exact .inl ⟨rfl, fun h => by simp [hcan] at h⟩
  rw [if_neg hcan] at hok
  rw [Bool.not_eq_false] at hcan
  rcases hexisting : store.get_by_idempotency_key execution.organization_id (retryKey execution)
    with _ | existing
  · rw [hexisting] at hok
    dsimp only at hok
    rw [bind_eq_ok_iff] at hok
    obtain ⟨⟨created, stored⟩, hcreate, hok⟩ := hok
    rw [bind_eq_ok_iff] at hok
    obtain ⟨_, -, hok⟩ := hok
    cases hok
    exact .inr ⟨⟨hcan, rfl⟩, created, stored, hcreate, rfl⟩
  · rw [hexisting] at hok
    cases hok
    exact .inl ⟨rfl, fun h => by cases h.2⟩

/-- The rows after a retry was made: the execution is marked, the others stay. -/
theorem create_retry_rows {retry : Option ReportExecution}
    (hok : create_retry settings m execution store = .ok (retry, store')) :
    store' = store ∨ ∃ created stored,
      store.create (retryOf settings m.now execution) = .ok (created, stored) ∧
        can_retry execution = true ∧
        store' = stored.update execution { execution with status := .RETRYING } := by
  rcases create_retry_inv hok with ⟨hsame, -⟩ | ⟨⟨hcan, -⟩, created, stored, hcreate, hstore'⟩
  · exact .inl hsame
  · exact .inr ⟨created, stored, hcreate, hcan, hstore'⟩

/-- A retry leaves the other executions alone. -/
theorem mem_create_retry_of_ne {retry : Option ReportExecution} (hr : r ∈ store.rows)
    (hid : r.id ≠ execution.id)
    (hok : create_retry settings m execution store = .ok (retry, store')) : r ∈ store'.rows := by
  rcases create_retry_rows hok with rfl | ⟨created, stored, hcreate, -, rfl⟩
  · exact hr
  · obtain ⟨-, hrows, -⟩ := Executions.create_ok hcreate
    apply Executions.mem_update_of_ne _ hid
    rw [hrows]
    exact List.mem_append_left _ hr

/-- What is created for a retry is the next attempt of the execution. -/
theorem retries_created {created : ReportExecution} {n : ℕ} (hsame : Same execution r)
    (hcreated : created = { retryOf settings m.now execution with id := n }) :
    Retries r created := by
  constructor
  case parent_execution_id => rw [hcreated, hsame.id]; rfl
  case correlation_id => rw [hcreated, hsame.correlation_id]; rfl
  case attempt => rw [hcreated, hsame.attempt]; rfl
  case max_attempts => rw [hcreated, hsame.max_attempts]; rfl
  case idempotency_key =>
    rw [hcreated, retryKey, hsame.idempotency_key, hsame.attempt]
    rfl

/-- The retry of the last attempt of a lineage may be appended. -/
theorem appendable_created {created : ReportExecution} {n : ℕ} (h : WellFormed store)
    (hr : r ∈ store.rows) (hsame : Same execution r) (hlast : r.status ≠ .RETRYING)
    (hcan : can_retry execution = true)
    (hcreated : created = { retryOf settings m.now execution with id := n }) :
    Appendable store created := by
  have hretries : Retries r created := retries_created hsame hcreated
  constructor
  case timed => rw [hcreated]; exact ⟨rfl, rfl⟩
  case attempt => rw [hretries.attempt, h.last hr hlast, hretries.correlation_id]
  case status => rw [hcreated]; exact fun h => by cases h
  case parent =>
    intro p hp
    exact ⟨r, hr, hretries⟩
  case later => exact fun _ => ⟨_, hretries.parent_execution_id⟩
  case bounded =>
    rw [can_retry, Bool.and_eq_true, decide_eq_true_eq, decide_eq_true_eq] at hcan
    rw [hretries.attempt, hretries.max_attempts, hsame.attempt, hsame.max_attempts]
    exact hcan.2
  case same_max =>
    intro q hq hlineage
    rw [hretries.max_attempts]
    exact h.same_max q hq r hr (hlineage.trans hretries.correlation_id)

/-- The mark of a retry changes the status column and no other. -/
theorem flush_marked_status (hopen : execution.status ≠ .RETRYING) (q : ReportExecution) :
    (flush execution { execution with status := .RETRYING } q).status = .RETRYING :=
  if_neg fun heq => hopen heq.symm

theorem timed_marked (hopen : execution.status ≠ .RETRYING) {q : ReportExecution}
    (hterminal : q.status.terminal = true) (hq : Timed q) :
    Timed (flush execution { execution with status := .RETRYING } q) := by
  have hleased := leased_of_terminal hterminal
  refine ⟨?_, ?_⟩
  · rw [flush_marked_status hopen]
    exact (congrArg Option.isSome (if_pos rfl)).trans (hq.lease.trans hleased)
  · rw [flush_marked_status hopen]
    exact (congrArg Option.isSome (if_pos rfl)).trans (hq.completed.trans hterminal)

/-- A failed execution is marked with its retry, or left as it is. -/
theorem create_retry_wellFormed (h : WellFormed store) (hr : r ∈ store.rows)
    (hsame : Same execution r) (hstatus : r.status = execution.status)
    (hover : execution.status.terminal = true) (hopen : execution.status ≠ .RETRYING)
    {retry : Option ReportExecution}
    (hok : create_retry settings m execution store = .ok (retry, store')) : WellFormed store' := by
  rcases create_retry_rows hok with rfl | ⟨created, stored, hcreate, hcan, rfl⟩
  · exact h
  obtain ⟨hcreated, hrows, hnext⟩ := Executions.create_ok hcreate
  have hlast : r.status ≠ .RETRYING := by
    rw [hstatus]
    exact hopen
  have hattempt : r.attempt = (lineage store.rows r.correlation_id).length := h.last hr hlast
  have hretries : Retries r created := retries_created hsame hcreated
  have happend : Appendable store created := appendable_created h hr hsame hlast hcan hcreated
  apply h.append happend
    (f := fun q => if q.id = execution.id then
      flush execution { execution with status := .RETRYING } q else q)
  case hf =>
    intro q
    by_cases hid : q.id = execution.id
    · rw [if_pos hid]
      exact same_flush _ _ _
    · rw [if_neg hid]
      exact Same.refl q
  case hrows =>
    -- the mark does not hit the new row
    have hnew : created.id ≠ execution.id := by
      have hlt := store.fresh r hr
      rw [hsame.id] at hlt
      rw [hcreated]
      dsimp only
      omega
    rw [Executions.update_rows, hrows, List.map_append, List.map_cons, List.map_nil, if_neg hnew]
  case hnext =>
    show store.next ≤ stored.next
    omega
  case hdrawn =>
    show created.correlation_id < stored.next
    have hlt := h.drawn r hr
    rw [hretries.correlation_id]
    omega
  case htimed =>
    intro q hq
    by_cases hid : q.id = execution.id
    · rw [if_pos hid, store.eq_of_id hq hr (hid.trans hsame.id.symm)]
      apply timed_marked hopen _ (h.timed r hr)
      rw [hstatus]
      exact hover
    · rw [if_neg hid]
      exact h.timed q hq
  case hretrying =>
    intro q hq
    by_cases hid : q.id = execution.id
    -- the row that is marked is of the lineage of its retry
    · rw [if_pos hid, store.eq_of_id hq hr (hid.trans hsame.id.symm), flush_marked_status hopen]
      exact iff_of_true rfl (.inr hretries.correlation_id.symm)
    · rw [if_neg hid]
      refine ⟨.inl, fun hor => ?_⟩
      rcases hor with hretrying | hlineage
      · exact hretrying
      · -- an earlier attempt of the lineage
        rw [hretries.correlation_id] at hlineage
        have hle := (h.attempt_mem hq).2
        have hne : q.attempt ≠ r.attempt := by
          intro heq
          have hqr := h.eq_of_attempt hr hq hlineage heq
          exact hid (by rw [hqr, hsame.id])
        rw [h.replaced q hq]
        rw [hlineage] at hle ⊢
        omega

/-- Failing an execution of the table and trying it again. -/
theorem fail_retry_wellFormed (h : WellFormed store) (hr : r ∈ store.rows)
    {worker : Option ReportWorker} {error_code : ReportErrorCode} {target : ExecutionStatus}
    {trace_log : Option String} {diagnostics : Diagnostics} {failed : ReportExecution}
    {retry : Option ReportExecution} (hover : target.terminal = true) (htarget : target ≠ .RETRYING)
    (hfail : fail settings m.now r worker error_code target trace_log diagnostics = .ok failed)
    (hretry : create_retry settings m failed (store.update r failed) = .ok (retry, store')) :
    WellFormed store' := by
  obtain ⟨hmoved, -⟩ := fail_moved hover hfail
  have hrow : flush r failed r ∈ (store.update r failed).rows := Executions.mem_update_self hr rfl
  have hsame : Same failed (flush r failed r) :=
    ⟨hmoved.same.id.symm, hmoved.same.organization_id.symm, hmoved.same.idempotency_key.symm,
      hmoved.same.correlation_id.symm, hmoved.same.attempt.symm, hmoved.same.max_attempts.symm,
      hmoved.same.parent_execution_id.symm⟩
  apply create_retry_wellFormed (h.move hr hmoved htarget) hrow hsame (flush_self_status _ _) _ _
    hretry
  · rw [hmoved.status]
    exact hover
  · rw [hmoved.status]
    exact htarget

/-- The reaper meets each execution once, and finds it as the query returned it: what
every failure and its retry keep, the first population keeps. -/
theorem reapExpired_keeps {I : Executions → Prop} {expired : List ReportExecution}
    (hstep : ∀ {s s' : Executions} {r failed : ReportExecution} {diagnostics : Diagnostics}
      {retry : Option ReportExecution}, I s → r ∈ s.rows → r ∈ expired →
      fail settings m.now r none .WORKER_LEASE_EXPIRED .TIMED_OUT none diagnostics = .ok failed →
      create_retry settings m failed (s.update r failed) = .ok (retry, s') → I s')
    (h : I store) (hmem : ∀ r ∈ expired, r ∈ store.rows)
    (hids : (expired.map ReportExecution.id).Nodup)
    (hok : reapExpired settings m expired store = .ok store') : I store' := by
  induction expired generalizing store with
  | nil =>
    cases hok
    exact h
  | cons r rest ih =>
    rw [reapExpired, bind_eq_ok_iff] at hok
    obtain ⟨failed, hfail, hok⟩ := hok
    rw [bind_eq_ok_iff] at hok
    obtain ⟨⟨retry, next⟩, hretry, hok⟩ := hok
    rw [List.map_cons, List.nodup_cons] at hids
    have hid : failed.id = r.id := (fail_moved rfl hfail).1.same.id
    have hnext : I next := hstep h (hmem r List.mem_cons_self) List.mem_cons_self hfail hretry
    apply ih (fun hI hs hr => hstep hI hs (List.mem_cons_of_mem _ hr)) hnext _ hids.2 hok
    -- the rows that are still to be met were not touched
    intro q hq
    have hne : q.id ≠ r.id := fun heq => hids.1 (heq ▸ List.mem_map_of_mem hq)
    apply mem_create_retry_of_ne _ (by rwa [hid]) hretry
    exact Executions.mem_update_of_ne (hmem q (List.mem_cons_of_mem _ hq)) hne

theorem reapStale_keeps {I : Executions → Prop} {stale : List ReportExecution}
    (hstep : ∀ {s : Executions} {r failed : ReportExecution} {diagnostics : Diagnostics},
      I s → r ∈ s.rows → r ∈ stale →
      fail settings m.now r none .WORKER_OFFLINE .TIMED_OUT none diagnostics = .ok failed →
      I (s.update r failed))
    (h : I store) (hmem : ∀ r ∈ stale, r ∈ store.rows) (hids : (stale.map ReportExecution.id).Nodup)
    (hok : reapStale settings m stale store = .ok store') : I store' := by
  induction stale generalizing store with
  | nil =>
    cases hok
    exact h
  | cons r rest ih =>
    rw [reapStale, bind_eq_ok_iff] at hok
    obtain ⟨failed, hfail, hok⟩ := hok
    rw [List.map_cons, List.nodup_cons] at hids
    have hnext : I (store.update r failed) :=
      hstep h (hmem r List.mem_cons_self) List.mem_cons_self hfail
    apply ih (fun hI hs hr => hstep hI hs (List.mem_cons_of_mem _ hr)) hnext _ hids.2 hok
    intro q hq
    have hne : q.id ≠ r.id := fun heq => hids.1 (heq ▸ List.mem_map_of_mem hq)
    exact Executions.mem_update_of_ne (hmem q (List.mem_cons_of_mem _ hq)) hne

/-- A query returns rows of the table, and none of them twice. -/
theorem query_rows (store : Executions) (order : RowOrder) (where_ : ReportExecution → Bool)
    (n : ℕ) :
    (∀ r ∈ (order.arrange (store.rows.filter where_)).take n, r ∈ store.rows ∧ where_ r = true) ∧
      (((order.arrange (store.rows.filter where_)).take n).map ReportExecution.id).Nodup := by
  have hperm := order.perm (store.rows.filter where_)
  constructor
  · intro r hr
    have hmem := hperm.mem_iff.mp (List.mem_of_mem_take hr)
    exact List.mem_filter.mp hmem
  · have hall : ((order.arrange (store.rows.filter where_)).map ReportExecution.id).Nodup :=
      (hperm.map ReportExecution.id).nodup_iff.mpr
        (store.ids.map_nodup.sublist (List.filter_sublist.map ReportExecution.id))
    exact hall.sublist ((List.take_sublist n _).map ReportExecution.id)

/-- A lease that lapsed, as the query finds it. -/
theorem expired_of_mem {organization_id : Option ℕ}
    (hr : r ∈ find_expired_leases m organization_id store) :
    r ∈ store.rows ∧ r.status.leased = true ∧ r.lease_expires_at.any (· < m.now) = true := by
  obtain ⟨hmem, hwhere⟩ := (query_rows store m.order _ 50).1 r hr
  simp only [Bool.and_eq_true] at hwhere
  exact ⟨hmem, hwhere.1⟩

/-- An execution that nobody claimed in time, as the query finds it. -/
theorem stale_of_mem {organization_id : Option ℕ}
    (hr : r ∈ find_stale_queued m organization_id store) :
    r ∈ store.rows ∧ r.status = .QUEUED ∧ r.queued_at + seconds r.timeout_seconds < m.db_now := by
  obtain ⟨hmem, hwhere⟩ := (query_rows store m.order _ 50).1 r hr
  simp only [Bool.and_eq_true, decide_eq_true_eq] at hwhere
  exact ⟨hmem, hwhere.1⟩

/-- **The rule of the reaper.** What is kept by the failure and the retry of a lease that
lapsed, and by the failure of an execution that nobody claimed, is kept by a reap. -/
theorem reap_keeps {I : Executions → Prop}
    (hexpired : ∀ {s s' : Executions} {r failed : ReportExecution} {diagnostics : Diagnostics}
      {retry : Option ReportExecution}, I s → r ∈ s.rows →
      r.lease_expires_at.any (· < m.now) = true →
      fail settings m.now r none .WORKER_LEASE_EXPIRED .TIMED_OUT none diagnostics = .ok failed →
      create_retry settings m failed (s.update r failed) = .ok (retry, s') → I s')
    (hstale : ∀ {s : Executions} {r failed : ReportExecution} {diagnostics : Diagnostics},
      I s → r ∈ s.rows → r.queued_at + seconds r.timeout_seconds < m.db_now →
      fail settings m.now r none .WORKER_OFFLINE .TIMED_OUT none diagnostics = .ok failed →
      I (s.update r failed))
    (h : I store) {organization_id : Option ℕ} {reaped : ℕ}
    (hok : reap_stale_executions settings m organization_id store = .ok (reaped, store')) :
    I store' := by
  rw [reap_stale_executions] at hok
  dsimp only at hok
  rw [bind_eq_ok_iff] at hok
  obtain ⟨between, hfirst, hok⟩ := hok
  rw [bind_eq_ok_iff] at hok
  obtain ⟨after, hsecond, hok⟩ := hok
  cases hok
  have hbetween : I between := by
    apply reapExpired_keeps _ h (fun r hr => (expired_of_mem hr).1)
      (query_rows store m.order _ 50).2 hfirst
    intro s s' r failed diagnostics retry hI hs hr
    exact hexpired hI hs (expired_of_mem hr).2.2
  apply reapStale_keeps _ hbetween (fun r hr => (stale_of_mem hr).1)
    (query_rows between m.order _ 50).2 hsecond
  intro s r failed diagnostics hI hs hr
  exact hstale hI hs (stale_of_mem hr).2.2

theorem reap_wellFormed (h : WellFormed store) {organization_id : Option ℕ} {reaped : ℕ}
    (hok : reap_stale_executions settings m organization_id store = .ok (reaped, store')) :
    WellFormed store' := by
  apply reap_keeps _ _ h hok
  · intro s s' r failed diagnostics retry hs hr _ hfail hretry
    exact fail_retry_wellFormed hs hr rfl (fun heq => by cases heq) hfail hretry
  · intro s r failed diagnostics hs hr _ hfail
    exact hs.move hr (fail_moved rfl hfail).1 fun heq => by cases heq

/-- The execution that waits longest is one of those that wait. -/
theorem mem_of_oldest {rows : List ReportExecution} (h : oldest rows = some r) : r ∈ rows := by
  induction rows generalizing r with
  | nil => cases h
  | cons q rest ih =>
    rw [oldest] at h
    rcases hrest : oldest rest with _ | p
    · rw [hrest, Option.some.injEq] at h
      rw [← h]
      exact List.mem_cons_self
    · rw [hrest] at h
      dsimp only at h
      split at h
      · rw [← Option.some.inj h]
        exact List.mem_cons_of_mem _ (ih hrest)
      · rw [← Option.some.inj h]
        exact List.mem_cons_self

/-- A claim hands out an execution of the table that is queued. -/
theorem claimCandidate_queued {worker : ReportWorker} {supported_formats : List String}
    {reports : List ReportDefinition}
    (h : claimCandidate m worker supported_formats reports store = some r) :
    r ∈ store.rows ∧ r.status = .QUEUED := by
  have hmem := (m.order.perm _).mem_iff.mp (mem_of_oldest h)
  rw [List.mem_filter] at hmem
  simp only [Bool.and_eq_true, decide_eq_true_eq] at hmem
  exact ⟨hmem.1, hmem.2.1.1.2⟩

theorem claim_next_wellFormed (h : WellFormed store) {worker : ReportWorker}
    {reports : List ReportDefinition} {handed : Option ReportExecution}
    (hok : claim_next settings m worker reports store = .ok (handed, store')) :
    WellFormed store' := by
  obtain ⟨reaped, between, hreap, hclaim⟩ := claim_next_ok hok
  have hbetween := reap_wellFormed h hreap
  rcases hclaim with rfl | ⟨supported_formats, r, hcandidate, rfl⟩
  · exact hbetween
  · obtain ⟨hr, hqueued⟩ := claimCandidate_queued hcandidate
    apply hbetween.update hr
    · intro htimed
      have hcompleted := htimed.completed
      rw [hqueued] at hcompleted
      exact ⟨rfl, hcompleted⟩
    · rw [hqueued]
      exact iff_of_false (fun heq => by cases heq) (fun heq => by cases heq)

/-- **Every request keeps the table well formed.** -/
theorem outcome_wellFormed (h : WellFormed store) {request : Request}
    (hok : outcome settings m request store = .ok store') : WellFormed store' := by
  cases request with
  | enqueue report workers organization_id trigger_type triggered_by key scheduled_for =>
    rw [outcome, map_eq_ok_iff] at hok
    obtain ⟨⟨result, _⟩, hok, rfl⟩ := hok
    exact enqueue_wellFormed h hok
  | claim_next worker reports =>
    rw [outcome, map_eq_ok_iff] at hok
    obtain ⟨⟨handed, _⟩, hok, rfl⟩ := hok
    exact claim_next_wellFormed h hok
  | start execution_id worker =>
    rw [outcome, map_eq_ok_iff] at hok
    obtain ⟨⟨started, _⟩, hok, rfl⟩ := hok
    obtain ⟨execution, hmem, -, hnew, rfl⟩ := start_job_ok hok
    exact h.move hmem (mark_started_moved hnew) fun heq => by cases heq
  | progress execution_id worker step =>
    rw [outcome, map_eq_ok_iff] at hok
    obtain ⟨⟨extended, _⟩, hok, rfl⟩ := hok
    obtain ⟨execution, hmem, -, hnew, rfl⟩ := report_progress_ok hok
    -- no transition: the status stays
    obtain ⟨-, hstatus, htimed⟩ := extend_lease_kept hnew
    exact h.update hmem htimed (by rw [hstatus])
  | complete execution_id worker trace_log diagnostics =>
    rw [outcome, map_eq_ok_iff] at hok
    obtain ⟨⟨succeeded, _⟩, hok, rfl⟩ := hok
    obtain ⟨execution, hmem, -, ⟨-, rfl⟩ | ⟨-, hnew, rfl⟩⟩ := complete_job_ok hok
    · exact h
    · exact h.move hmem (succeed_moved hnew) fun heq => by cases heq
  | fail execution_id worker error_code trace_log diagnostics =>
    rw [outcome, map_eq_ok_iff] at hok
    obtain ⟨⟨retry, _⟩, hok, rfl⟩ := hok
    obtain ⟨execution, hmem, -, failed, hfail, hretry⟩ := fail_job_ok hok
    exact fail_retry_wellFormed h hmem rfl (fun heq => by cases heq) hfail hretry
  | cancel execution_id organization_id =>
    rw [outcome, map_eq_ok_iff] at hok
    obtain ⟨⟨cancelled, _⟩, hok, rfl⟩ := hok
    obtain ⟨execution, hmem, -, hnew, rfl⟩ := cancel_execution_ok hok
    exact h.move hmem (cancel_moved hnew) fun heq => by cases heq
  | reap organization_id =>
    rw [outcome, map_eq_ok_iff] at hok
    obtain ⟨⟨reaped, _⟩, hok, rfl⟩ := hok
    exact reap_wellFormed h hok

theorem handle_wellFormed (h : WellFormed store) (request : Request) :
    WellFormed (handle settings m request store) := by
  rw [handle]
  rcases hok : outcome settings m request store with e | after
  · exact h
  · exact outcome_wellFormed h hok

theorem empty_wellFormed : WellFormed Executions.empty where
  timed := by simp [Executions.empty]
  attempts := by simp [Executions.empty, lineage]
  replaced := by simp [Executions.empty]
  parent := by simp [Executions.empty]
  later := by simp [Executions.empty]
  bounded := by simp [Executions.empty]
  same_max := by simp [Executions.empty]
  drawn := by simp [Executions.empty]

end Requests

/-! ## Runs -/

/-- The table after requests, each at its moment. -/
def tableAfter (settings : Settings) : List (Moment × Request) → Executions → Executions
  | [], store => store
  | (m, request) :: rest, store => tableAfter settings rest (handle settings m request store)

theorem tableAfter_append (settings : Settings) (before after : List (Moment × Request))
    (store : Executions) :
    tableAfter settings (before ++ after) store
      = tableAfter settings after (tableAfter settings before store) := by
  induction before generalizing store with
  | nil => rfl
  | cons request rest ih => exact ih _

theorem tableAfter_wellFormed {settings : Settings} {requests : List (Moment × Request)}
    {store : Executions} (h : WellFormed store) :
    WellFormed (tableAfter settings requests store) := by
  induction requests generalizing store with
  | nil => exact h
  | cons request rest ih => exact ih (handle_wellFormed h request.2)

/-- **After any sequence of requests the table is one of lifecycles.** -/
theorem lifecycle_of_requests (settings : Settings) (requests : List (Moment × Request)) :
    Lifecycle (tableAfter settings requests Executions.empty) :=
  (tableAfter_wellFormed empty_wellFormed).lifecycle

/-! ## A run -/

/-- Rows in the order in which they were inserted. -/
def insertionOrder : RowOrder := ⟨id, fun _ => List.Perm.refl _⟩

def at_ (now : Time) : Moment := ⟨now, now, insertionOrder⟩

/-- A worker that can do everything, and a report of its organization. -/
def ableWorker : ReportWorker :=
  ⟨1, 1, .ONLINE, some "hash", ["excel", "pafe_automation", "xlsx_export", "pdf_export"]⟩

def salesReport : ReportDefinition := ⟨1, 1, .ACTIVE, some 1, none, ["xlsx"], .absent⟩

/-- The report is run, and its first attempt fails for want of TM1. -/
def failedOnce : List (Moment × Request) :=
  [(at_ 0, .enqueue salesReport [ableWorker] 1 .MANUAL (some 7) "manual:1:7:20260101T0000" none),
    (at_ 10, .claim_next ableWorker [salesReport]),
    (at_ 20, .start 1 ableWorker),
    (at_ 30, .fail 1 ableWorker (some "tm1_connection_failed") none [])]

/-- The failed attempt is replaced by a second one. -/
example : (tableAfter defaultSettings failedOnce Executions.empty).rows.map
    (fun r => (r.status, r.attempt, r.parent_execution_id))
    = [(.RETRYING, 1, none), (.QUEUED, 2, some 1)] := by
  decide

end PaCopilot.reports
