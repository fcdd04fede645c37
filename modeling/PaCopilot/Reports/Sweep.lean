/-
A sweep of `reap_stale_executions` as one transaction over many rows.

`Executions.lean` sweeps a table that nobody else writes to and whose columns take
every value. Here the sweep runs in a session. The flush of a row fails when its
`duration_ms` leaves the column, an Integer of 32 bits; and the insert of a retry
fails when another transaction has committed that retry since it was looked up, upon
which `create_retry` rolls the session back.

Either happens to one row and reaches the others. A duration that does not fit is
raised out of the sweep, so that nothing is committed; a lost race rolls back what
the sweep did to the rows before. So the sweep does what it is for exactly when
neither happens ([`completes_iff`]), and it is the sweep of `Executions.lean` then
([`reap_eq_of_clean`]).
-/
import PaCopilot.Reports.Lifecycle
import PaCopilot.Reports.Rows
import Mathlib.Data.List.Basic

set_option autoImplicit false

namespace PaCopilot.reports.sweep

/-! ## The session -/

/-- What an Integer column holds at most. -/
def maxInteger : ℕ := 2147483647

/-- A session: the table as it is committed, the table with what the session wrote, and
whether a rollback has expired the instances that were read before it. -/
structure Session where
  committed : Executions
  store : Executions
  expired : Bool

/-- A session that has written nothing. -/
def Session.begin (store : Executions) : Session := ⟨store, store, false⟩

/-- The flush of one execution. -/
def Session.update (read new : ReportExecution) (s : Session) : Except AppException Session := do
  refuse (new.duration_ms.any (maxInteger < ·) = true) DataError
  return { s with store := s.store.update read new }

/-- An instance that was read: an expired one is read again. -/
def Session.loaded (execution : ReportExecution) (s : Session) :
    Except AppException ReportExecution :=
  if s.expired = false then .ok execution
  else
    match s.store.get_by_id execution.id with
    | some r => .ok r
    | none => .error (PythonError "ObjectDeletedError")

/-- What a sweep meets outside its transaction: when, if at all, another transaction
commits the retry of an execution between the lookup of its key and the insert; and
whether the session may read an expired instance again where the code does not await
it. -/
structure Surroundings where
  rival : ℕ → Option Time
  reloads : Bool

section Sweep

variable (settings : Settings) (m : Moment) (around : Surroundings)

/-- `create_retry`. -/
def create_retry (execution : ReportExecution) (s : Session) :
    Except AppException (Option ReportExecution × Session) :=
  if can_retry execution = false then .ok (none, s)
  else
    match s.store.get_by_idempotency_key execution.organization_id (retryKey execution) with
    | some existing => .ok (some existing, s)
    | none =>
      match around.rival execution.id with
      | none => do
        let (retry, stored) ← s.store.create (retryOf settings m.now execution)
        assert_transition execution.status .RETRYING
        let s ← Session.update execution { execution with status := .RETRYING }
          { s with store := stored }
        return (some retry, s)
      | some t => do
        -- the other transaction has committed: the insert raises an IntegrityError
        let (_winner, committed) ← s.committed.create (retryOf settings t execution)
        let s := Session.mk committed committed true
        refuse (around.reloads = false) (PythonError "MissingGreenlet")
        match s.store.get_by_idempotency_key execution.organization_id (retryKey execution) with
        | none => .error IntegrityError
        | some existing => return (some existing, s)

/-- What is recorded of a lease that lapsed. -/
def lapsed (execution : ReportExecution) : Diagnostics :=
  [("reaped", .flag true),
    ("lease_expired_at", match execution.lease_expires_at with
      | none => .null
      | some t => .time t)]

/-- The body of the loop over the leases that lapsed. -/
def reapOne (execution : ReportExecution) (s : Session) : Except AppException Session := do
  let execution ← s.loaded execution
  let failed ← fail settings m.now execution none .WORKER_LEASE_EXPIRED .TIMED_OUT none
    (lapsed execution)
  let s ← s.update execution failed
  let (_retry, s) ← create_retry settings m around failed s
  return s

def reapExpired : List ReportExecution → Session → Except AppException Session
  | [], s => .ok s
  | execution :: rest, s => do
    let s ← reapOne settings m around execution s
    reapExpired rest s

def reapStale : List ReportExecution → Session → Except AppException Session
  | [], s => .ok s
  | execution :: rest, s => do
    let failed ← fail settings m.now execution none .WORKER_OFFLINE .TIMED_OUT none
      [("reaped", .flag true), ("never_claimed", .flag true)]
    let s ← s.update execution failed
    reapStale rest s

/-- `reap_stale_executions`: how many executions it timed out. -/
def reap_stale_executions (organization_id : Option ℕ) (s : Session) :
    Except AppException (ℕ × Session) := do
  let expired := find_expired_leases m organization_id s.store
  let s ← reapExpired settings m around expired s
  let stale := find_stale_queued m organization_id s.store
  let s ← reapStale settings m stale s
  return (expired.length + stale.length, s)

/-- The executions that the two queries of a sweep return. -/
def selected (organization_id : Option ℕ) (store : Executions) : List ReportExecution :=
  let expired := find_expired_leases m organization_id store
  match reapExpired settings m around expired (Session.begin store) with
  | .ok s => expired ++ find_stale_queued m organization_id s.store
  | .error _ => expired

end Sweep

/-! ## What a sweep is for -/

/-- A retry is made of the execution, by a sweep that nothing disturbs. -/
def Retriable (store : Executions) (r : ReportExecution) : Prop :=
  r.status.leased = true ∧ r.attempt < r.max_attempts ∧
    store.get_by_idempotency_key r.organization_id (retryKey r) = none

instance (store : Executions) (r : ReportExecution) : Decidable (Retriable store r) :=
  inferInstanceAs (Decidable (_ ∧ _ ∧ _))

/-- The state that a sweep of the table owes a row: `RETRYING` where a retry is made of
it, and `TIMED_OUT` otherwise. -/
def owed (store : Executions) (r : ReportExecution) : ExecutionStatus :=
  if Retriable store r then .RETRYING else .TIMED_OUT

/-- The sweep completes, and every row that it selected is in the state it is owed. -/
def Completes (settings : Settings) (m : Moment) (around : Surroundings)
    (organization_id : Option ℕ) (store : Executions) : Prop :=
  ∃ reaped after,
    reap_stale_executions settings m around organization_id (Session.begin store)
      = .ok (reaped, after) ∧
    ∀ r ∈ selected settings m around organization_id store,
      ∃ q ∈ after.store.rows, q.id = r.id ∧ q.status = owed store r

/-- How long an execution has run, or waited, fits the column. -/
def Fits (now : Time) (r : ReportExecution) : Prop :=
  (now - r.started_at.getD r.queued_at) / 1000 ≤ maxInteger

/-- What keeps a sweep clean: no row it selects is too old, every retry it makes has a
key that fits its column, and nobody else makes one of them meanwhile. -/
structure Clean (settings : Settings) (m : Moment) (around : Surroundings)
    (organization_id : Option ℕ) (store : Executions) : Prop where
  fits : ∀ r ∈ selected settings m around organization_id store, Fits m.now r
  keys : ∀ r ∈ find_expired_leases m organization_id store, Retriable store r →
    (retryKey r).length ≤ 200
  alone : ∀ r ∈ find_expired_leases m organization_id store, Retriable store r →
    around.rival r.id = none

/-! ## The keys of retries -/

/-- A key without its last number and what separates it. -/
theorem retryKey_toList (r : ReportExecution) : (retryKey r).toList
    = r.idempotency_key.toList ++ '#' :: ('a' :: Nat.toDigits 10 (r.attempt + 1)) := by
  simp [retryKey, ToString.toString, Nat.toList_repr]

/-- Two executions whose retries have one key have one key. -/
theorem key_of_retryKey {r q : ReportExecution} (h : retryKey r = retryKey q) :
    r.idempotency_key = q.idempotency_key := by
  have hno : ∀ n, '#' ∉ 'a' :: Nat.toDigits 10 n := by
    intro n hmem
    rcases List.mem_cons.mp hmem with ha | hdigit
    · exact absurd ha (by decide)
    · have hisDigit := Nat.isDigit_of_mem_toDigits (by decide) (by decide) hdigit
      exact absurd hisDigit (by decide)
  have hlist := congrArg String.toList h
  rw [retryKey_toList, retryKey_toList, List.append_eq_append_iff] at hlist
  apply String.toList_inj.mp
  -- what one key has more than the other would put a separator into a number
  have hsame : ∀ (as : List Char) (n k : ℕ),
      '#' :: ('a' :: Nat.toDigits 10 n) = as ++ '#' :: ('a' :: Nat.toDigits 10 k) → as = [] := by
    intro as n k hrest
    rcases as with _ | ⟨c, as⟩
    · rfl
    · rw [List.cons_append, List.cons.injEq] at hrest
      have hmem : '#' ∈ as ++ '#' :: ('a' :: Nat.toDigits 10 k) :=
        List.mem_append_right as List.mem_cons_self
      rw [← hrest.2] at hmem
      exact absurd hmem (hno n)
  rcases hlist with ⟨as, hkey, hrest⟩ | ⟨as, hkey, hrest⟩
  · rw [hkey, hsame as _ _ hrest, List.append_nil]
  · rw [hkey, hsame as _ _ hrest, List.append_nil]

/-! ## The table under a sweep -/

section Table

variable {settings : Settings} {m : Moment} {store store' stored : Executions}
  {r q failed read new : ReportExecution}

theorem lookup_eq_none_iff {organization_id : ℕ} {key : String} :
    store.get_by_idempotency_key organization_id key = none ↔
      (organization_id, key) ∉ store.rows.map ReportExecution.uniqueKey := by
  simp [Executions.get_by_idempotency_key, List.find?_eq_none]

theorem update_keys : (store.update read new).rows.map ReportExecution.uniqueKey
    = store.rows.map ReportExecution.uniqueKey := by
  rw [Executions.update_rows, List.map_map]
  refine List.map_congr_left fun q _ => ?_
  dsimp only [Function.comp]
  split <;> rfl

/-- A failure records how long the execution took. -/
theorem fail_duration {error_code : ReportErrorCode} {diagnostics : Diagnostics}
    (h : fail settings m.now r none error_code .TIMED_OUT none diagnostics = .ok failed) :
    failed.duration_ms = some ((m.now - r.started_at.getD r.queued_at) / 1000) := by
  obtain ⟨-, -, rfl⟩ := fail_eq h
  rfl

/-- What is not over can time out. -/
theorem fail_of_open {error_code : ReportErrorCode} {diagnostics : Diagnostics}
    (hopen : r.status.terminal = false) :
    ∃ failed, fail settings m.now r none error_code .TIMED_OUT none diagnostics = .ok failed := by
  have hallowed : can_transition r.status .TIMED_OUT = true := by
    rcases hstatus : r.status with _ | _ | _ | _ | _ | _ | _ | _ <;>
      simp [hstatus, ExecutionStatus.terminal, can_transition, _ALLOWED] at hopen ⊢
  unfold fail
  dsimp only [bind, Except.bind]
  rw [(assert_transition_ok (u := ())).mpr hallowed]
  exact ⟨_, rfl⟩

theorem open_of_leased {status : ExecutionStatus} (h : status.leased = true) :
    status.terminal = false := by
  cases status <;> simp [ExecutionStatus.terminal, ExecutionStatus.leased] at h ⊢

/-- A lapsed lease has been timed out, and its execution tried again where that is due. -/
structure Reaped (store : Executions) (r : ReportExecution) (store' : Executions) : Prop where
  row : ∃ q ∈ store'.rows, q.id = r.id ∧ q.status = owed store r
  others : ∀ q ∈ store.rows, q.id ≠ r.id → q ∈ store'.rows
  keys : ∀ q : ReportExecution, (q.organization_id, retryKey q) ≠ (r.organization_id, retryKey r) →
    (Retriable store' q ↔ Retriable store q)

/-- A lapsed execution may be retried when attempts remain. -/
theorem can_retry_failed {diagnostics : Diagnostics}
    (h : fail settings m.now r none .WORKER_LEASE_EXPIRED .TIMED_OUT none diagnostics
      = .ok failed) :
    can_retry failed = true ↔ r.attempt < r.max_attempts := by
  obtain ⟨hmoved, hclass⟩ := fail_moved rfl h
  rw [can_retry, hclass, hmoved.same.attempt, hmoved.same.max_attempts]
  simp [retry_class_for]

theorem retryKey_failed {diagnostics : Diagnostics} {error_code : ReportErrorCode}
    (h : fail settings m.now r none error_code .TIMED_OUT none diagnostics = .ok failed) :
    retryKey failed = retryKey r := by
  have hsame := (fail_moved rfl h).1.same
  rw [retryKey, retryKey, hsame.idempotency_key, hsame.attempt]

/-- The lookup of `create_retry`, after the failure was written. -/
theorem lookup_failed (store : Executions) {diagnostics : Diagnostics}
    {error_code : ReportErrorCode}
    (h : fail settings m.now r none error_code .TIMED_OUT none diagnostics = .ok failed) :
    (store.update r failed).get_by_idempotency_key failed.organization_id (retryKey failed) = none ↔
      store.get_by_idempotency_key r.organization_id (retryKey r) = none := by
  rw [lookup_eq_none_iff, lookup_eq_none_iff, update_keys, retryKey_failed h,
    (fail_moved rfl h).1.same.organization_id]

variable {diagnostics : Diagnostics} {retry : Option ReportExecution}

/-- The failure of a lapsed execution, and its retry. -/
theorem reaped_of_retry (hr : r ∈ store.rows) (hleased : r.status.leased = true)
    (hfail : fail settings m.now r none .WORKER_LEASE_EXPIRED .TIMED_OUT none diagnostics
      = .ok failed)
    (hretry : reports.create_retry settings m failed (store.update r failed)
      = .ok (retry, store')) : Reaped store r store' := by
  obtain ⟨hmoved, -⟩ := fail_moved rfl hfail
  have hid : failed.id = r.id := hmoved.same.id
  have hcan := can_retry_failed hfail
  have hlookup := lookup_failed store hfail
  have hothers : ∀ q ∈ store.rows, q.id ≠ r.id → q ∈ store'.rows := by
    intro q hq hne
    exact mem_create_retry_of_ne (Executions.mem_update_of_ne hq hne) (by rwa [hid]) hretry
  have hrow : flush r failed r ∈ (store.update r failed).rows := Executions.mem_update_self hr rfl
  rcases create_retry_inv hretry with ⟨rfl, hnot⟩ | ⟨⟨hmay, hnone⟩, created, stored, hcreate, rfl⟩
  · -- no attempt is left, or the next one is there
    have howed : owed store r = .TIMED_OUT := by
      refine if_neg fun hretriable => hnot ?_
      exact ⟨hcan.mpr hretriable.2.1, hlookup.mpr hretriable.2.2⟩
    refine ⟨⟨_, hrow, rfl, ?_⟩, hothers, ?_⟩
    · rw [flush_self_status, hmoved.status, howed]
    · intro q _
      rw [Retriable, Retriable, lookup_eq_none_iff, lookup_eq_none_iff, update_keys]
  · -- the next attempt is made, and the row is marked
    have howed : owed store r = .RETRYING :=
      if_pos ⟨hleased, hcan.mp hmay, hlookup.mp hnone⟩
    obtain ⟨hcreated, hrows, -⟩ := Executions.create_ok hcreate
    have hrow' : flush r failed r ∈ stored.rows := by
      rw [hrows]
      exact List.mem_append_left _ hrow
    have hopen : failed.status ≠ .RETRYING := by
      rw [hmoved.status]
      exact fun heq => by cases heq
    refine ⟨⟨_, Executions.mem_update_self hrow' hid.symm, rfl, ?_⟩, hothers, ?_⟩
    · rw [flush_marked_status hopen, howed]
    · intro q hne
      have hkey : created.uniqueKey = (r.organization_id, retryKey r) := by
        rw [hcreated, ReportExecution.uniqueKey, ← retryKey_failed hfail,
          ← hmoved.same.organization_id]
        rfl
      rw [Retriable, Retriable, lookup_eq_none_iff, lookup_eq_none_iff, update_keys, hrows,
        List.map_append, update_keys, List.mem_append, List.map_singleton, List.mem_singleton, hkey]
      simp only [hne, or_false]

/-- What stands in the way of the retry of a lapsed execution is its key alone. -/
theorem retry_of_key (hfail : fail settings m.now r none .WORKER_LEASE_EXPIRED .TIMED_OUT none
      diagnostics = .ok failed) (hleased : r.status.leased = true)
    (hkey : Retriable store r → (retryKey r).length ≤ 200) :
    ∃ retry store', reports.create_retry settings m failed (store.update r failed)
      = .ok (retry, store') := by
  obtain ⟨hmoved, -⟩ := fail_moved rfl hfail
  unfold reports.create_retry
  by_cases hcan : can_retry failed = false
  · rw [if_pos hcan]
    exact ⟨_, _, rfl⟩
  rw [if_neg hcan]
  rw [Bool.not_eq_false] at hcan
  rcases hexisting : (store.update r failed).get_by_idempotency_key failed.organization_id
    (retryKey failed) with _ | existing
  swap
  · exact ⟨_, _, rfl⟩
  have hshort := hkey
    ⟨hleased, (can_retry_failed hfail).mp hcan, (lookup_failed _ hfail).mp hexisting⟩
  have hallowed : assert_transition failed.status .RETRYING = .ok () := by
    rw [assert_transition_ok, hmoved.status]
    rfl
  obtain ⟨created, stored, hcreate⟩ : ∃ created stored,
      (store.update r failed).create (retryOf settings m.now failed) = .ok (created, stored) := by
    rw [Executions.create_iff]
    refine ⟨?_, hexisting⟩
    rw [← retryKey_failed hfail] at hshort
    exact hshort
  dsimp only [bind, Except.bind]
  rw [hcreate, hallowed]
  exact ⟨_, _, rfl⟩

end Table

/-! ## One row -/

section Row

variable {settings : Settings} {m : Moment} {around : Surroundings} {s s' : Session}
  {execution failed r q : ReportExecution}

theorem update_eq_ok_iff {read new : ReportExecution} :
    s.update read new = .ok s' ↔
      (∀ d ∈ new.duration_ms, d ≤ maxInteger) ∧
        s' = { s with store := s.store.update read new } := by
  unfold Session.update
  rw [bind_eq_ok_iff]
  simp only [refuse_eq_ok_iff, Option.any_eq_true, decide_eq_true_eq, not_exists, not_and,
    Nat.not_lt, exists_const, Option.mem_def]
  refine and_congr Iff.rfl ⟨fun h => (Except.ok.inj h).symm, fun h => ?_⟩
  rw [h]
  rfl

theorem loaded_id (h : s.loaded execution = .ok r) : r.id = execution.id := by
  unfold Session.loaded at h
  split at h
  · rw [Except.ok.inj h]
  · split at h
    · rename_i found hget
      rw [← Except.ok.inj h]
      exact Executions.get_by_id_id hget
    · cases h

/-- The rollback after a lost race: what the session wrote is gone, and the winner is
there. -/
structure RolledBack (s s' : Session) : Prop where
  store : s'.store = s'.committed
  expired : s'.expired = true
  kept : ∀ q ∈ s.committed.rows, q ∈ s'.committed.rows

/-- A retry is made of an execution, or none is called for, or the race is lost. -/
theorem create_retry_cases {retry : Option ReportExecution}
    (h : create_retry settings m around execution s = .ok (retry, s')) :
    (∃ stored, reports.create_retry settings m execution s.store = .ok (retry, stored) ∧
        s' = { s with store := stored } ∧
        (¬ (can_retry execution = true ∧ s.store.get_by_idempotency_key execution.organization_id
          (retryKey execution) = none) ∨ around.rival execution.id = none)) ∨
      RolledBack s s' := by
  unfold create_retry at h
  unfold reports.create_retry
  by_cases hcan : can_retry execution = false
  · rw [if_pos hcan] at h ⊢
    cases h
    exact .inl ⟨_, rfl, rfl, .inl fun hmay => by simp [hcan] at hmay⟩
  rw [if_neg hcan] at h ⊢
  rcases hexisting : s.store.get_by_idempotency_key execution.organization_id (retryKey execution)
    with _ | existing
  swap
  · rw [hexisting] at h
    cases h
    exact .inl ⟨_, rfl, rfl, .inl fun hmay => by cases hmay.2⟩
  rw [hexisting] at h
  dsimp only at h
  -- whether another process commits the same retry before this flush
  rcases hrival : around.rival execution.id with _ | t
  · rw [hrival] at h
    dsimp only at h ⊢
    rw [bind_eq_ok_iff] at h
    obtain ⟨⟨created, stored⟩, hcreate, h⟩ := h
    rw [bind_eq_ok_iff] at h
    obtain ⟨_, hallowed, h⟩ := h
    rw [bind_eq_ok_iff] at h
    obtain ⟨s'', hupdate, h⟩ := h
    cases h
    rw [update_eq_ok_iff] at hupdate
    left
    refine ⟨_, ?_, hupdate.2, .inr rfl⟩
    rw [hcreate]
    dsimp only [bind, Except.bind]
    rw [hallowed]
    rfl
  · rw [hrival] at h
    dsimp only at h
    rw [bind_eq_ok_iff] at h
    obtain ⟨⟨winner, committed⟩, hcreate, h⟩ := h
    rw [bind_eq_ok_iff] at h
    obtain ⟨_, -, h⟩ := h
    -- the flush meets the rival's row, and the session is rolled back
    obtain ⟨-, hrows, -⟩ := Executions.create_ok hcreate
    split at h
    · cases h
    · cases h
      refine .inr ⟨rfl, rfl, ?_⟩
      intro q hq
      rw [hrows]
      exact List.mem_append_left _ hq

/-- The body of the loop over the leases that lapsed: the row it loads has a duration
that fits, and it is reaped or the session is rolled back. -/
theorem reapOne_cases (h : reapOne settings m around execution s = .ok s') :
    ∃ r failed, s.loaded execution = .ok r ∧
      fail settings m.now r none .WORKER_LEASE_EXPIRED .TIMED_OUT none (lapsed r) = .ok failed ∧
      Fits m.now r ∧
      ((∃ retry stored, reports.create_retry settings m failed (s.store.update r failed)
          = .ok (retry, stored) ∧ s' = { s with store := stored } ∧
          (¬ (can_retry failed = true ∧ (s.store.update r failed).get_by_idempotency_key
            failed.organization_id (retryKey failed) = none) ∨ around.rival r.id = none)) ∨
        RolledBack s s') := by
  unfold reapOne at h
  rw [bind_eq_ok_iff] at h
  obtain ⟨r, hloaded, h⟩ := h
  rw [bind_eq_ok_iff] at h
  obtain ⟨failed, hfail, h⟩ := h
  rw [bind_eq_ok_iff] at h
  obtain ⟨written, hupdate, h⟩ := h
  rw [bind_eq_ok_iff] at h
  obtain ⟨⟨retry, s''⟩, hretry, h⟩ := h
  cases h
  rw [update_eq_ok_iff] at hupdate
  obtain ⟨hduration, rfl⟩ := hupdate
  have hfits : Fits m.now r := hduration _ (fail_duration hfail)
  refine ⟨r, failed, hloaded, hfail, hfits, ?_⟩
  rcases create_retry_cases hretry with ⟨stored, hcreate, rfl, hrival⟩ | hback
  · have hid : failed.id = r.id := (fail_moved rfl hfail).1.same.id
    rw [hid] at hrival
    exact .inl ⟨retry, stored, hcreate, rfl, hrival⟩
  · exact .inr ⟨hback.store, hback.expired, hback.kept⟩

/-- A retry that nothing disturbs. -/
theorem create_retry_of_clean {retry : Option ReportExecution} {stored : Executions}
    (hbase : reports.create_retry settings m execution s.store = .ok (retry, stored))
    (hduration : ∀ d ∈ execution.duration_ms, d ≤ maxInteger)
    (hrival : ¬ (can_retry execution = true ∧ s.store.get_by_idempotency_key
      execution.organization_id (retryKey execution) = none) ∨ around.rival execution.id = none) :
    create_retry settings m around execution s = .ok (retry, { s with store := stored }) := by
  unfold reports.create_retry at hbase
  unfold create_retry
  by_cases hcan : can_retry execution = false
  · rw [if_pos hcan] at hbase ⊢
    cases hbase
    rfl
  rw [if_neg hcan] at hbase ⊢
  rw [Bool.not_eq_false] at hcan
  rcases hexisting : s.store.get_by_idempotency_key execution.organization_id (retryKey execution)
    with _ | existing
  swap
  · rw [hexisting] at hbase
    cases hbase
    rfl
  -- a retry is made, so there is no rival
  have hnobody : around.rival execution.id = none :=
    hrival.resolve_left (not_not.mpr ⟨hcan, hexisting⟩)
  rw [hexisting] at hbase
  dsimp only at hbase ⊢
  rw [hnobody]
  rw [bind_eq_ok_iff] at hbase
  obtain ⟨⟨created, store'⟩, hcreate, hbase⟩ := hbase
  rw [bind_eq_ok_iff] at hbase
  obtain ⟨_, hallowed, hbase⟩ := hbase
  cases hbase
  have hwritten : Session.update execution { execution with status := .RETRYING }
      { s with store := store' } = .ok { s with
        store := store'.update execution { execution with status := .RETRYING } } :=
    update_eq_ok_iff.mpr ⟨hduration, rfl⟩
  dsimp only [bind, Except.bind]
  rw [hcreate]
  dsimp only
  rw [hallowed]
  dsimp only
  rw [hwritten]
  rfl

/-- The body of the loop where nothing disturbs it. -/
theorem reapOne_of_clean (settings : Settings) (hfresh : s.expired = false)
    (hleased : r.status.leased = true) (hfits : Fits m.now r)
    (hclean : Retriable s.store r → (retryKey r).length ≤ 200 ∧ around.rival r.id = none) :
    ∃ failed retry stored,
      fail settings m.now r none .WORKER_LEASE_EXPIRED .TIMED_OUT none (lapsed r) = .ok failed ∧
      reports.create_retry settings m failed (s.store.update r failed) = .ok (retry, stored) ∧
      reapOne settings m around r s = .ok { s with store := stored } := by
  obtain ⟨failed, hfail⟩ : ∃ failed, fail settings m.now r none .WORKER_LEASE_EXPIRED .TIMED_OUT
      none (lapsed r) = .ok failed := fail_of_open (open_of_leased hleased)
  obtain ⟨retry, stored, hretry⟩ := retry_of_key hfail hleased fun h => (hclean h).1
  refine ⟨failed, retry, stored, hfail, hretry, ?_⟩
  have hid : failed.id = r.id := (fail_moved rfl hfail).1.same.id
  have hduration : ∀ d ∈ failed.duration_ms, d ≤ maxInteger := by
    intro d hd
    rw [fail_duration hfail, Option.mem_some_iff] at hd
    rw [← hd]
    exact hfits
  have hloaded : s.loaded r = .ok r := if_pos hfresh
  have hwritten : s.update r failed = .ok { s with store := s.store.update r failed } :=
    update_eq_ok_iff.mpr ⟨hduration, rfl⟩
  have hsession : create_retry settings m around failed { s with store := s.store.update r failed }
      = .ok (retry, { s with store := stored }) := by
    apply create_retry_of_clean hretry hduration
    -- the failure keeps the key, so a retry is due of it when one was due of the row
    by_cases hmay : can_retry failed = true ∧ (s.store.update r failed).get_by_idempotency_key
        failed.organization_id (retryKey failed) = none
    · right
      rw [hid]
      exact (hclean ⟨hleased, (can_retry_failed hfail).mp hmay.1, (lookup_failed _ hfail).mp
        hmay.2⟩).2
    · exact .inl hmay
  unfold reapOne
  rw [hloaded]
  dsimp only [bind, Except.bind]
  rw [hfail]
  dsimp only
  rw [hwritten]
  dsimp only
  rw [hsession]
  rfl

end Row

/-! ## The leases that lapsed -/

section Expired

variable {settings : Settings} {m : Moment} {around : Surroundings} {s s' : Session}
  {base : Executions} {r q : ReportExecution} {rest expired : List ReportExecution}

/-- The session before the rows that are left: each is as the query found it, and its
retry is due as it was then. -/
structure Ready (base : Executions) (rest : List ReportExecution) (s : Session) : Prop where
  fresh : s.expired = false
  committed : s.committed = base
  ids : (rest.map ReportExecution.id).Nodup
  found : ∀ r ∈ rest, r ∈ base.rows ∧ r.status.leased = true
  rows : ∀ r ∈ rest, r ∈ s.store.rows
  due : ∀ r ∈ rest, Retriable s.store r ↔ Retriable base r

/-- A row that was reaped leaves the session ready for the others. -/
theorem Ready.next {stored : Executions} (h : Ready base (r :: rest) s)
    (hreaped : Reaped s.store r stored) : Ready base rest { s with store := stored } := by
  have hids := h.ids
  rw [List.map_cons, List.nodup_cons] at hids
  have hne : ∀ q ∈ rest, q.id ≠ r.id := by
    intro q hq heq
    exact hids.1 (heq ▸ List.mem_map_of_mem hq)
  have hmem : ∀ q ∈ rest, q ∈ r :: rest := fun q hq => List.mem_cons_of_mem r hq
  constructor
  case fresh => exact h.fresh
  case committed => exact h.committed
  case ids => exact hids.2
  case found => exact fun q hq => h.found q (hmem q hq)
  case rows => exact fun q hq => hreaped.others q (h.rows q (hmem q hq)) (hne q hq)
  case due =>
    intro q hq
    rw [← h.due q (hmem q hq)]
    apply hreaped.keys
    intro heq
    rw [Prod.mk.injEq] at heq
    -- one key for two retries would be one key for two rows
    have hkey : q.uniqueKey = r.uniqueKey := by
      rw [ReportExecution.uniqueKey, ReportExecution.uniqueKey, heq.1, key_of_retryKey heq.2]
    have hsame := base.uq_report_executions_org_idempotency_key.eq (h.found q (hmem q hq)).1
      (h.found r List.mem_cons_self).1 rfl rfl hkey
    exact hne q hq (by rw [hsame])

/-- The first row, reaped. -/
theorem Ready.reaped {failed : ReportExecution} {retry : Option ReportExecution}
    {stored : Executions} (h : Ready base (r :: rest) s)
    (hfail : fail settings m.now r none .WORKER_LEASE_EXPIRED .TIMED_OUT none (lapsed r)
      = .ok failed)
    (hretry : reports.create_retry settings m failed (s.store.update r failed)
      = .ok (retry, stored)) : Reaped s.store r stored :=
  reaped_of_retry (h.rows r List.mem_cons_self) (h.found r List.mem_cons_self).2 hfail hretry

/-- What a sweep leaves of the rows it went through, and of the others. -/
structure Swept (base : Executions) (rest : List ReportExecution) (s s' : Session) : Prop where
  row : ∀ r ∈ rest, ∃ q ∈ s'.store.rows, q.id = r.id ∧ q.status = owed base r
  others : ∀ q ∈ s.store.rows, q.id ∉ rest.map ReportExecution.id → q ∈ s'.store.rows

theorem Swept.cons {stored : Executions} (h : Ready base (r :: rest) s)
    (hreaped : Reaped s.store r stored) (hswept : Swept base rest { s with store := stored } s') :
    Swept base (r :: rest) s s' := by
  have hids := h.ids
  rw [List.map_cons, List.nodup_cons] at hids
  constructor
  · intro q hq
    rcases List.mem_cons.mp hq with rfl | hq
    · obtain ⟨row, hrow, hid, hstatus⟩ := hreaped.row
      refine ⟨row, hswept.others row hrow (by rw [hid]; exact hids.1), hid, ?_⟩
      have hdue := h.due q List.mem_cons_self
      rw [hstatus, owed, owed]
      simp only [hdue]
    · exact hswept.row q hq
  · intro q hq hnot
    rw [List.map_cons, List.mem_cons, not_or] at hnot
    exact hswept.others q (hreaped.others q hq hnot.1) hnot.2

/-- The loop over a table, with the names of this one. -/
theorem reapExpired_cons (store : Executions) :
    reports.reapExpired settings m (r :: rest) store
      = fail settings m.now r none .WORKER_LEASE_EXPIRED .TIMED_OUT none (lapsed r) >>=
          fun failed => reports.create_retry settings m failed (store.update r failed) >>=
            fun made => reports.reapExpired settings m rest made.2 := rfl

/-- Where nothing disturbs it, the loop goes through its rows, as it does over a table. -/
theorem reapExpired_of_clean (h : Ready base expired s)
    (hfits : ∀ r ∈ expired, Fits m.now r)
    (hclean : ∀ r ∈ expired, Retriable base r →
      (retryKey r).length ≤ 200 ∧ around.rival r.id = none) :
    ∃ stored, reapExpired settings m around expired s = .ok { s with store := stored } ∧
      reports.reapExpired settings m expired s.store = .ok stored ∧
      Swept base expired s { s with store := stored } := by
  induction expired generalizing s with
  | nil =>
    refine ⟨s.store, rfl, rfl, fun r hr => absurd hr List.not_mem_nil, fun q hq _ => hq⟩
  | cons r rest ih =>
    have hmem : ∀ q ∈ rest, q ∈ r :: rest := fun q hq => List.mem_cons_of_mem r hq
    obtain ⟨failed, retry, stored, hfail, hretry, hone⟩ := reapOne_of_clean settings
      h.fresh (h.found r List.mem_cons_self).2 (hfits r List.mem_cons_self) fun hdue =>
        hclean r List.mem_cons_self ((h.due r List.mem_cons_self).mp hdue)
    have hreaped := h.reaped hfail hretry
    obtain ⟨after, hrest, hbase, hswept⟩ := ih (h.next hreaped)
      (fun q hq => hfits q (hmem q hq)) (fun q hq => hclean q (hmem q hq))
    refine ⟨after, ?_, ?_, Swept.cons h hreaped hswept⟩
    · rw [reapExpired, hone]
      exact hrest
    · rw [reapExpired_cons, hfail]
      dsimp only [bind, Except.bind]
      rw [hretry]
      exact hbase

/-- A row that the loop does not meet stays, committed and in the session. -/
theorem reapExpired_kept (hok : reapExpired settings m around rest s = .ok s')
    (hq : q ∈ s.committed.rows ∧ q ∈ s.store.rows) (hnot : q.id ∉ rest.map ReportExecution.id) :
    q ∈ s'.committed.rows ∧ q ∈ s'.store.rows := by
  induction rest generalizing s with
  | nil =>
    cases hok
    exact hq
  | cons execution rest ih =>
    rw [reapExpired, bind_eq_ok_iff] at hok
    obtain ⟨between, hone, hok⟩ := hok
    rw [List.map_cons, List.mem_cons, not_or] at hnot
    refine ih hok ?_ hnot.2
    obtain ⟨r, failed, hloaded, hfail, -, hcases⟩ := reapOne_cases hone
    have hid : q.id ≠ r.id := by
      rw [loaded_id hloaded]
      exact hnot.1
    rcases hcases with ⟨retry, stored, hretry, rfl, -⟩ | hback
    · refine ⟨hq.1, mem_create_retry_of_ne (Executions.mem_update_of_ne hq.2 hid) ?_ hretry⟩
      rw [(fail_moved rfl hfail).1.same.id]
      exact hid
    · rw [hback.store]
      exact ⟨hback.kept q hq.1, hback.kept q hq.1⟩

/-- A loop that returned met no row that is too old. It met no rival either, or else one
of its rows is as it was. -/
theorem reapExpired_cases (h : Ready base expired s)
    (hok : reapExpired settings m around expired s = .ok s') :
    ((∀ r ∈ expired, Fits m.now r) ∧ (∀ r ∈ expired, Retriable base r →
        (retryKey r).length ≤ 200 ∧ around.rival r.id = none)) ∨
      ∃ r ∈ expired, r ∈ s'.store.rows := by
  induction expired generalizing s with
  | nil =>
    exact .inl ⟨fun r hr => absurd hr List.not_mem_nil, fun r hr => absurd hr List.not_mem_nil⟩
  | cons r rest ih =>
    rw [reapExpired, bind_eq_ok_iff] at hok
    obtain ⟨between, hone, hok⟩ := hok
    obtain ⟨loaded, failed, hloaded, hfail, hfits, hcases⟩ := reapOne_cases hone
    -- nothing has been rolled back so far, so the row is the one that was read
    have hsame : loaded = r := by
      unfold Session.loaded at hloaded
      rw [if_pos h.fresh] at hloaded
      exact (Except.ok.inj hloaded).symm
    subst hsame
    rcases hcases with ⟨retry, stored, hretry, rfl, hrival⟩ | hback
    · rcases ih (h.next (h.reaped hfail hretry)) hok with ⟨hold, hrivals⟩ | ⟨q, hq, hstays⟩
      · left
        constructor
        · intro q hq
          rcases List.mem_cons.mp hq with rfl | hq
          · exact hfits
          · exact hold q hq
        · intro q hq hdue
          rcases List.mem_cons.mp hq with rfl | hq
          · have hmay : can_retry failed = true ∧ (s.store.update q failed).get_by_idempotency_key
                failed.organization_id (retryKey failed) = none := by
              have hdue' := (h.due q List.mem_cons_self).mpr hdue
              exact ⟨(can_retry_failed hfail).mpr hdue'.2.1, (lookup_failed _ hfail).mpr hdue'.2.2⟩
            refine ⟨?_, hrival.resolve_left (not_not.mpr hmay)⟩
            rcases create_retry_inv hretry with ⟨-, hnot⟩ | ⟨-, created, stored', hcreate, -⟩
            · exact absurd hmay hnot
            · have hkey := (Executions.create_iff.mp ⟨created, stored', hcreate⟩).1
              rw [← retryKey_failed hfail]
              exact hkey
          · exact hrivals q hq hdue
      · exact .inr ⟨q, List.mem_cons_of_mem _ hq, hstays⟩
    · -- the race is lost: the row is rolled back, and the loop does not come to it again
      right
      have hids := h.ids
      rw [List.map_cons, List.nodup_cons] at hids
      have hcommitted : loaded ∈ between.committed.rows := by
        apply hback.kept
        rw [h.committed]
        exact (h.found loaded List.mem_cons_self).1
      have hstays := reapExpired_kept hok ⟨hcommitted, by rw [hback.store]; exact hcommitted⟩ hids.1
      exact ⟨loaded, List.mem_cons_self, hstays.2⟩

end Expired

/-! ## The executions nobody claimed -/

section Stale

variable {settings : Settings} {m : Moment} {s s' : Session} {q : ReportExecution}
  {stale : List ReportExecution}

/-- A loop that returned met no row that is too old, and timed each of them out. -/
theorem reapStale_cases (hrows : ∀ r ∈ stale, r ∈ s.store.rows)
    (hids : (stale.map ReportExecution.id).Nodup)
    (hok : reapStale settings m stale s = .ok s') :
    (∀ r ∈ stale, Fits m.now r) ∧
      (∀ r ∈ stale, ∃ q ∈ s'.store.rows, q.id = r.id ∧ q.status = .TIMED_OUT) ∧
      ∀ q ∈ s.store.rows, q.id ∉ stale.map ReportExecution.id → q ∈ s'.store.rows := by
  induction stale generalizing s with
  | nil =>
    cases hok
    exact ⟨fun r hr => absurd hr List.not_mem_nil, fun r hr => absurd hr List.not_mem_nil,
      fun q hq _ => hq⟩
  | cons r rest ih =>
    rw [reapStale, bind_eq_ok_iff] at hok
    obtain ⟨failed, hfail, hok⟩ := hok
    rw [bind_eq_ok_iff] at hok
    obtain ⟨written, hupdate, hok⟩ := hok
    rw [update_eq_ok_iff] at hupdate
    obtain ⟨hduration, rfl⟩ := hupdate
    rw [List.map_cons, List.nodup_cons] at hids
    have hr := hrows r List.mem_cons_self
    have hne : ∀ q ∈ rest, q.id ≠ r.id := by
      intro q hq heq
      exact hids.1 (heq ▸ List.mem_map_of_mem hq)
    -- the rows that are still to come are not touched by this one
    have hrest : ∀ q ∈ rest, q ∈ (s.store.update r failed).rows := fun q hq =>
      Executions.mem_update_of_ne (hrows q (List.mem_cons_of_mem r hq)) (hne q hq)
    obtain ⟨hfits, hended, hothers⟩ := ih hrest hids.2 hok
    refine ⟨?_, ?_, ?_⟩
    · intro q hq
      rcases List.mem_cons.mp hq with rfl | hq
      · exact hduration _ (fail_duration hfail)
      · exact hfits q hq
    · intro q hq
      rcases List.mem_cons.mp hq with rfl | hq
      · refine ⟨_, hothers _ (Executions.mem_update_self hr rfl) hids.1, rfl, ?_⟩
        rw [flush_self_status]
        exact (fail_moved rfl hfail).1.status
      · exact hended q hq
    · intro q hq hnot
      rw [List.map_cons, List.mem_cons, not_or] at hnot
      exact hothers q (Executions.mem_update_of_ne hq hnot.1) hnot.2

/-- Where no row is too old, the loop goes through its rows, as it does over a table. -/
theorem reapStale_of_fits (settings : Settings) (hqueued : ∀ r ∈ stale, r.status = .QUEUED)
    (hfits : ∀ r ∈ stale, Fits m.now r) :
    ∃ stored, reapStale settings m stale s = .ok { s with store := stored } ∧
      reports.reapStale settings m stale s.store = .ok stored := by
  induction stale generalizing s with
  | nil => exact ⟨s.store, rfl, rfl⟩
  | cons r rest ih =>
    have hopen : r.status.terminal = false := by
      rw [hqueued r List.mem_cons_self]
      rfl
    obtain ⟨failed, hfail⟩ : ∃ failed, fail settings m.now r none .WORKER_OFFLINE .TIMED_OUT none
        [("reaped", .flag true), ("never_claimed", .flag true)] = .ok failed := fail_of_open hopen
    have hduration : ∀ d ∈ failed.duration_ms, d ≤ maxInteger := by
      intro d hd
      rw [fail_duration hfail, Option.mem_some_iff] at hd
      rw [← hd]
      exact hfits r List.mem_cons_self
    have hwritten : s.update r failed = .ok { s with store := s.store.update r failed } :=
      update_eq_ok_iff.mpr ⟨hduration, rfl⟩
    obtain ⟨stored, hrest, hbase⟩ := ih (s := { s with store := s.store.update r failed })
      (fun q hq => hqueued q (List.mem_cons_of_mem r hq))
      (fun q hq => hfits q (List.mem_cons_of_mem r hq))
    refine ⟨stored, ?_, ?_⟩
    · rw [reapStale, hfail]
      dsimp only [bind, Except.bind]
      rw [hwritten]
      exact hrest
    · rw [reports.reapStale, hfail]
      exact hbase

end Stale

/-! ## A whole sweep -/

section Whole

variable {settings : Settings} {m : Moment} {around : Surroundings} {organization_id : Option ℕ}
  {store : Executions} {s : Session} {r : ReportExecution}

/-- A row that is not queued is none of the stale ones. -/
theorem not_stale (hr : r ∈ store.rows) (hstatus : r.status ≠ .QUEUED) :
    r.id ∉ (find_stale_queued m organization_id store).map ReportExecution.id := by
  intro hmem
  obtain ⟨q, hq, hid⟩ := List.mem_map.mp hmem
  obtain ⟨hqmem, hqueued, -⟩ := stale_of_mem hq
  rw [store.eq_of_id hqmem hr hid] at hqueued
  exact hstatus hqueued

/-- The session of a sweep is ready for the rows that it selects first. -/
theorem ready_begin :
    Ready store (find_expired_leases m organization_id store) (Session.begin store) where
  fresh := rfl
  committed := rfl
  ids := (query_rows store m.order _ 50).2
  found := fun _ hr => ⟨(expired_of_mem hr).1, (expired_of_mem hr).2.1⟩
  rows := fun _ hr => (expired_of_mem hr).1
  due := fun _ _ => Iff.rfl

theorem owed_ne_queued (store : Executions) (r : ReportExecution) : owed store r ≠ .QUEUED := by
  unfold owed
  split <;> exact fun h => by cases h

/-- An execution that nobody claimed is not retried by the sweep. -/
theorem owed_of_queued (hqueued : r.status = .QUEUED) : owed store r = .TIMED_OUT := by
  refine if_neg fun hdue => ?_
  rw [Retriable, hqueued] at hdue
  cases hdue.1

/-- A sweep goes through its two loops. -/
theorem reap_eq_ok_iff {reaped : ℕ} {after : Session} :
    reap_stale_executions settings m around organization_id (Session.begin store)
        = .ok (reaped, after) ↔
      ∃ s, reapExpired settings m around (find_expired_leases m organization_id store)
          (Session.begin store) = .ok s ∧
        reapStale settings m (find_stale_queued m organization_id s.store) s = .ok after ∧
        reaped = (find_expired_leases m organization_id store).length
          + (find_stale_queued m organization_id s.store).length := by
  unfold reap_stale_executions
  rw [bind_eq_ok_iff]
  refine exists_congr fun s => and_congr Iff.rfl ?_
  rw [bind_eq_ok_iff]
  constructor
  · rintro ⟨s', hstale, hlast⟩
    cases hlast
    exact ⟨hstale, rfl⟩
  · rintro ⟨hstale, rfl⟩
    exact ⟨after, hstale, rfl⟩

theorem selected_of_ok (h : reapExpired settings m around
      (find_expired_leases m organization_id store) (Session.begin store) = .ok s) :
    selected settings m around organization_id store = find_expired_leases m organization_id store
      ++ find_stale_queued m organization_id s.store := by
  unfold selected
  dsimp only
  rw [h]

/-- A clean sweep: both loops go through, as they do over a table. -/
theorem loops_of_clean (hclean : Clean settings m around organization_id store) :
    ∃ s after, reapExpired settings m around (find_expired_leases m organization_id store)
        (Session.begin store) = .ok s ∧
      reports.reapExpired settings m (find_expired_leases m organization_id store) store
        = .ok s.store ∧
      Swept store (find_expired_leases m organization_id store) (Session.begin store) s ∧
      reapStale settings m (find_stale_queued m organization_id s.store) s = .ok after ∧
      reports.reapStale settings m (find_stale_queued m organization_id s.store) s.store
        = .ok after.store := by
  have hexpired : ∀ r ∈ find_expired_leases m organization_id store, Fits m.now r := by
    intro r hr
    apply hclean.fits
    unfold selected
    dsimp only
    split
    · exact List.mem_append_left _ hr
    · exact hr
  obtain ⟨stored, hloop, hbase, hswept⟩ := reapExpired_of_clean ready_begin hexpired
    fun r hr hdue => ⟨hclean.keys r hr hdue, hclean.alone r hr hdue⟩
  have hstale : ∀ r ∈ find_stale_queued m organization_id stored, Fits m.now r := by
    intro r hr
    apply hclean.fits
    rw [selected_of_ok hloop]
    exact List.mem_append_right _ hr
  obtain ⟨after, hstaleLoop, hstaleBase⟩ := reapStale_of_fits
    (s := { Session.begin store with store := stored }) settings (fun r hr => (stale_of_mem hr).2.1)
    hstale
  exact ⟨_, _, hloop, hbase, hswept, hstaleLoop, hstaleBase⟩

/-- **A clean sweep is the sweep of the table.** -/
theorem reap_eq_of_clean (hclean : Clean settings m around organization_id store) :
    ∃ reaped after, reap_stale_executions settings m around organization_id (Session.begin store)
        = .ok (reaped, after) ∧
      reports.reap_stale_executions settings m organization_id store
        = .ok (reaped, after.store) := by
  obtain ⟨s, after, hloop, hbase, -, hstale, hstaleBase⟩ := loops_of_clean hclean
  refine ⟨_, after, reap_eq_ok_iff.mpr ⟨s, hloop, hstale, rfl⟩, ?_⟩
  unfold reports.reap_stale_executions
  dsimp only [bind, Except.bind]
  rw [hbase]
  dsimp only
  rw [hstaleBase]
  rfl

/-- **A sweep completes, and leaves every execution it selected in the state that it is
owed, exactly when it is clean**: no execution it selects has lasted longer than the
column of its duration holds, and no retry it makes is too long a key or is made by
somebody else meanwhile. -/
theorem completes_iff :
    Completes settings m around organization_id store ↔
      Clean settings m around organization_id store := by
  constructor
  · rintro ⟨reaped, after, hreap, hended⟩
    obtain ⟨s, hloop, hstale, -⟩ := reap_eq_ok_iff.mp hreap
    have hselected := selected_of_ok hloop
    rw [hselected] at hended
    obtain ⟨hfits, -, hothers⟩ := reapStale_cases (fun r hr => (stale_of_mem hr).1)
      (query_rows s.store m.order _ 50).2 hstale
    rcases reapExpired_cases ready_begin hloop with ⟨hold, hdue⟩ | ⟨r, hr, hstays⟩
    · constructor
      case fits =>
        intro r hr
        rw [hselected, List.mem_append] at hr
        exact hr.elim (hold r) (hfits r)
      case keys => exact fun r hr h => (hdue r hr h).1
      case alone => exact fun r hr h => (hdue r hr h).2
    · -- a row that was rolled back is with its worker still
      exfalso
      have hleased := (expired_of_mem hr).2.1
      have hnot : r.status ≠ .QUEUED := by
        intro hqueued
        rw [hqueued] at hleased
        cases hleased
      obtain ⟨q, hq, hid, hstatus⟩ := hended r (List.mem_append_left _ hr)
      have hr' : r ∈ after.store.rows := hothers r hstays (not_stale hstays hnot)
      rw [after.store.eq_of_id hq hr' hid] at hstatus
      rw [hstatus, owed] at hleased
      split at hleased <;> cases hleased
  · intro hclean
    obtain ⟨s, after, hloop, -, hswept, hstale, -⟩ := loops_of_clean hclean
    refine ⟨_, after, reap_eq_ok_iff.mpr ⟨s, hloop, hstale, rfl⟩, ?_⟩
    obtain ⟨-, htimed, hothers⟩ := reapStale_cases (fun r hr => (stale_of_mem hr).1)
      (query_rows s.store m.order _ 50).2 hstale
    rw [selected_of_ok hloop]
    intro r hr
    rcases List.mem_append.mp hr with hr | hr
    · obtain ⟨q, hq, hid, hstatus⟩ := hswept.row r hr
      refine ⟨q, hothers q hq (not_stale hq ?_), hid, hstatus⟩
      rw [hstatus]
      exact owed_ne_queued store r
    · rw [owed_of_queued (stale_of_mem hr).2.1]
      exact htimed r hr

end Whole

/-! ## Two runs that nobody ended -/

/-- Nobody else makes a retry. -/
def quiet : Surroundings := ⟨fun _ => none, true⟩

/-- One run was started, another one was handed out. -/
def twoRuns : List (Moment × Request) :=
  [(at_ 0, .enqueue salesReport [ableWorker] 1 .MANUAL (some 7) "manual:1:7:20260101T0000" none),
    (at_ 10, .claim_next ableWorker [salesReport]),
    (at_ 20, .start 1 ableWorker),
    (at_ 30, .enqueue salesReport [ableWorker] 1 .MANUAL (some 8) "manual:1:8:20260101T0000" none),
    (at_ 40, .claim_next ableWorker [salesReport])]

/-- The server comes back after 25 days, and its sweep times out neither of them. -/
theorem twoRuns_not_swept :
    ¬ Completes defaultSettings (at_ (seconds (25 * 86400))) quiet none
      (tableAfter defaultSettings twoRuns Executions.empty) := by
  rintro ⟨reaped, after, hreap, -⟩
  have hraised : (reap_stale_executions defaultSettings (at_ (seconds (25 * 86400))) quiet none
      (Session.begin (tableAfter defaultSettings twoRuns Executions.empty))).isOk = false := by
    decide
  rw [hreap] at hraised
  cases hraised

/-- After ten minutes it would time out both; where the retry of the second one is made
by somebody else meanwhile, it is rolled back and both stay with their worker. -/
example : ∀ lost : Bool,
    (reap_stale_executions defaultSettings (at_ (seconds 600))
        ⟨fun id => if lost && id = 3 then some (seconds 600) else none, true⟩ none
        (Session.begin (tableAfter defaultSettings twoRuns Executions.empty))).toOption.map
      (fun result => result.2.store.rows.map ReportExecution.status)
    = some (if lost then [.RUNNING, .ASSIGNED, .QUEUED]
        else [.RETRYING, .RETRYING, .QUEUED, .QUEUED]) := by
  decide

end PaCopilot.reports.sweep
