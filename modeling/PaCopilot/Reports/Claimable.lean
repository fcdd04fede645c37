/-
Whether a retry can be claimed.

A retry waits for its backoff before a worker may have it, and is given up for
never having been claimed when its timeout has passed. Both count from the moment
it was queued, the one by the attempt, the other by the report, and nothing
compares them. A claim reaps before it looks for work, so a retry whose backoff is
the longer of the two is gone whenever a worker asks for it
([`retries_claimable_iff`]).
-/
import PaCopilot.Reports.Rows

set_option autoImplicit false

namespace PaCopilot.reports

/-- The time after which `find_stale_queued` selects an execution that is still
queued. -/
def neverClaimedDeadline (r : ReportExecution) : Time := r.queued_at + seconds r.timeout_seconds

theorem seconds_lt_seconds {n k : ℕ} : seconds n < seconds k ↔ n < k := by
  exact Nat.mul_lt_mul_right (by decide)

/-! ## The times of a retry -/

/-- The times that an execution is made with: the timeout of some report, and, for a
retry, the backoff after the attempt that failed. -/
structure Queued (settings : Settings) (q : ReportExecution) : Prop where
  timeout : ∃ report, q.timeout_seconds = timeout_for settings report
  backoff : q.parent_execution_id.isSome = true →
    q.available_at = q.queued_at + seconds (backoff_seconds settings (q.attempt - 1))

section Queued

variable {settings : Settings} {m : Moment} {request : Request} {q q' : ReportExecution}

theorem Queued.move (hq : Queued settings q) (h : RowMove settings m request q q') :
    Queued settings q' := by
  obtain ⟨hqueued, havailable, htimeout⟩ := h.written.queued
  constructor
  · rw [htimeout]
    exact hq.timeout
  · rw [h.same.parent_execution_id, h.same.attempt, hqueued, havailable]
    exact hq.backoff

theorem queued_of_requests (settings : Settings) (requests : List (Moment × Request)) :
    ∀ q ∈ (tableAfter settings requests Executions.empty).rows, Queued settings q := by
  apply tableAfter_all (P := Queued settings) (Q := fun _ => True) _ (fun _ _ => trivial)
    (by simp [Executions.empty])
  intro m request store _ hall q hreached
  induction hreached with
  | stored hq => exact hall _ hq
  | @queued report => exact ⟨⟨report, rfl⟩, fun hparent => by cases hparent⟩
  | retried _ _ ih => exact ⟨ih.timeout, fun _ => rfl⟩
  | moved _ hmove ih => exact ih.move hmove

/-- A retry becomes available before it is given up exactly when its backoff is
shorter than its timeout. -/
theorem Queued.claimable_iff (hq : Queued settings q)
    (hretry : q.parent_execution_id.isSome = true) :
    q.available_at < neverClaimedDeadline q ↔
      backoff_seconds settings (q.attempt - 1) < q.timeout_seconds := by
  rw [neverClaimedDeadline, hq.backoff hretry, Nat.add_lt_add_iff_left, seconds_lt_seconds]

end Queued

/-! ## Being given up -/

section Reaped

variable {settings : Settings} {m : Moment} {request : Request} {store : Executions}
  {c q : ReportExecution}

/-- A move releases the lease, or holds it from now on. -/
theorem RowMove.lease {r r' : ReportExecution} (h : RowMove settings m request r r') :
    r'.lease_expires_at = none ∨ (∃ t, r'.lease_expires_at = some (m.now + t)) ∨
      r'.lease_expires_at = r.lease_expires_at := by
  cases h with
  | started h =>
    obtain ⟨-, -, rfl⟩ := mark_started_eq h
    exact .inr (.inl ⟨_, rfl⟩)
  | extended h =>
    obtain ⟨-, -, -, diagnostics, rfl⟩ := extend_lease_eq h
    exact .inr (.inl ⟨_, rfl⟩)
  | succeeded h =>
    obtain ⟨-, -, rfl⟩ := succeed_eq h
    exact .inl rfl
  | cancelled h =>
    obtain ⟨-, rfl⟩ := cancel_eq h
    exact .inl rfl
  | claimed _ _ => exact .inr (.inl ⟨_, rfl⟩)
  | failed h =>
    obtain ⟨-, -, rfl⟩ := fail_eq h
    exact .inl rfl
  | lapsed _ _ h =>
    obtain ⟨-, -, rfl⟩ := fail_eq h
    exact .inl rfl
  | unclaimed _ _ h =>
    obtain ⟨-, -, rfl⟩ := fail_eq h
    exact .inl rfl
  | replaced _ => exact .inr (.inr rfl)

/-- What a request can make of an execution that waits: it is timed out only when its
deadline has passed, and a lease that it is given has not lapsed. -/
structure Waited (m : Moment) (q : ReportExecution) : Prop where
  lease : q.lease_expires_at.any (· < m.now) = false
  timed_out : q.status = .TIMED_OUT → neverClaimedDeadline q < m.db_now

theorem Waited.move {q' : ReportExecution} (hq : Waited m q)
    (h : RowMove settings m request q q') : Waited m q' := by
  constructor
  · rcases h.lease with hlease | ⟨t, hlease⟩ | hlease <;> rw [hlease]
    · rfl
    · exact decide_eq_false (Nat.not_lt.mpr (Nat.le_add_right _ _))
    · exact hq.lease
  · intro hstatus
    cases h with
    | started h => rw [(mark_started_moved h).status] at hstatus; cases hstatus
    | extended h =>
      have hqueued := (written_extended h).queued
      have hkept := (extend_lease_kept h).2.1
      rw [neverClaimedDeadline, hqueued.1, hqueued.2.2]
      exact hq.timed_out (hkept.symm.trans hstatus)
    | succeeded h => rw [(succeed_moved h).status] at hstatus; cases hstatus
    | failed h => rw [(fail_moved rfl h).1.status] at hstatus; cases hstatus
    | cancelled h => rw [(cancel_moved h).status] at hstatus; cases hstatus
    | claimed _ _ => cases hstatus
    | lapsed _ hlapsed _ =>
      -- what waited has no lease that could have lapsed
      rw [hq.lease] at hlapsed
      cases hlapsed
    | unclaimed _ hstale h =>
      have hqueued := (written_failed h).queued
      rw [neverClaimedDeadline, hqueued.1, hqueued.2.2]
      exact hstale
    | replaced _ => cases hstatus

/-- An execution that waits is timed out by a request only when its deadline has
passed. -/
theorem reaped_late (h : WellFormed store) (hc : c ∈ store.rows) (hqueued : c.status = .QUEUED)
    (hq : q ∈ (handle settings m request store).rows) (hid : q.id = c.id)
    (hreaped : q.status = .TIMED_OUT) : neverClaimedDeadline q < m.db_now := by
  have hwaited : ∀ p, Reached settings m request store p → p.id = c.id → Waited m p := by
    intro p hp
    induction hp with
    | stored hp =>
      intro hpc
      rw [store.eq_of_id hp hc hpc]
      have hlease := (h.timed c hc).lease
      rw [hqueued] at hlease
      constructor
      · rw [Option.isNone_iff_eq_none.mp (Option.isSome_eq_false_iff.mp hlease)]
        rfl
      · rw [hqueued]
        exact fun heq => by cases heq
    | queued => exact fun _ => ⟨rfl, fun heq => by cases heq⟩
    | retried => exact fun _ => ⟨rfl, fun heq => by cases heq⟩
    | moved _ hmove ih =>
      intro hpc
      rw [hmove.same.id] at hpc
      exact (ih hpc).move hmove
  exact (hwaited q (handle_reached settings m request store q hq) hid).timed_out hreaped

end Reaped

/-- **When a retry can be claimed.** In every run, a retry is available strictly before
its deadline exactly when the backoff after the attempt that failed is shorter than
the timeout, which is one that `timeout_for` gives; and a retry of which that is true
is not given up before it was available. -/
theorem retries_claimable_iff (settings : Settings) (requests : List (Moment × Request)) :
    (∀ c ∈ (tableAfter settings requests Executions.empty).rows,
      c.parent_execution_id.isSome = true →
        (c.available_at < neverClaimedDeadline c ↔
          backoff_seconds settings (c.attempt - 1) < c.timeout_seconds) ∧
        ∃ report, c.timeout_seconds = timeout_for settings report) ∧
    (∀ m request, ∀ c ∈ (tableAfter settings requests Executions.empty).rows,
      c.status = .QUEUED →
      ∀ q ∈ (tableAfter settings (requests ++ [(m, request)]) Executions.empty).rows,
        q.id = c.id → q.parent_execution_id.isSome = true → q.status = .TIMED_OUT →
        backoff_seconds settings (q.attempt - 1) < q.timeout_seconds →
          q.available_at < m.db_now) := by
  constructor
  · intro c hc hretry
    have hqueued := queued_of_requests settings requests c hc
    exact ⟨hqueued.claimable_iff hretry, hqueued.timeout⟩
  · intro m request c hc hstatus q hq hid hretry hreaped hshort
    have hwindow := ((queued_of_requests settings _ q hq).claimable_iff hretry).mpr hshort
    rw [tableAfter_append] at hq
    have hlate := reaped_late (tableAfter_wellFormed empty_wellFormed) hc hstatus hq hid hreaped
    exact Nat.lt_trans hwindow hlate

/-! ## A retry that nobody can claim -/

/-- A report that may take a minute and a half, and fails twice. -/
def shortReport : ReportDefinition := { salesReport with timeout_seconds := .number 90 }

def failedTwice : List (Moment × Request) :=
  [(at_ 0, .enqueue shortReport [ableWorker] 1 .MANUAL (some 7) "manual:1:7:20260101T0000" none),
    (at_ (seconds 10), .claim_next ableWorker [shortReport]),
    (at_ (seconds 20), .start 1 ableWorker),
    (at_ (seconds 30), .fail 1 ableWorker (some "refresh_failed") none []),
    (at_ (seconds 95), .claim_next ableWorker [shortReport]),
    (at_ (seconds 96), .start 2 ableWorker),
    (at_ (seconds 100), .fail 2 ableWorker (some "refresh_failed") none [])]

/-- **A retry that is given up before it is available.** The third attempt is to wait
120 s and is given up after 90: a worker that asks at 215 s finds it gone. -/
theorem third_attempt_unclaimable :
    (tableAfter defaultSettings failedTwice Executions.empty).rows.map
        (fun r => (r.status, r.attempt, r.available_at, neverClaimedDeadline r))
      = [(.RETRYING, 1, 0, seconds 90), (.RETRYING, 2, seconds 90, seconds 120),
        (.QUEUED, 3, seconds 220, seconds 190)] ∧
    (tableAfter defaultSettings (failedTwice ++ [(at_ (seconds 215),
        .claim_next ableWorker [shortReport])]) Executions.empty).rows.map
        (fun r => (r.status, r.attempt, r.error_code))
      = [(.RETRYING, 1, some .REFRESH_FAILED), (.RETRYING, 2, some .REFRESH_FAILED),
        (.TIMED_OUT, 3, some .WORKER_OFFLINE)] := by
  constructor
  · decide
  · decide

end PaCopilot.reports
