/-
The transactions on one worker, next to each other.

None of them locks the row. Each reads it once, checks it, and at its end writes the columns
it changed onto what the row holds by then. A heartbeat and an enrollment check that the
worker is not disabled, and write a status that may be over another's `DISABLED` by then; a
disable that read `DISABLED` writes no status, over what may be enabled by then. An
enrollment clears the token that it found, and does not ask whether it is still there.

A transaction that reads and one that finishes are single steps: from its first write to its
commit a transaction keeps others from writing.
-/
import PaCopilot.Reports.Workers
import PaCopilot.Lib.Interleave

set_option autoImplicit false

namespace PaCopilot.workers

open Interleave Run
open reports (Time column)

/-! ## The transactions -/

/-- One of the transactions, with what it is sent and what it draws. -/
inductive Operation
  | heartbeat (now : Time) (token : WorkerToken) (host_facts : Option HostFacts) (busy : Bool)
      (last_error : Option String)
  | enroll (now : Time) (draw : ℕ) (enrollment_token : Secret) (host_facts : HostFacts)
  | set_enabled (now : Time) (organization_id : ℕ) (enabled : Bool)
  | rotate_credential (now : Time) (draw : ℕ) (organization_id : ℕ)
  deriving DecidableEq

/-- What a transaction makes of the row it read. -/
def change (operation : Operation) (worker : ReportWorker) : Except AppException ReportWorker :=
  match operation with
  | .heartbeat now token host_facts busy last_error => do
    let worker ← resolve_token_subject { now := now, rows := [worker] } token
    return heartbeat now host_facts busy last_error worker
  | .enroll now draw enrollment_token host_facts => do
    let (_, enrolled) ←
      enrollment { now := now, draw := draw, rows := [worker] } enrollment_token host_facts
    return enrolled
  | .set_enabled now organization_id enabled => do
    let worker ← get_worker { now := now, rows := [worker] } worker.id organization_id
    return set_enabled now enabled worker
  | .rotate_credential now draw organization_id => do
    let worker ← get_worker { now := now, rows := [worker] } worker.id organization_id
    rotate_credential now (generate_worker_secret draw) worker

/-- The row after a flush: the columns that the session changed, over what is stored. -/
def flush (read new stored : ReportWorker) : ReportWorker :=
  { stored with
    status := column read.status new.status stored.status
    enrollment_token_hash :=
      column read.enrollment_token_hash new.enrollment_token_hash stored.enrollment_token_hash
    enrollment_expires_at :=
      column read.enrollment_expires_at new.enrollment_expires_at stored.enrollment_expires_at
    enrolled_at := column read.enrolled_at new.enrolled_at stored.enrolled_at
    secret_hash := column read.secret_hash new.secret_hash stored.secret_hash
    secret_version := column read.secret_version new.secret_version stored.secret_version
    secret_rotated_at := column read.secret_rotated_at new.secret_rotated_at stored.secret_rotated_at
    version := column read.version new.version stored.version
    os := column read.os new.os stored.os
    excel_version := column read.excel_version new.excel_version stored.excel_version
    pafe_version := column read.pafe_version new.pafe_version stored.pafe_version
    hostname := column read.hostname new.hostname stored.hostname
    capabilities := column read.capabilities new.capabilities stored.capabilities
    last_heartbeat_at := column read.last_heartbeat_at new.last_heartbeat_at stored.last_heartbeat_at
    disabled_at := column read.disabled_at new.disabled_at stored.disabled_at
    last_error := column read.last_error new.last_error stored.last_error }

/-- What has been committed: whether a disable, and no enable since; and the credentials
that were given for an enrollment token. -/
structure Log where
  disabled : Bool
  credentials : List (Secret × Secret) := []
  deriving DecidableEq

/-- The commit of a transaction. -/
def logged (operation : Operation) (log : Log) : Log :=
  match operation with
  | .set_enabled _ _ enabled => { log with disabled := !enabled }
  | .enroll _ draw enrollment_token _ =>
    { log with credentials := log.credentials ++ [(enrollment_token, generate_worker_secret draw)] }
  | .heartbeat .. => log
  | .rotate_credential .. => log

/-- A transaction on the row: it locks nothing, and one that raises writes nothing. -/
def transaction (operation : Operation) : Transaction ReportWorker Log where
  locks := false
  body worker log :=
    match change operation worker with
    | .error _ => (none, log)
    | .ok new => (some (flush worker new), logged operation log)

variable {Id : Type} [DecidableEq Id]

/-- The transactions on one worker. -/
def transactions (operation : Id → Operation) : System Id ReportWorker Log Empty where
  txn i := transaction (operation i)
  outside := nofun

/-- The log of a row that nothing has been done to yet. -/
def before (row : ReportWorker) : Log := { disabled := row.status = .DISABLED }

/-! ## What is asked -/

/-- From the commit of a disable to that of an enable the worker is disabled, and no
enrollment token was good for two credentials. -/
structure Held (σ : Interleave.State Id ReportWorker Log) : Prop where
  disabled : σ.env.disabled = true → σ.committed.status = .DISABLED
  once : (σ.env.credentials.map Prod.fst).Nodup

/-- The transaction finds what it relies on. A disable that read `DISABLED` finds it; where
a disable has been committed and no enable since, a heartbeat or an enrollment has read the
status that it leaves; and an enrollment finds its token. -/
def undisturbed (operation : Id → Operation) (σ : Interleave.State Id ReportWorker Log) :
    Action Id Empty → Bool
  | .finish i =>
    match σ.read i with
    | none => true
    | some worker =>
      match change (operation i) worker with
      | .error _ => true
      | .ok _ =>
        match operation i with
        | .set_enabled _ _ enabled =>
          enabled || worker.status ≠ .DISABLED || σ.committed.status = .DISABLED
        | .heartbeat _ _ _ busy _ =>
          !σ.env.disabled || worker.status = (if busy then .BUSY else .ONLINE)
        | .enroll _ _ enrollment_token _ =>
          (!σ.env.disabled || worker.status = .ONLINE)
            && σ.committed.enrollment_token_hash = some (hash_secret enrollment_token)
        | .rotate_credential .. => true
  | _ => true

/-! ## What a transaction changes -/

section Change

variable {operation : Operation} {worker new : ReportWorker} {now : Time} {draw : ℕ}
  {organization_id : ℕ}

theorem change_heartbeat {token : WorkerToken} {host_facts : Option HostFacts} {busy : Bool}
    {last_error : Option String}
    (h : change (.heartbeat now token host_facts busy last_error) worker = .ok new) :
    new.enrollment_token_hash = worker.enrollment_token_hash ∧
      new.status = if busy then .BUSY else .ONLINE := by
  obtain ⟨found, hfound, h⟩ := bind_eq_ok_iff.mp h
  have hsame : found = worker := by
    unfold resolve_token_subject at hfound
    rcases hget : get_by_id { now := now, rows := [worker] } token.sub with _ | row
    · rw [hget] at hfound
      cases hfound
    · have hrow := List.mem_of_find?_eq_some hget
      rw [List.mem_singleton] at hrow
      rw [hget] at hfound
      obtain ⟨-, hfound⟩ := passed_of_bind hfound
      obtain ⟨-, hfound⟩ := passed_of_bind hfound
      obtain ⟨-, hfound⟩ := passed_of_bind hfound
      obtain ⟨-, hfound⟩ := passed_of_bind hfound
      cases hfound
      exact hrow
  cases h
  subst hsame
  cases host_facts with
  | none => exact ⟨rfl, rfl⟩
  | some facts => exact ⟨rfl, rfl⟩

theorem change_enroll {enrollment_token : Secret} {host_facts : HostFacts}
    (h : change (.enroll now draw enrollment_token host_facts) worker = .ok new) :
    worker.enrollment_token_hash = some (hash_secret enrollment_token) ∧
      new.enrollment_token_hash = none ∧ new.status = .ONLINE := by
  obtain ⟨⟨found, enrolled⟩, henrollment, h⟩ := bind_eq_ok_iff.mp h
  cases h
  unfold enrollment at henrollment
  rcases hget : get_by_enrollment_token_hash { now := now, draw := draw, rows := [worker] }
    (hash_secret enrollment_token) with _ | row
  · rw [hget] at henrollment
    cases henrollment
  · rw [hget] at henrollment
    obtain ⟨enrolled, henroll, hpair⟩ := bind_eq_ok_iff.mp henrollment
    cases hpair
    have hrow := List.mem_of_find?_eq_some hget
    have htoken := List.find?_some hget
    rw [List.mem_singleton] at hrow
    rw [decide_eq_true_eq, hrow] at htoken
    refine ⟨htoken, ?_⟩
    obtain ⟨-, henroll⟩ := passed_of_bind henroll
    rcases hexpires : found.enrollment_expires_at with _ | expires_at
    · rw [hexpires] at henroll
      cases henroll
    · rw [hexpires] at henroll
      obtain ⟨-, henroll⟩ := passed_of_bind henroll
      cases henroll
      exact ⟨rfl, rfl⟩

/-- A row that is read by its own id. -/
theorem get_worker_self (h : get_worker { now := now, rows := [worker] } worker.id organization_id
    = .ok new) : new = worker := by
  unfold get_worker at h
  rcases hget : get_by_id { now := now, rows := [worker] } worker.id with _ | row
  · rw [hget] at h
    cases h
  · have hrow := List.mem_of_find?_eq_some hget
    rw [List.mem_singleton] at hrow
    rw [hget] at h
    dsimp only at h
    split at h
    · cases h
    · cases h
      exact hrow

theorem change_set_enabled {enabled : Bool}
    (h : change (.set_enabled now organization_id enabled) worker = .ok new) :
    new = set_enabled now enabled worker := by
  obtain ⟨found, hfound, h⟩ := bind_eq_ok_iff.mp h
  cases h
  rw [get_worker_self hfound]

theorem change_rotate_credential
    (h : change (.rotate_credential now draw organization_id) worker = .ok new) :
    new.status = worker.status ∧ new.enrollment_token_hash = worker.enrollment_token_hash := by
  obtain ⟨found, hfound, h⟩ := bind_eq_ok_iff.mp h
  obtain ⟨-, h⟩ := passed_of_bind h
  cases h
  rw [get_worker_self hfound]
  exact ⟨rfl, rfl⟩

/-- Only an enrollment changes the enrollment token of a row. -/
theorem change_token (h : change operation worker = .ok new) :
    new.enrollment_token_hash = worker.enrollment_token_hash ∨
      ∃ now draw enrollment_token host_facts,
        operation = .enroll now draw enrollment_token host_facts := by
  cases operation with
  | heartbeat => exact .inl (change_heartbeat h).1
  | enroll now draw enrollment_token host_facts => exact .inr ⟨_, _, _, _, rfl⟩
  | set_enabled now organization_id enabled =>
    left
    rw [change_set_enabled h]
    unfold set_enabled
    split
    · split <;> rfl
    · rfl
  | rotate_credential => exact .inl (change_rotate_credential h).2

end Change

/-! ## Every step -/

section Steps

variable {operation : Id → Operation} {σ σ' : Interleave.State Id ReportWorker Log} {i : Id}
  {action : Action Id Empty}

/-- A transaction that finishes. -/
theorem finish_cases (hstep : Interleave.step (transactions operation) σ (.finish i) = some σ') :
    ∃ worker, σ.read i = some worker ∧ σ'.read = Function.update σ.read i none ∧
      σ'.holder = (if σ.holder = some i then none else σ.holder) ∧
      ((∃ raised, change (operation i) worker = .error raised ∧ σ'.committed = σ.committed ∧
          σ'.env = σ.env) ∨
        ∃ new, change (operation i) worker = .ok new ∧
          σ'.committed = flush worker new σ.committed ∧ σ'.env = logged (operation i) σ.env) := by
  obtain ⟨worker, hread, henv, hread', hholder, hcommitted⟩ := step_finish hstep
  refine ⟨worker, hread, hread', hholder, ?_⟩
  simp only [transactions, transaction] at henv hcommitted
  rcases hchange : change (operation i) worker with raised | new
  · simp only [hchange] at henv hcommitted
    rcases hcommitted with ⟨-, hsame⟩ | ⟨f, hf, -⟩
    · exact .inl ⟨raised, rfl, hsame, henv⟩
    · cases hf
  · simp only [hchange] at henv hcommitted
    rcases hcommitted with ⟨hnone, -⟩ | ⟨f, hf, -, hrow⟩
    · cases hnone
    · rw [Option.some.injEq] at hf
      exact .inr ⟨new, rfl, by rw [hrow, ← hf], henv⟩

/-- The enrollment token: the row's is not spent, and one that a transaction has read is the
row's still, or is spent. Nobody holds a lock. -/
structure Outstanding (row : ReportWorker) (σ : Interleave.State Id ReportWorker Log) : Prop where
  free : σ.holder = none
  committed : ∀ d, σ.committed.enrollment_token_hash = some d →
    row.enrollment_token_hash = some d ∧ d.value ∉ σ.env.credentials.map Prod.fst
  read : ∀ i worker, σ.read i = some worker → ∀ d, worker.enrollment_token_hash = some d →
    row.enrollment_token_hash = some d ∧
      (σ.committed.enrollment_token_hash = some d ∨ d.value ∈ σ.env.credentials.map Prod.fst)

theorem logged_credentials {operation : Operation} {log : Log}
    (h : ∀ now draw enrollment_token host_facts,
      operation ≠ .enroll now draw enrollment_token host_facts) :
    (logged operation log).credentials = log.credentials := by
  cases operation with
  | enroll now draw enrollment_token host_facts => exact absurd rfl (h now draw enrollment_token host_facts)
  | heartbeat => rfl
  | set_enabled => rfl
  | rotate_credential => rfl

/-- What is read behind the end of a transaction was read before it. -/
theorem read_of_update {j : Id} {other : ReportWorker}
    (hread' : σ'.read = Function.update σ.read i none) (hother : σ'.read j = some other) :
    σ.read j = some other := by
  rw [hread'] at hother
  by_cases hj : j = i
  · rw [hj, Function.update_self] at hother
    simp at hother
  · rwa [Function.update_of_ne hj] at hother

/-- A transaction that leaves the token and the credentials as they are. -/
theorem Outstanding.keep {row : ReportWorker} (h : Outstanding row σ) (hfree : σ'.holder = none)
    (hread' : σ'.read = Function.update σ.read i none)
    (hsame : σ'.committed.enrollment_token_hash = σ.committed.enrollment_token_hash)
    (hcredentials : σ'.env.credentials = σ.env.credentials) : Outstanding row σ' := by
  refine ⟨hfree, ?_, ?_⟩
  · rw [hsame, hcredentials]
    exact h.committed
  · intro j other hother
    rw [hsame, hcredentials]
    exact h.read j other (read_of_update hread' hother)

/-- An enrollment takes the token from the row, and the token is spent. -/
theorem Outstanding.spend {row worker : ReportWorker} {enrollment_token : Secret}
    (h : Outstanding row σ) (hfree : σ'.holder = none) (hread : σ.read i = some worker)
    (hread' : σ'.read = Function.update σ.read i none)
    (hfound : worker.enrollment_token_hash = some (hash_secret enrollment_token))
    (hnone : σ'.committed.enrollment_token_hash = none)
    (hspent : enrollment_token ∈ σ'.env.credentials.map Prod.fst) : Outstanding row σ' := by
  refine ⟨hfree, ?_, ?_⟩
  · intro d hd
    rw [hnone] at hd
    simp at hd
  · intro j other hother d hd
    obtain ⟨hrow, -⟩ := h.read j other (read_of_update hread' hother) d hd
    obtain ⟨hrow', -⟩ := h.read i worker hread _ hfound
    rw [hrow, Option.some.injEq] at hrow'
    rw [hrow']
    exact ⟨hrow' ▸ hrow, .inr hspent⟩

theorem Outstanding.step {row : ReportWorker} (h : Outstanding row σ)
    (hstep : Interleave.step (transactions operation) σ action = some σ') : Outstanding row σ' := by
  cases action with
  | outside o => exact o.elim
  | start i =>
    obtain ⟨-, -, rfl⟩ := step_start hstep
    refine ⟨h.free, h.committed, fun j worker hread d hd => ?_⟩
    dsimp only at hread
    by_cases hj : j = i
    · rw [hj, Function.update_self, Option.some.injEq] at hread
      rw [← hread] at hd
      exact ⟨(h.committed d hd).1, .inl hd⟩
    · rw [Function.update_of_ne hj] at hread
      exact h.read j worker hread d hd
  | finish i =>
    obtain ⟨worker, hread, hread', hfree, hfinished⟩ := finish_cases hstep
    rw [h.free, if_neg (by simp)] at hfree
    -- a transaction that raised has written nothing
    rcases hfinished with ⟨raised, -, hcommitted, henv⟩ | ⟨new, hchange, hcommitted, henv⟩
    · exact h.keep hfree hread' (by rw [hcommitted]) (by rw [henv])
    have htoken : σ'.committed.enrollment_token_hash = column worker.enrollment_token_hash
        new.enrollment_token_hash σ.committed.enrollment_token_hash := by
      rw [hcommitted]
      rfl
    by_cases henroll : ∃ now draw enrollment_token host_facts,
        operation i = .enroll now draw enrollment_token host_facts
    · obtain ⟨now, draw, enrollment_token, host_facts, hoperation⟩ := henroll
      rw [hoperation] at hchange henv
      obtain ⟨hfound, hcleared, -⟩ := change_enroll hchange
      have hnone : σ'.committed.enrollment_token_hash = none := by
        rw [htoken, hcleared, hfound]
        rfl
      have hspent : enrollment_token ∈ σ'.env.credentials.map Prod.fst := by
        rw [henv]
        simp [logged]
      exact h.spend hfree hread hread' hfound hnone hspent
    · -- no other transaction changes the token
      have hcredentials : σ'.env.credentials = σ.env.credentials := by
        rw [henv]
        exact logged_credentials fun now draw enrollment_token host_facts heq =>
          henroll ⟨now, draw, enrollment_token, host_facts, heq⟩
      have hsame : σ'.committed.enrollment_token_hash = σ.committed.enrollment_token_hash := by
        rw [htoken, column, if_pos ((change_token hchange).resolve_right henroll)]
      exact h.keep hfree hread' hsame hcredentials

omit [DecidableEq Id] in
/-- An enrollment finds its token exactly when it was not good for a credential before. -/
theorem Outstanding.found_iff {row worker : ReportWorker} {enrollment_token : Secret}
    (h : Outstanding row σ) (hread : σ.read i = some worker)
    (hfound : worker.enrollment_token_hash = some (hash_secret enrollment_token)) :
    σ.committed.enrollment_token_hash = some (hash_secret enrollment_token) ↔
      enrollment_token ∉ σ.env.credentials.map Prod.fst := by
  constructor
  · intro hcommitted
    exact (h.committed _ hcommitted).2
  · intro hnot
    exact (h.read i worker hread _ hfound).2.resolve_right hnot

omit [DecidableEq Id] in
/-- A heartbeat or an enrollment leaves a worker disabled exactly when it leaves the status
that it has read. -/
theorem status_kept_iff {worker new : ReportWorker} (h : Held σ) (hnew : new.status ≠ .DISABLED)
    (hstatus : σ'.committed.status = column worker.status new.status σ.committed.status) :
    (σ.env.disabled = true → σ'.committed.status = .DISABLED) ↔
      (σ.env.disabled = false ∨ worker.status = new.status) := by
  rw [hstatus, column]
  by_cases hsame : new.status = worker.status
  · rw [if_pos hsame]
    exact iff_of_true h.disabled (.inr hsame.symm)
  · rw [if_neg hsame]
    constructor
    · intro hdisabled
      left
      rw [← Bool.not_eq_true]
      intro hflag
      exact hnew (hdisabled hflag)
    · intro hor hflag
      rcases hor with hflag' | hsame'
      · rw [hflag] at hflag'
        simp at hflag'
      · exact absurd hsame'.symm hsame

/-- **One transaction keeps what is asked exactly when it finds what it relies on.** -/
theorem Held.finish_iff {row : ReportWorker} (h : Held σ) (hout : Outstanding row σ)
    (hstep : Interleave.step (transactions operation) σ (.finish i) = some σ') :
    Held σ' ↔ undisturbed operation σ (.finish i) = true := by
  obtain ⟨worker, hread, -, -, ⟨raised, hchange, hcommitted, henv⟩ |
    ⟨new, hchange, hcommitted, henv⟩⟩ := finish_cases hstep
  · -- it raised, and wrote nothing
    simp only [undisturbed, hread, hchange, iff_true]
    exact ⟨by rw [hcommitted, henv]; exact h.disabled, by rw [henv]; exact h.once⟩
  have hstatus : σ'.committed.status = column worker.status new.status σ.committed.status := by
    rw [hcommitted]
    rfl
  simp only [undisturbed, hread, hchange]
  have hheld : Held σ' ↔ (σ'.env.disabled = true → σ'.committed.status = .DISABLED) ∧
      (σ'.env.credentials.map Prod.fst).Nodup := ⟨fun h => ⟨h.1, h.2⟩, fun h => ⟨h.1, h.2⟩⟩
  rw [hheld, henv]
  cases hoperation : operation i with
  | heartbeat now token host_facts busy last_error =>
    rw [hoperation] at hchange
    have hleft := (change_heartbeat hchange).2
    have hne : new.status ≠ .DISABLED := by
      rw [hleft]
      split <;> nofun
    rw [logged, status_kept_iff h hne hstatus, and_iff_left h.once, hleft]
    simp
  | enroll now draw enrollment_token host_facts =>
    rw [hoperation] at hchange
    obtain ⟨hfound, -, hnew⟩ := change_enroll hchange
    have honce : ((σ.env.credentials ++ [(enrollment_token, generate_worker_secret draw)]).map
        Prod.fst).Nodup ↔ enrollment_token ∉ σ.env.credentials.map Prod.fst := by
      rw [List.map_append, List.map_cons, List.map_nil, ← List.concat_eq_append,
        List.nodup_concat, and_iff_left h.once]
    have hne : new.status ≠ .DISABLED := by
      rw [hnew]
      nofun
    rw [logged, status_kept_iff h hne hstatus, honce, ← hout.found_iff hread hfound, hnew]
    simp
  | set_enabled now organization_id enabled =>
    rw [hoperation] at hchange
    rw [logged, and_iff_left h.once, hstatus, change_set_enabled hchange]
    cases enabled with
    | true => simp
    | false =>
      -- a disable that has read `DISABLED` has no changed column
      by_cases hread : worker.status = .DISABLED
      · simp [set_enabled, column, hread]
      · simp [set_enabled, column, hread, Ne.symm hread]
  | rotate_credential now draw organization_id =>
    rw [hoperation] at hchange
    rw [logged, and_iff_left h.once, hstatus, column, if_pos (change_rotate_credential hchange).1]
    exact iff_of_true h.disabled rfl

theorem Held.step_iff {row : ReportWorker} (h : Held σ) (hout : Outstanding row σ)
    (hstep : Interleave.step (transactions operation) σ action = some σ') :
    Held σ' ↔ undisturbed operation σ action = true := by
  cases action with
  | outside o => exact o.elim
  | finish i => exact h.finish_iff hout hstep
  | start i =>
    obtain ⟨-, -, rfl⟩ := step_start hstep
    exact iff_of_true ⟨h.disabled, h.once⟩ rfl

end Steps

/-- A transaction that is open can finish. -/
theorem finish_possible (operation : Id → Operation)
    {σ : Interleave.State Id ReportWorker Log} {i : Id} {worker : ReportWorker}
    (hfree : σ.holder = none) (hread : σ.read i = some worker) :
    ∃ σ', Interleave.step (transactions operation) σ (.finish i) = some σ' := by
  simp only [Interleave.step, hread, hfree]
  rcases (((transactions operation).txn i).body worker σ.env).1 with _ | f
  · exact ⟨_, rfl⟩
  · exact ⟨_, if_pos (.inl trivial)⟩

/-- What is asked of a step. -/
def Holds (operation : Id → Operation) (σ : Interleave.State Id ReportWorker Log)
    (action : Action Id Empty) : Prop :=
  ∀ σ', Interleave.step (transactions operation) σ action = some σ' → Held σ'

/-- **In every interleaving a disabled worker stays disabled and an enrollment token is good
for one credential, exactly when every transaction finds what it relies on.** -/
theorem disabling_holds_iff (row : ReportWorker) (operation : Id → Operation)
    (actions : List (Action Id Empty)) :
    Along (Interleave.step (transactions operation)) (Holds operation)
        (initial row (before row)) actions ↔
      Along (Interleave.step (transactions operation))
        (fun σ action => undisturbed operation σ action = true) (initial row (before row))
        actions := by
  have hstart : Held (initial row (before row) : Interleave.State Id ReportWorker Log) ∧
      Outstanding row (initial row (before row) : Interleave.State Id ReportWorker Log) := by
    refine ⟨⟨fun h => of_decide_eq_true h, List.nodup_nil⟩, rfl, fun d hd => ⟨hd, List.not_mem_nil⟩, ?_⟩
    intro i worker hread
    cases hread
  constructor
  · refine fun h => along_of_invariant (I := fun σ => Held σ ∧ Outstanding row σ)
      (fun σ action σ' hσ hholds hstep => ⟨hholds σ' hstep, hσ.2.step hstep⟩)
      (fun σ action hσ hholds => ?_) hstart h
    cases action with
    | outside o => exact o.elim
    | start i => rfl
    | finish i =>
      rcases hread : σ.read i with _ | worker
      · simp only [undisturbed, hread]
      · obtain ⟨σ', hstep⟩ := finish_possible operation hσ.2.free hread
        exact (hσ.1.step_iff hσ.2 hstep).mp (hholds σ' hstep)
  · refine fun h => along_of_invariant (I := fun σ => Held σ ∧ Outstanding row σ)
      (fun σ action σ' hσ hundisturbed hstep =>
        ⟨(hσ.1.step_iff hσ.2 hstep).mpr hundisturbed, hσ.2.step hstep⟩)
      (fun σ action hσ hundisturbed σ' hstep => (hσ.1.step_iff hσ.2 hstep).mpr hundisturbed)
      hstart h

/-! ## A heartbeat over a disable -/

/-- An enrolled worker. -/
def enrolledWorker : ReportWorker where
  id := 1
  organization_id := 1
  created_by := 1
  name := "reports-01"
  description := none
  status := .ONLINE
  enrollment_token_hash := none
  enrollment_expires_at := none
  enrolled_at := some 0
  secret_hash := some (hash_secret (generate_worker_secret 2))
  secret_version := 1
  last_heartbeat_at := some 0

/-- A worker that waits for its enrollment. -/
def pendingWorker : ReportWorker where
  id := 1
  organization_id := 1
  created_by := 1
  name := "reports-01"
  description := none
  status := .PENDING_ENROLLMENT
  enrollment_token_hash := some (hash_secret (generate_enrollment_token 1))
  enrollment_expires_at := some (reports.seconds 3600)
  secret_version := 1

/-- The worker reports that it is busy, and an administrator disables it. -/
def busyAndDisabled : ℕ → Operation
  | 0 => .heartbeat (reports.seconds 30) ⟨1, 1, 1, 0, 900, 3⟩ none true none
  | _ => .set_enabled (reports.seconds 30) 1 false

/-- Two processes present one enrollment token. -/
def enrolledTwice (i : ℕ) : Operation :=
  .enroll (reports.seconds 30) (i + 2) (generate_enrollment_token 1) {}

/-- Each of the two has read before either writes. -/
def together : List (Action ℕ Empty) := [.start 0, .start 1, .finish 1, .finish 0]

theorem together_lost :
    ((run (Interleave.step (transactions busyAndDisabled))
        (initial enrolledWorker (before enrolledWorker)) together).map
          fun σ => (σ.env.disabled, σ.committed.status)) = some (true, .BUSY) ∧
      ((run (Interleave.step (transactions enrolledTwice))
        (initial pendingWorker (before pendingWorker)) together).map
          fun σ => σ.env.credentials)
        = some [(generate_enrollment_token 1, generate_worker_secret 3),
          (generate_enrollment_token 1, generate_worker_secret 2)] := by
  constructor
  · decide +kernel
  · decide +kernel

end PaCopilot.workers
