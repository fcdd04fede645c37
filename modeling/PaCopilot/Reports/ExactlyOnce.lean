/-
A worker that finishes one execution, and the backend that its requests reach.

The worker (`execute_job` of `jobs/poller.py`) uploads each file it produced, then reports
success up to five times, and reports a failure when anything goes wrong. It hears an answer
or gives up on it; a request that it has sent may arrive any number of times, or never.

The backend handles each arrival in a transaction of its own. A transaction answers once its
writes are flushed and commits after that: the session is closed, and with it committed, when
the response has been sent. From the flush on it keeps others from writing the row of the
execution, or from filling the slot of an artifact. It may be rolled back at any moment.
-/
import PaCopilot.Python
import PaCopilot.Reports.Artifacts
import PaCopilot.Reports.Concurrency

set_option autoImplicit false

namespace PaCopilot.reports.exactly_once

open Run Table

/-! ## The worker and the backend -/

/-- One run of one execution on one worker: the rows as the worker begins to upload, and what
its calls will carry. An execution is claimed once, so it has no artifacts yet. The files have
different checksums where their bytes differ. -/
structure Job where
  lib : Library
  settings : Settings
  worker : ReportWorker
  execution : ReportExecution
  retry : Option ReportExecution
  artifacts : List ReportArtifact
  produced : List Upload
  trace_log : Option String
  diagnostics : Diagnostics
  leased : execution.status.leased = true
  none_yet : ∀ a ∈ artifacts, a.report_execution_id ≠ execution.id
  one_each : Unique everyRow ReportArtifact.slot artifacts
  checksums : ∀ a ∈ artifacts, a.checksum = lib.sha256 a.content
  no_collision : ∀ u ∈ produced, ∀ v ∈ produced,
    lib.sha256 u.content = lib.sha256 v.content → u.content = v.content

/-- A call of the worker: `upload_artifact` with the file at a place of the list,
`complete_job`, or `fail_job`. -/
inductive Call
  | upload (k : ℕ)
  | complete
  | fail (error_code : String)
  deriving DecidableEq

/-- Where the worker is: `k` files are uploaded, and the next is on its way or not; the call
that reports success is on its way for the `m`-th time; it has no more to send. -/
inductive Worker
  | ready (k : ℕ)
  | uploading (k : ℕ)
  | completing (m : ℕ)
  | stopped
  deriving DecidableEq

/-- What a transaction has flushed: nothing, a new artifact, or the row of the execution, with
what it had read of it, and the retry. -/
inductive Write
  | nothing
  | artifact (a : ReportArtifact)
  | row (found new : ReportExecution) (retry : Option ReportExecution)
  deriving DecidableEq

/-- Where the transaction of one arrival is, with the number of the request. -/
inductive Handler
  | idle
  | read (n : ℕ) (execution : ReportExecution)
  | looked (n : ℕ) (execution : ReportExecution) (existing : Option ReportArtifact)
  | flushed (n : ℕ) (write : Write)
  | closed
  deriving DecidableEq

/-- What is committed; the worker, and the requests it has sent; the transactions, and what
they keep from each other; the requests that a transaction has answered, and those whose
effects are committed. -/
structure State (Id : Type) where
  execution : ReportExecution
  retry : Option ReportExecution
  artifacts : List ReportArtifact
  worker : Worker
  sent : List Call
  handler : Id → Handler
  row_held : Option Id
  slot_held : ℕ × String → Option Id
  answered : List ℕ
  recorded : List ℕ

/-- `_COMPLETE_ATTEMPTS`. -/
def _COMPLETE_ATTEMPTS : ℕ := 5

inductive Event (Id : Type)
  | uploads
  | uploaded
  | breaks (error_code : String)
  | completes
  | completed
  | gives_up
  | stops
  | arrives (i : Id) (n : ℕ)
  | looks (i : Id)
  | flushes (i : Id) (now : Time)
  | commits (i : Id)
  | dies (i : Id)
  deriving DecidableEq

section Step

variable {Id : Type} [DecidableEq Id] (job : Job)

def initial : State Id where
  execution := job.execution
  retry := job.retry
  artifacts := job.artifacts
  worker := .ready 0
  sent := []
  handler _ := .idle
  row_held := none
  slot_held _ := none
  answered := []
  recorded := []

namespace State

variable (σ : State Id)

/-- The worker sends a call. -/
def send (call : Call) (worker : Worker) : State Id :=
  { σ with sent := σ.sent ++ [call], worker := worker }

/-- The call that the worker waits for was answered. -/
def heard : Bool := σ.answered.contains (σ.sent.length - 1)

/-- A transaction ends, and keeps nothing from the others. -/
def close (i : Id) : State Id :=
  { σ with
    handler := Function.update σ.handler i .closed
    row_held := if σ.row_held = some i then none else σ.row_held
    slot_held := fun slot => if σ.slot_held slot = some i then none else σ.slot_held slot }

/-- A transaction without writes of its own has answered. -/
def answer (i : Id) (n : ℕ) : State Id :=
  { σ with
    handler := Function.update σ.handler i (.flushed n .nothing)
    answered := n :: σ.answered
    recorded := n :: σ.recorded }

/-- A transaction inserts an artifact, once nobody else is about to fill the slot, and
answers. The unique index refuses it where the slot is filled. -/
def insert (i : Id) (n : ℕ) (a : ReportArtifact) : Option (State Id) :=
  if σ.slot_held a.slot ≠ none then none
  else if ∃ b ∈ σ.artifacts, b.slot = a.slot then some (σ.close i)
  else some { σ with
    handler := Function.update σ.handler i (.flushed n (.artifact a))
    slot_held := Function.update σ.slot_held a.slot (some i)
    answered := n :: σ.answered }

/-- A transaction updates the row of the execution, once nobody else is about to, and
answers. -/
def update (i : Id) (n : ℕ) (found new : ReportExecution) (retry : Option ReportExecution) :
    Option (State Id) :=
  if new = found then some (σ.answer i n)
  else if σ.row_held ≠ none then none
  else some { σ with
    handler := Function.update σ.handler i (.flushed n (.row found new retry))
    row_held := some i
    answered := n :: σ.answered }

end State

/-- What a call asks of the row of the execution. -/
def operation (now : Time) : Call → Option Operation
  | .upload _ => none
  | .complete => some (.succeed now job.worker job.trace_log job.diagnostics)
  | .fail error_code => some (.fail now job.worker (some error_code) none [])

/-- One step: of the worker, of the network, or of a transaction. -/
def step (σ : State Id) : Event Id → Option (State Id)
  | .uploads =>
    match σ.worker with
    | .ready k => if k < job.produced.length then some (σ.send (.upload k) (.uploading k)) else none
    | _ => none
  | .uploaded =>
    match σ.worker with
    | .uploading k => if σ.heard then some { σ with worker := .ready (k + 1) } else none
    | _ => none
  -- the worker reports a failure from wherever it is, and is done
  | .breaks error_code =>
    match σ.worker with
    | .stopped => none
    | _ => some (σ.send (.fail error_code) .stopped)
  | .completes =>
    match σ.worker with
    | .ready k =>
      if 0 < k ∧ k = job.produced.length then some (σ.send .complete (.completing 1)) else none
    -- no answer, or one that is worth another attempt
    | .completing m =>
      if m < _COMPLETE_ATTEMPTS then some (σ.send .complete (.completing (m + 1))) else none
    | _ => none
  | .completed =>
    match σ.worker with
    | .completing _ => if σ.heard then some { σ with worker := .stopped } else none
    | _ => none
  | .gives_up =>
    match σ.worker with
    | .completing m =>
      if m = _COMPLETE_ATTEMPTS then some (σ.send (.fail "artifact_upload_failed") .stopped) else none
    | _ => none
  | .stops => some { σ with worker := .stopped }
  -- a request is handled as often as the network delivers it
  | .arrives i n =>
    if σ.handler i = .idle ∧ n < σ.sent.length then
      some { σ with handler := Function.update σ.handler i (.read n σ.execution) }
    else none
  | .looks i =>
    match σ.handler i with
    | .read n execution =>
      match σ.sent[n]? with
      | some (.upload k) =>
        match job.produced[k]? with
        | none => none
        | some upload =>
          match upload_format job.worker execution upload >>= fun output_format =>
              get_by_execution_and_format σ.artifacts execution.id output_format.value with
          | .error _ => some (σ.close i)
          | .ok existing =>
            some { σ with handler := Function.update σ.handler i (.looked n execution existing) }
      | _ => none
    | _ => none
  | .flushes i now =>
    match σ.handler i with
    | .looked n execution existing =>
      match σ.sent[n]? with
      | some (.upload k) =>
        match job.produced[k]? with
        | none => none
        | some upload =>
          match upload_artifact job.lib job.worker execution upload existing with
          | .error _ => some (σ.close i)
          | .ok (_, false) => some (σ.answer i n)
          | .ok (a, true) => σ.insert i n a
      | _ => none
    -- the other requests change the row of the execution
    | .read n execution =>
      match σ.sent[n]?.bind (operation job now) with
      | none => none
      | some op =>
        match change job.settings op execution σ.retry with
        | .error _ => some (σ.close i)
        | .ok (new, retry) => σ.update i n execution new retry
    | _ => none
  | .commits i =>
    match σ.handler i with
    | .flushed _ .nothing => some (σ.close i)
    | .flushed n (.artifact a) =>
      some { σ.close i with artifacts := σ.artifacts ++ [a], recorded := n :: σ.recorded }
    | .flushed n (.row found new retry) =>
      some { σ.close i with
        execution := flush found new σ.execution
        retry := retry
        recorded := n :: σ.recorded }
    | _ => none
  -- a handler that dies before its commit has changed nothing
  | .dies i =>
    match σ.handler i with
    | .idle => none
    | .closed => none
    | _ => some (σ.close i)

end Step

/-! ## What is asked -/

section Asked

variable {Id : Type} [DecidableEq Id] (job : Job)

/-- Request `n` uploads this file. -/
def Uploads (sent : List Call) (n : ℕ) (u : Upload) : Prop :=
  ∃ k, sent[n]? = some (.upload k) ∧ job.produced[k]? = some u

/-- A file is stored as an artifact of the execution. -/
def Stored (artifacts : List ReportArtifact) (u : Upload) : Prop :=
  ∃ a ∈ artifacts, a.slot = (job.execution.id, u.output_format) ∧ a.content = u.content

/-- An upload of the same bytes to the same slot is committed. -/
def Settled (σ : State Id) (u : Upload) : Prop :=
  ∃ n ∈ σ.recorded, ∃ v, Uploads job σ.sent n v ∧ v.output_format = u.output_format ∧
    v.content = u.content

/-- What is true after a step. -/
structure Right (σ : State Id) (event : Event Id) (σ' : State Id) : Prop where
  one_each : Unique everyRow ReportArtifact.slot σ'.artifacts
  checksum : ∀ a ∈ σ'.artifacts, a.checksum = job.lib.sha256 a.content
  kept : ∀ a ∈ σ.artifacts, a ∈ σ'.artifacts
  refused : ∀ i now n execution existing u, event = .flushes i now →
    σ.handler i = .looked n execution existing → Uploads job σ.sent n u →
    ∀ a ∈ σ.artifacts, a.slot = (job.execution.id, u.output_format) → a.content ≠ u.content →
      σ' = σ.close i
  stored : σ'.execution.status = .SUCCEEDED → ∀ u ∈ job.produced, Stored job σ'.artifacts u
  final : σ.execution.status = .SUCCEEDED → σ'.execution.status = .SUCCEEDED

/-- When a success commits, every upload that was answered is committed; when a failure
commits, the execution has not succeeded. -/
def Undisturbed (σ : State Id) : Event Id → Prop
  | .commits i => ∀ n found new retry, σ.handler i = .flushed n (.row found new retry) →
    (σ.sent[n]? = some .complete → ∀ m ∈ σ.answered, ∀ u, Uploads job σ.sent m u → Settled job σ u) ∧
      ∀ error_code, σ.sent[n]? = some (.fail error_code) → σ.execution.status ≠ .SUCCEEDED
  | _ => True

end Asked

/-! ## What every step keeps -/

section Invariant

variable {Id : Type} [DecidableEq Id] {job : Job}

/-- The first `k` files were answered for. -/
def Answered (σ : State Id) (k : ℕ) : Prop :=
  ∀ j < k, ∃ n ∈ σ.answered, σ.sent[n]? = some (.upload j)

/-- The worker reports a success only after an answer for every file. -/
def Worker.Sound (job : Job) (σ : State Id) : Worker → Prop
  | .ready k => Answered σ k
  | .uploading k => Answered σ k ∧ σ.sent[σ.sent.length - 1]? = some (.upload k)
  | .completing _ => Answered σ job.produced.length
  | .stopped => True

/-- What a transaction has read is of this execution, and what it has flushed is of its
request; no other fills the slot that it is about to fill. -/
def Handler.Sound (job : Job) (σ : State Id) (i : Id) : Handler → Prop
  | .idle | .closed => True
  | .read n execution => execution.id = job.execution.id ∧ n < σ.sent.length
  | .looked n execution existing => execution.id = job.execution.id ∧ n < σ.sent.length ∧
    ∀ a, existing = some a → ∀ u, Uploads job σ.sent n u →
      a ∈ σ.artifacts ∧ a.slot = (job.execution.id, u.output_format)
  | .flushed _ .nothing => True
  | .flushed n (.artifact a) => σ.slot_held a.slot = some i ∧ (∀ b ∈ σ.artifacts, b.slot ≠ a.slot) ∧
    a.checksum = job.lib.sha256 a.content ∧ n < σ.sent.length ∧
    ∃ u, Uploads job σ.sent n u ∧ a.slot = (job.execution.id, u.output_format) ∧
      a.content = u.content
  | .flushed n (.row found new _) => new.status ≠ found.status ∧ n < σ.sent.length ∧
    ((σ.sent[n]? = some .complete ∧ new.status = .SUCCEEDED) ∨
      ∃ error_code, σ.sent[n]? = some (.fail error_code) ∧ new.status ≠ .SUCCEEDED)

structure Invariant (job : Job) (σ : State Id) : Prop where
  same : σ.execution.id = job.execution.id
  one_each : Unique everyRow ReportArtifact.slot σ.artifacts
  checksum : ∀ a ∈ σ.artifacts, a.checksum = job.lib.sha256 a.content
  own : ∀ a ∈ σ.artifacts, a.report_execution_id = job.execution.id →
    ∃ n ∈ σ.recorded, ∃ u, Uploads job σ.sent n u ∧ a.output_format = u.output_format ∧
      a.content = u.content
  recorded : ∀ n ∈ σ.recorded, n < σ.sent.length ∧
    ∀ u, Uploads job σ.sent n u → Stored job σ.artifacts u
  handlers : ∀ i, (σ.handler i).Sound job σ i
  worker : σ.worker.Sound job σ
  completes : .complete ∈ σ.sent → Answered σ job.produced.length

omit [DecidableEq Id] in
theorem invariant_initial : Invariant job (initial job : State Id) where
  same := rfl
  one_each := job.one_each
  checksum := job.checksums
  own a ha hid := absurd hid (job.none_yet a ha)
  recorded n hn := nomatch hn
  handlers i := by
    rw [initial]
    exact trivial
  worker j hj := absurd hj (Nat.not_lt_zero j)
  completes h := nomatch h

/-! ### What was sent stays sent -/

theorem getElem?_later {sent sent' : List Call} (h : sent <+: sent') {n : ℕ} {call : Call}
    (hn : sent[n]? = some call) : sent'[n]? = some call := by
  obtain ⟨later, rfl⟩ := h
  rw [List.getElem?_append_left (List.getElem?_eq_some_iff.mp hn).1]
  exact hn

theorem getElem?_earlier {sent sent' : List Call} (h : sent <+: sent') {n : ℕ}
    (hn : n < sent.length) : sent'[n]? = sent[n]? := by
  obtain ⟨later, rfl⟩ := h
  exact List.getElem?_append_left hn

theorem Uploads.later {sent sent' : List Call} (h : sent <+: sent') {n : ℕ} {u : Upload}
    (hn : Uploads job sent n u) : Uploads job sent' n u := by
  obtain ⟨k, hk, hu⟩ := hn
  exact ⟨k, getElem?_later h hk, hu⟩

theorem Uploads.earlier {sent sent' : List Call} (h : sent <+: sent') {n : ℕ}
    (hlen : n < sent.length) {u : Upload} (hn : Uploads job sent' n u) : Uploads job sent n u := by
  obtain ⟨k, hk, hu⟩ := hn
  rw [getElem?_earlier h hlen] at hk
  exact ⟨k, hk, hu⟩

/-- A request carries one file. -/
theorem Uploads.unique {sent : List Call} {n : ℕ} {u v : Upload} (hu : Uploads job sent n u)
    (hv : Uploads job sent n v) : u = v := by
  obtain ⟨k, hk, hku⟩ := hu
  obtain ⟨k', hk', hkv⟩ := hv
  rw [hk, Option.some.injEq, Call.upload.injEq] at hk'
  rw [← hk', hku, Option.some.injEq] at hkv
  exact hkv

theorem Uploads.mem {sent : List Call} {n : ℕ} {u : Upload} (hu : Uploads job sent n u) :
    u ∈ job.produced := by
  obtain ⟨k, -, hku⟩ := hu
  exact List.mem_of_getElem? hku

theorem Stored.later {artifacts artifacts' : List ReportArtifact} {u : Upload}
    (h : ∀ a ∈ artifacts, a ∈ artifacts') (hu : Stored job artifacts u) :
    Stored job artifacts' u := by
  obtain ⟨a, ha, hslot, hcontent⟩ := hu
  exact ⟨a, h a ha, hslot, hcontent⟩

/-- What a step leaves of what the other transactions rely on. -/
structure Later (σ σ' : State Id) (i : Id) : Prop where
  sent : σ.sent <+: σ'.sent
  artifacts : ∀ a ∈ σ.artifacts, a ∈ σ'.artifacts
  held : ∀ slot, σ.slot_held slot = some i → σ'.slot_held slot = some i ∧
    ∀ a ∈ σ'.artifacts, a.slot = slot → a ∈ σ.artifacts

omit [DecidableEq Id] in
theorem Handler.Sound.later {σ σ' : State Id} {i : Id} (h : Later σ σ' i) {stage : Handler}
    (hstage : stage.Sound job σ i) : stage.Sound job σ' i := by
  have hlen := h.sent.length_le
  rcases stage with _ | ⟨n, execution⟩ | ⟨n, execution, existing⟩ |
    ⟨n, _ | a | ⟨found, new, retry⟩⟩ | _
  · trivial
  · exact ⟨hstage.1, Nat.lt_of_lt_of_le hstage.2 hlen⟩
  · obtain ⟨hid, hn, hfound⟩ := hstage
    refine ⟨hid, Nat.lt_of_lt_of_le hn hlen, fun a ha u hu => ?_⟩
    obtain ⟨hmem, hslot⟩ := hfound a ha u (hu.earlier h.sent hn)
    exact ⟨h.artifacts a hmem, hslot⟩
  · trivial
  · obtain ⟨hheld, hfree, hchecksum, hn, u, hu, hslot, hcontent⟩ := hstage
    obtain ⟨hheld', hnew⟩ := h.held a.slot hheld
    refine ⟨hheld', fun b hb hsame => ?_, hchecksum, Nat.lt_of_lt_of_le hn hlen, u, hu.later h.sent, hslot,
      hcontent⟩
    exact hfree b (hnew b hb hsame) hsame
  · obtain ⟨hmoved, hn, hcall⟩ := hstage
    refine ⟨hmoved, Nat.lt_of_lt_of_le hn hlen, ?_⟩
    rw [getElem?_earlier h.sent hn]
    exact hcall
  · trivial

omit [DecidableEq Id] in
theorem Answered.later {σ σ' : State Id} (hsent : σ.sent <+: σ'.sent)
    (hanswered : ∀ n ∈ σ.answered, n ∈ σ'.answered) {k : ℕ} (h : Answered σ k) : Answered σ' k := by
  intro j hj
  obtain ⟨n, hn, hcall⟩ := h j hj
  exact ⟨n, hanswered n hn, getElem?_later hsent hcall⟩

/-! ### The steps of the worker -/

section Steps

variable {σ : State Id} {i : Id} {n : ℕ}

omit [DecidableEq Id] in
theorem Worker.Sound.later {σ σ' : State Id} (hsent : σ'.sent = σ.sent)
    (hanswered : ∀ m ∈ σ.answered, m ∈ σ'.answered) {worker : Worker}
    (h : worker.Sound job σ) : worker.Sound job σ' := by
  have hgrows : σ.sent <+: σ'.sent := hsent ▸ List.prefix_rfl
  cases worker with
  | ready k => exact Answered.later hgrows hanswered h
  | uploading k =>
    refine ⟨Answered.later hgrows hanswered h.1, ?_⟩
    rw [hsent]
    exact h.2
  | completing m => exact Answered.later hgrows hanswered h
  | stopped => trivial

omit [DecidableEq Id] in
/-- The worker sends a call: it reports a success once every file was answered for. -/
theorem Invariant.send (h : Invariant job σ) {call : Call} {worker : Worker}
    (hcomplete : call = .complete → Answered σ job.produced.length)
    (hworker : worker.Sound job (σ.send call worker)) : Invariant job (σ.send call worker) := by
  have hgrows : σ.sent <+: (σ.send call worker).sent := List.prefix_append _ _
  have hlen := hgrows.length_le
  refine ⟨h.same, h.one_each, h.checksum, fun a ha hid => ?_, fun m hm => ?_, fun j => ?_, hworker,
    fun hmem => ?_⟩
  · obtain ⟨m, hm, u, hu, hsame⟩ := h.own a ha hid
    exact ⟨m, hm, u, hu.later hgrows, hsame⟩
  · obtain ⟨hlt, hstored⟩ := h.recorded m hm
    exact ⟨Nat.lt_of_lt_of_le hlt hlen, fun u hu => hstored u (hu.earlier hgrows hlt)⟩
  · exact (h.handlers j).later ⟨hgrows, fun a ha => ha, fun slot hslot => ⟨hslot, fun a ha _ => ha⟩⟩
  · have hanswered : Answered σ job.produced.length := by
      rcases List.mem_append.mp hmem with hmem | hmem
      · exact h.completes hmem
      · exact hcomplete (List.mem_singleton.mp hmem).symm
    exact Answered.later hgrows (fun m hm => hm) hanswered

omit [DecidableEq Id] in
/-- The worker goes on. -/
theorem Invariant.turn (h : Invariant job σ) (worker : Worker) (hworker : worker.Sound job σ) :
    Invariant job { σ with worker := worker } := by
  have hsound : worker.Sound job { σ with worker := worker } :=
    hworker.later rfl fun m hm => hm
  refine ⟨h.same, h.one_each, h.checksum, h.own, h.recorded, fun j => ?_, hsound, h.completes⟩
  exact (h.handlers j).later
    ⟨List.prefix_rfl, fun a ha => ha, fun slot hslot => ⟨hslot, fun a ha _ => ha⟩⟩

/-! ### The steps of a transaction -/

/-- What others hold, they hold after a transaction is closed. -/
theorem held_close {j : Id} (hji : j ≠ i) {slot : ℕ × String} (h : σ.slot_held slot = some j) :
    (σ.close i).slot_held slot = some j := by
  have hother : ¬ σ.slot_held slot = some i := by
    rw [h]
    exact fun heq => hji (Option.some.inj heq)
  exact (if_neg hother).trans h

/-- A step of a transaction that inserts nothing. -/
structure Turns (job : Job) (σ σ' : State Id) (i : Id) (stage : Handler) : Prop where
  id : σ'.execution.id = σ.execution.id
  artifacts : σ'.artifacts = σ.artifacts
  sent : σ'.sent = σ.sent
  worker : σ'.worker = σ.worker
  handler : σ'.handler = Function.update σ.handler i stage
  held : ∀ j, j ≠ i → ∀ slot, σ.slot_held slot = some j → σ'.slot_held slot = some j
  answered : ∀ m ∈ σ.answered, m ∈ σ'.answered
  kept : ∀ m ∈ σ.recorded, m ∈ σ'.recorded
  recorded : ∀ m ∈ σ'.recorded, m ∈ σ.recorded ∨
    (m < σ.sent.length ∧ ∀ u, Uploads job σ.sent m u → Stored job σ.artifacts u)

/-- The transactions and the worker after a step of one transaction. -/
theorem Invariant.parties (h : Invariant job σ) (σ' : State Id) (stage : Handler)
    (hsent : σ'.sent = σ.sent) (hworker : σ'.worker = σ.worker)
    (hanswered : ∀ m ∈ σ.answered, m ∈ σ'.answered)
    (hhandler : σ'.handler = Function.update σ.handler i stage) (hstage : stage.Sound job σ' i)
    (hlater : ∀ j, j ≠ i → Later σ σ' j) :
    (∀ j, (σ'.handler j).Sound job σ' j) ∧ σ'.worker.Sound job σ' ∧
      (.complete ∈ σ'.sent → Answered σ' job.produced.length) := by
  refine ⟨fun j => ?_, ?_, fun hmem => ?_⟩
  · rw [hhandler]
    by_cases hji : j = i
    · rw [hji, Function.update_self]
      exact hstage
    · rw [Function.update_of_ne hji]
      exact (h.handlers j).later (hlater j hji)
  · rw [hworker]
    exact h.worker.later hsent hanswered
  · rw [hsent] at hmem
    exact Answered.later (hsent ▸ List.prefix_rfl) hanswered (h.completes hmem)

theorem Invariant.turns (h : Invariant job σ) {σ' : State Id} (i : Id) (stage : Handler)
    (hturns : Turns job σ σ' i stage) (hstage : stage.Sound job σ' i) : Invariant job σ' := by
  have hlater : ∀ j, j ≠ i → Later σ σ' j := fun j hji =>
    ⟨hturns.sent ▸ List.prefix_rfl, fun a ha => hturns.artifacts ▸ ha,
      fun slot hslot => ⟨hturns.held j hji slot hslot, fun a ha _ => hturns.artifacts ▸ ha⟩⟩
  obtain ⟨hhandlers, hworker, hcompletes⟩ := h.parties σ' stage hturns.sent hturns.worker hturns.answered
    hturns.handler hstage hlater
  refine ⟨hturns.id.trans h.same, hturns.artifacts ▸ h.one_each, hturns.artifacts ▸ h.checksum,
    fun a ha hid => ?_, fun m hm => ?_, hhandlers, hworker, hcompletes⟩
  · rw [hturns.artifacts] at ha
    rw [hturns.sent]
    obtain ⟨m, hm, rest⟩ := h.own a ha hid
    exact ⟨m, hturns.kept m hm, rest⟩
  · rw [hturns.sent, hturns.artifacts]
    rcases hturns.recorded m hm with hm | hnew
    · exact h.recorded m hm
    · exact hnew

theorem Invariant.close (h : Invariant job σ) (i : Id) : Invariant job (σ.close i) := by
  refine h.turns i .closed ?_ trivial
  exact ⟨rfl, rfl, rfl, rfl, rfl, fun j hji slot hslot => held_close hji hslot, fun m hm => hm,
    fun m hm => hm, fun m hm => .inl hm⟩

/-- A transaction goes on without an answer. -/
theorem Invariant.reads (h : Invariant job σ) (stage : Handler) (hstage : stage.Sound job σ i) :
    Invariant job { σ with handler := Function.update σ.handler i stage } := by
  refine h.turns i stage ?_ (hstage.later ?_)
  · exact ⟨rfl, rfl, rfl, rfl, rfl, fun j hji slot hslot => hslot, fun m hm => hm, fun m hm => hm,
      fun m hm => .inl hm⟩
  · exact ⟨List.prefix_rfl, fun a ha => ha, fun slot hslot => ⟨hslot, fun a ha _ => ha⟩⟩

theorem Invariant.answer (h : Invariant job σ) (hn : n < σ.sent.length)
    (hstored : ∀ u, Uploads job σ.sent n u → Stored job σ.artifacts u) :
    Invariant job (σ.answer i n) := by
  refine h.turns i (.flushed n .nothing) ?_ trivial
  refine ⟨rfl, rfl, rfl, rfl, rfl, fun j hji slot hslot => hslot,
    fun m hm => List.mem_cons_of_mem n hm, fun m hm => List.mem_cons_of_mem n hm, fun m hm => ?_⟩
  rcases List.mem_cons.mp hm with rfl | hm
  · exact .inr ⟨hn, hstored⟩
  · exact .inl hm

/-- The artifact that an upload made waits for its commit, and its slot with it. -/
theorem Invariant.insert (h : Invariant job σ) {σ' : State Id} {a : ReportArtifact} {u : Upload}
    (hn : n < σ.sent.length) (hu : Uploads job σ.sent n u)
    (hslot : a.slot = (job.execution.id, u.output_format)) (hcontent : a.content = u.content)
    (hchecksum : a.checksum = job.lib.sha256 u.content) (hinsert : σ.insert i n a = some σ') :
    Invariant job σ' := by
  unfold State.insert at hinsert
  by_cases hheld : σ.slot_held a.slot ≠ none
  · rw [if_pos hheld] at hinsert
    cases hinsert
  rw [if_neg hheld] at hinsert
  rw [not_not] at hheld
  by_cases hfilled : ∃ b ∈ σ.artifacts, b.slot = a.slot
  · rw [if_pos hfilled, Option.some.injEq] at hinsert
    rw [← hinsert]
    exact h.close i
  rw [if_neg hfilled, Option.some.injEq] at hinsert
  rw [← hinsert]
  refine h.turns i (.flushed n (.artifact a)) ?_ ?_
  · refine ⟨rfl, rfl, rfl, rfl, rfl, fun j hji slot hj => ?_,
      fun m hm => List.mem_cons_of_mem n hm, fun m hm => hm, fun m hm => .inl hm⟩
    -- the slot was free, so no other transaction held it
    have hne : slot ≠ a.slot := by
      rintro rfl
      rw [hheld] at hj
      cases hj
    exact (Function.update_of_ne hne ..).trans hj
  · refine ⟨Function.update_self .., fun b hb hsame => hfilled ⟨b, hb, hsame⟩, ?_, hn, u, hu, hslot,
      hcontent⟩
    rw [hcontent]
    exact hchecksum

/-- The row that a report made waits for its commit. -/
theorem Invariant.update (h : Invariant job σ) {σ' : State Id} {found new : ReportExecution}
    {retry : Option ReportExecution} (hn : n < σ.sent.length)
    (hnot : ∀ u, ¬ Uploads job σ.sent n u)
    (hcall : new ≠ found → new.status ≠ found.status ∧
      ((σ.sent[n]? = some .complete ∧ new.status = .SUCCEEDED) ∨
        ∃ error_code, σ.sent[n]? = some (.fail error_code) ∧ new.status ≠ .SUCCEEDED))
    (hupdate : σ.update i n found new retry = some σ') : Invariant job σ' := by
  unfold State.update at hupdate
  by_cases hsame : new = found
  · rw [if_pos hsame, Option.some.injEq] at hupdate
    rw [← hupdate]
    exact h.answer hn fun u hu => absurd hu (hnot u)
  rw [if_neg hsame] at hupdate
  by_cases hheld : σ.row_held ≠ none
  · rw [if_pos hheld] at hupdate
    cases hupdate
  rw [if_neg hheld, Option.some.injEq] at hupdate
  rw [← hupdate]
  refine h.turns i (.flushed n (.row found new retry)) ?_ ?_
  · exact ⟨rfl, rfl, rfl, rfl, rfl, fun j hji slot hslot => hslot,
      fun m hm => List.mem_cons_of_mem n hm, fun m hm => hm, fun m hm => .inl hm⟩
  · exact ⟨(hcall hsame).1, hn, (hcall hsame).2⟩

/-- A transaction commits its row. -/
theorem Invariant.commit_row (h : Invariant job σ) {found new : ReportExecution}
    {retry : Option ReportExecution} (hstage : σ.handler i = .flushed n (.row found new retry)) :
    Invariant job { σ.close i with
      execution := flush found new σ.execution, retry := retry, recorded := n :: σ.recorded } := by
  have hsound := h.handlers i
  rw [hstage] at hsound
  obtain ⟨-, hn, hcall⟩ := hsound
  refine h.turns i .closed ?_ trivial
  refine ⟨rfl, rfl, rfl, rfl, rfl, fun j hji slot hslot => held_close hji hslot, fun m hm => hm,
    fun m hm => List.mem_cons_of_mem n hm, fun m hm => ?_⟩
  rcases List.mem_cons.mp hm with rfl | hm
  · refine .inr ⟨hn, fun u ⟨k, hk, _⟩ => ?_⟩
    rcases hcall with ⟨hcomplete, -⟩ | ⟨error_code, hfail, -⟩
    · rw [hcomplete] at hk
      cases hk
    · rw [hfail] at hk
      cases hk
  · exact .inl hm

/-- A transaction commits its artifact: the slot was kept free. -/
theorem Invariant.commit_artifact (h : Invariant job σ) {a : ReportArtifact}
    (hstage : σ.handler i = .flushed n (.artifact a)) :
    Invariant job { σ.close i with
      artifacts := σ.artifacts ++ [a], recorded := n :: σ.recorded } := by
  have hsound := h.handlers i
  rw [hstage] at hsound
  obtain ⟨hheld, hfree, hchecksum, hn, u, hu, hslot, hcontent⟩ := hsound
  have hlater : ∀ j, j ≠ i → Later σ { σ.close i with
      artifacts := σ.artifacts ++ [a], recorded := n :: σ.recorded } j := by
    refine fun j hji => ⟨List.prefix_rfl, fun b hb => List.mem_append_left _ hb,
      fun slot hj => ⟨held_close hji hj, fun b hb hsame => ?_⟩⟩
    rcases List.mem_append.mp hb with hb | hb
    · exact hb
    · -- the new artifact is in a slot that `i` held
      rw [List.mem_singleton.mp hb] at hsame
      rw [← hsame, hheld] at hj
      exact absurd (Option.some.inj hj).symm hji
  obtain ⟨hhandlers, hworker, hcompletes⟩ := h.parties { σ.close i with
    artifacts := σ.artifacts ++ [a], recorded := n :: σ.recorded } .closed rfl rfl
    (fun m hm => hm) rfl trivial hlater
  refine ⟨h.same, ?_, fun b hb => ?_, fun b hb hid => ?_, fun m hm => ?_, hhandlers, hworker,
    hcompletes⟩
  · exact (unique_append_iff rfl).mpr ⟨h.one_each, fun b hb _ => hfree b hb⟩
  · rcases List.mem_append.mp hb with hb | hb
    · exact h.checksum b hb
    · rw [List.mem_singleton.mp hb]
      exact hchecksum
  · rcases List.mem_append.mp hb with hb | hb
    · obtain ⟨m, hm, rest⟩ := h.own b hb hid
      exact ⟨m, List.mem_cons_of_mem n hm, rest⟩
    · rw [List.mem_singleton.mp hb]
      exact ⟨n, List.mem_cons_self, u, hu, congrArg Prod.snd hslot, hcontent⟩
  · rcases List.mem_cons.mp hm with rfl | hm
    · refine ⟨hn, fun v hv => ?_⟩
      rw [hv.unique hu]
      exact ⟨a, List.mem_append_right _ (List.mem_singleton_self a), hslot, hcontent⟩
    · obtain ⟨hlt, hstored⟩ := h.recorded m hm
      exact ⟨hlt, fun v hv => (hstored v hv).later fun b hb => List.mem_append_left _ hb⟩

omit [DecidableEq Id] in
/-- An artifact of the execution holds the bytes of a file, so one with the checksum of another
file holds its bytes. -/
theorem Invariant.same_bytes (h : Invariant job σ) {a : ReportArtifact} {u : Upload}
    (ha : a ∈ σ.artifacts) (hslot : a.slot = (job.execution.id, u.output_format))
    (hu : u ∈ job.produced) (hsame : a.checksum = job.lib.sha256 u.content) :
    a.content = u.content := by
  obtain ⟨m, -, v, hv, -, hcontent⟩ := h.own a ha (congrArg Prod.fst hslot)
  rw [h.checksum a ha, hcontent] at hsame
  rw [hcontent]
  exact job.no_collision v hv.mem u hu hsame

/-! ### What a report asks for -/

theorem complete_asks {settings : Settings} {now : Time} {worker : ReportWorker}
    {trace_log : Option String} {diagnostics : Diagnostics} {found new : ReportExecution}
    {retry retry' : Option ReportExecution}
    (h : change settings (.succeed now worker trace_log diagnostics) found retry
      = .ok (new, retry')) :
    new = found ∨ (new.status = .SUCCEEDED ∧ new.status ≠ found.status) := by
  rw [change] at h
  by_cases hdone : found.status = .SUCCEEDED
  · rw [if_pos hdone] at h
    cases h
    exact .inl rfl
  · rw [if_neg hdone] at h
    obtain ⟨succeeded, hsucceeded, h⟩ := bind_eq_ok_iff.mp h
    cases h
    have hstatus := (succeed_moved hsucceeded).status
    refine .inr ⟨hstatus, ?_⟩
    rw [hstatus]
    exact Ne.symm hdone

theorem fail_asks {settings : Settings} {now : Time} {worker : ReportWorker}
    {error_code trace_log : Option String} {diagnostics : Diagnostics}
    {found new : ReportExecution} {retry retry' : Option ReportExecution}
    (h : change settings (.fail now worker error_code trace_log diagnostics) found retry
      = .ok (new, retry')) :
    new.status ≠ .SUCCEEDED ∧ new.status ≠ found.status := by
  rw [change] at h
  obtain ⟨failed, hfailed, h⟩ := bind_eq_ok_iff.mp h
  have hmoved := (fail_moved rfl hfailed).1
  have hfound := hmoved.allowed
  rcases retried_changed hmoved h with ⟨hsame, -⟩ | ⟨htarget, -⟩ | ⟨-, hmark, hnot, -⟩
  · -- a retry aside, the row that is written is the failed one
    unfold retried at h
    split at h
    · cases h
      rw [hmoved.status] at hsame ⊢
      rw [← hsame] at hfound
      cases hfound
    · split at h
      · cases h
        rw [hmoved.status] at hsame ⊢
        rw [← hsame] at hfound
        cases hfound
      · obtain ⟨_, -, h⟩ := bind_eq_ok_iff.mp h
        obtain ⟨_, -, h⟩ := bind_eq_ok_iff.mp h
        cases h
        rw [← hsame] at hfound
        cases hfound
  · rw [← Option.some.inj htarget]
    refine ⟨by decide, fun hsame => ?_⟩
    rw [← hsame] at hfound
    cases hfound
  · rw [hmark]
    exact ⟨by decide, Ne.symm hnot⟩

omit [DecidableEq Id] in
/-- A report is no upload, and what it writes moves the row. -/
theorem operation_asks {now : Time} {op : Operation} {found new : ReportExecution}
    {retry retry' : Option ReportExecution}
    (hop : σ.sent[n]?.bind (operation job now) = some op)
    (h : change job.settings op found retry = .ok (new, retry')) :
    n < σ.sent.length ∧ (∀ u, ¬ Uploads job σ.sent n u) ∧ (new ≠ found → new.status ≠ found.status ∧
      ((σ.sent[n]? = some .complete ∧ new.status = .SUCCEEDED) ∨
        ∃ error_code, σ.sent[n]? = some (.fail error_code) ∧ new.status ≠ .SUCCEEDED)) := by
  obtain ⟨call, hcall, hop⟩ := Option.bind_eq_some_iff.mp hop
  have hn := (List.getElem?_eq_some_iff.mp hcall).1
  have hnot : (∀ k, call ≠ .upload k) → ∀ u, ¬ Uploads job σ.sent n u := by
    rintro hk u ⟨k, hsent, -⟩
    rw [hcall] at hsent
    exact hk k (Option.some.inj hsent)
  cases call with
  | upload k => cases hop
  | complete =>
    cases hop
    refine ⟨hn, hnot (by simp), fun hne => ?_⟩
    rcases complete_asks h with hsame | ⟨hstatus, hmoved⟩
    · exact absurd hsame hne
    · exact ⟨hmoved, .inl ⟨hcall, hstatus⟩⟩
  | fail error_code =>
    cases hop
    obtain ⟨hstatus, hmoved⟩ := fail_asks h
    exact ⟨hn, hnot (by simp), fun _ => ⟨hmoved, .inr ⟨error_code, hcall, hstatus⟩⟩⟩

/-! ### Every step -/

omit [DecidableEq Id] in
/-- The answer that the worker heard is one to the call that it waits for. -/
theorem heard_iff : σ.heard = true ↔ σ.sent.length - 1 ∈ σ.answered := by
  rw [State.heard, List.contains_iff_mem]

omit [DecidableEq Id] in
theorem Answered.succ {k : ℕ} (h : Answered σ k) (hheard : σ.heard = true)
    (hlast : σ.sent[σ.sent.length - 1]? = some (.upload k)) : Answered σ (k + 1) := by
  intro j hj
  rcases Nat.lt_succ_iff_lt_or_eq.mp hj with hlt | rfl
  · exact h j hlt
  · exact ⟨_, heard_iff.mp hheard, hlast⟩

omit [DecidableEq Id] in
theorem send_last {call : Call} {worker : Worker} :
    (σ.send call worker).sent[(σ.send call worker).sent.length - 1]? = some call := by
  simp [State.send]

omit [DecidableEq Id] in
theorem Answered.send {call : Call} {worker : Worker} {k : ℕ} (h : Answered σ k) :
    Answered (σ.send call worker) k := by
  have hgrows : σ.sent <+: (σ.send call worker).sent := List.prefix_append _ _
  exact Answered.later hgrows (fun _ hm => hm) h

/-- The steps of the worker. -/
theorem Invariant.uploads (h : Invariant job σ) {σ' : State Id}
    (hstep : step job σ .uploads = some σ') : Invariant job σ' := by
  simp only [step] at hstep
  split at hstep
  · rename_i k hworker
    have hsound := h.worker
    rw [hworker] at hsound
    split at hstep
    · rw [← Option.some.inj hstep]
      exact h.send (by simp) ⟨Answered.send hsound, send_last⟩
    · cases hstep
  · cases hstep

theorem Invariant.uploaded (h : Invariant job σ) {σ' : State Id}
    (hstep : step job σ .uploaded = some σ') : Invariant job σ' := by
  simp only [step] at hstep
  split at hstep
  · rename_i k hworker
    have hsound := h.worker
    rw [hworker] at hsound
    split at hstep
    · rename_i hheard
      rw [← Option.some.inj hstep]
      exact h.turn (.ready (k + 1)) (hsound.1.succ hheard hsound.2)
    · cases hstep
  · cases hstep

theorem Invariant.completes_step (h : Invariant job σ) {σ' : State Id}
    (hstep : step job σ .completes = some σ') : Invariant job σ' := by
  have hsound := h.worker
  simp only [step] at hstep
  split at hstep
  · rename_i k hworker
    rw [hworker] at hsound
    split at hstep
    · rename_i hall
      rw [← Option.some.inj hstep]
      have hanswered : Answered σ job.produced.length := hall.2 ▸ hsound
      exact h.send (fun _ => hanswered) (Answered.send hanswered)
    · cases hstep
  · rename_i m hworker
    rw [hworker] at hsound
    split at hstep
    · rw [← Option.some.inj hstep]
      exact h.send (fun _ => hsound) (Answered.send hsound)
    · cases hstep
  · cases hstep

/-- A lookup finds what is stored in the slot of the upload. -/
theorem Invariant.looks (h : Invariant job σ) {σ' : State Id}
    (hstep : step job σ (.looks i) = some σ') : Invariant job σ' := by
  have hsound := h.handlers i
  simp only [step] at hstep
  split at hstep
  · rename_i n execution hhandler
    rw [hhandler] at hsound
    obtain ⟨hid, hn⟩ := hsound
    split at hstep
    · rename_i k hcall
      split at hstep
      · cases hstep
      · rename_i upload hupload
        split at hstep
        · rw [← Option.some.inj hstep]
          exact h.close i
        · rename_i existing hexisting
          rw [← Option.some.inj hstep]
          refine h.reads (.looked n execution existing) ⟨hid, hn, fun a ha u hu => ?_⟩
          have hsame : u = upload := hu.unique ⟨k, hcall, hupload⟩
          obtain ⟨output_format, hformat, hfound⟩ := bind_eq_ok_iff.mp hexisting
          rw [ha] at hfound
          obtain ⟨hmem, hslot⟩ := get_by_execution_and_format_found hfound
          refine ⟨hmem, ?_⟩
          rw [hslot, hid, upload_format_ok hformat, hsame]
    · cases hstep
  · cases hstep

/-- An upload that is flushed has found its bytes stored, or is about to store them. -/
theorem Invariant.flushes (h : Invariant job σ) {now : Time} {σ' : State Id}
    (hstep : step job σ (.flushes i now) = some σ') : Invariant job σ' := by
  have hsound := h.handlers i
  simp only [step] at hstep
  split at hstep
  · rename_i n execution existing hhandler
    rw [hhandler] at hsound
    obtain ⟨hid, hn, hfound⟩ := hsound
    split at hstep
    · rename_i k hcall
      split at hstep
      · cases hstep
      · rename_i upload hupload
        have huploads : Uploads job σ.sent n upload := ⟨k, hcall, hupload⟩
        split at hstep
        · rw [← Option.some.inj hstep]
          exact h.close i
        · rename_i a hok
          rw [← Option.some.inj hstep]
          -- the handler found a row: the checksum that it compares stands for the bytes
          rcases existing with _ | existing
          · cases (upload_artifact_made hok).1
          · obtain ⟨hmem, hslot⟩ := hfound existing rfl upload huploads
            have hcontent := h.same_bytes hmem hslot huploads.mem (upload_artifact_found hok).2.2
            refine h.answer hn fun u hu => ?_
            rw [hu.unique huploads]
            exact ⟨existing, hmem, hslot, hcontent⟩
        · rename_i a hok
          rcases existing with _ | existing
          -- it found none, and inserts one, unless another handler was faster
          · obtain ⟨-, hslot, hcontent, hchecksum⟩ := upload_artifact_made hok
            rw [hid] at hslot
            exact h.insert hn huploads hslot hcontent hchecksum hstep
          · cases (upload_artifact_found hok).2.1
    · cases hstep
  · rename_i n execution hhandler
    split at hstep
    · cases hstep
    -- the other requests update the row of the execution
    · rename_i op hop
      split at hstep
      · rw [← Option.some.inj hstep]
        exact h.close i
      · rename_i new retry hchange
        obtain ⟨hn, hnot, hcall⟩ := operation_asks hop hchange
        exact h.update hn hnot hcall hstep
  · cases hstep

theorem Invariant.commits (h : Invariant job σ) {σ' : State Id}
    (hstep : step job σ (.commits i) = some σ') : Invariant job σ' := by
  simp only [step] at hstep
  split at hstep
  · rw [← Option.some.inj hstep]
    exact h.close i
  · rename_i n a hhandler
    rw [← Option.some.inj hstep]
    exact h.commit_artifact hhandler
  · rename_i n found new retry hhandler
    rw [← Option.some.inj hstep]
    exact h.commit_row hhandler
  · cases hstep

/-- **Every step keeps the invariant.** -/
theorem Invariant.step {event : Event Id} (h : Invariant job σ) {σ' : State Id}
    (hstep : exactly_once.step job σ event = some σ') : Invariant job σ' := by
  cases event with
  | uploads => exact h.uploads hstep
  | uploaded => exact h.uploaded hstep
  -- only a completion promises that everything before it was answered
  | breaks error_code =>
    simp only [exactly_once.step] at hstep
    split at hstep
    · cases hstep
    · rw [← Option.some.inj hstep]
      exact h.send (by simp) trivial
  | completes => exact h.completes_step hstep
  | completed =>
    simp only [exactly_once.step] at hstep
    split at hstep
    · split at hstep
      · rw [← Option.some.inj hstep]
        exact h.turn .stopped trivial
      · cases hstep
    · cases hstep
  | gives_up =>
    simp only [exactly_once.step] at hstep
    split at hstep
    · split at hstep
      · rw [← Option.some.inj hstep]
        exact h.send (by simp) trivial
      · cases hstep
    · cases hstep
  -- a worker that is done has nothing more to keep
  | stops =>
    rw [← Option.some.inj hstep]
    exact h.turn .stopped trivial
  | arrives i n =>
    simp only [exactly_once.step] at hstep
    split at hstep
    · rename_i harrives
      rw [← Option.some.inj hstep]
      exact h.reads (.read n σ.execution) ⟨h.same, harrives.2⟩
    · cases hstep
  | looks i => exact h.looks hstep
  | flushes i now => exact h.flushes hstep
  | commits i => exact h.commits hstep
  -- what a handler had read or flushed is gone with it
  | dies i =>
    simp only [exactly_once.step] at hstep
    split at hstep
    · cases hstep
    · cases hstep
    · rw [← Option.some.inj hstep]
      exact h.close i

/-! ## What a step leaves -/

/-- Nothing is committed. -/
structure Uncommitted (σ σ' : State Id) : Prop where
  execution : σ'.execution = σ.execution
  artifacts : σ'.artifacts = σ.artifacts

theorem insert_uncommitted {σ' : State Id} {a : ReportArtifact}
    (h : σ.insert i n a = some σ') : Uncommitted σ σ' := by
  unfold State.insert at h
  split at h
  · cases h
  · split at h
    · rw [← Option.some.inj h]
      exact ⟨rfl, rfl⟩
    · rw [← Option.some.inj h]
      exact ⟨rfl, rfl⟩

theorem update_uncommitted {σ' : State Id} {found new : ReportExecution}
    {retry : Option ReportExecution} (h : σ.update i n found new retry = some σ') :
    Uncommitted σ σ' := by
  unfold State.update at h
  split at h
  · rw [← Option.some.inj h]
    exact ⟨rfl, rfl⟩
  · split at h
    · cases h
    · rw [← Option.some.inj h]
      exact ⟨rfl, rfl⟩

/-- Only a commit changes what is committed. -/
theorem step_uncommitted {event : Event Id} {σ' : State Id} (h : step job σ event = some σ')
    (hcommits : ∀ i, event ≠ .commits i) : Uncommitted σ σ' := by
  cases event with
  | commits i => exact absurd rfl (hcommits i)
  | flushes i now =>
    simp only [step] at h
    repeat' split at h
    all_goals first
      | exact insert_uncommitted h
      | exact update_uncommitted h
      | (cases h; done)
      | (rw [← Option.some.inj h]; exact ⟨rfl, rfl⟩)
  | _ =>
    simp only [step] at h
    repeat' split at h
    all_goals first
      | (cases h; done)
      | (rw [← Option.some.inj h]; exact ⟨rfl, rfl⟩)

/-- **An upload of other bytes to a filled slot is refused.** -/
theorem Invariant.refused (h : Invariant job σ) {now : Time} {σ' : State Id}
    {execution : ReportExecution} {existing : Option ReportArtifact} {u : Upload}
    (hstep : exactly_once.step job σ (.flushes i now) = some σ')
    (hhandler : σ.handler i = .looked n execution existing) (hu : Uploads job σ.sent n u)
    {a : ReportArtifact} (ha : a ∈ σ.artifacts)
    (hslot : a.slot = (job.execution.id, u.output_format)) (hother : a.content ≠ u.content) :
    σ' = σ.close i := by
  have hsound := h.handlers i
  rw [hhandler] at hsound
  obtain ⟨hid, -, hfound⟩ := hsound
  obtain ⟨k, hcall, hupload⟩ := hu
  simp only [exactly_once.step, hhandler, hcall, hupload] at hstep
  split at hstep
  · exact (Option.some.inj hstep).symm
  · rename_i made hok
    rcases existing with _ | existing
    · cases (upload_artifact_made hok).1
    · -- what the lookup found is the artifact of the slot, and has another checksum
      obtain ⟨hmem, hsame⟩ := hfound existing rfl u ⟨k, hcall, hupload⟩
      have heq := h.one_each.eq ha hmem rfl rfl (hslot.trans hsame.symm)
      rw [heq] at hother
      exact absurd (h.same_bytes hmem hsame (List.mem_of_getElem? hupload)
        (upload_artifact_found hok).2.2) hother
  · rename_i made hok
    rcases existing with _ | existing
    · -- the slot was filled since
      obtain ⟨-, hmade, -⟩ := upload_artifact_made hok
      rw [hid, ← hslot] at hmade
      unfold State.insert at hstep
      split at hstep
      · cases hstep
      · rw [if_pos ⟨a, ha, hmade.symm⟩] at hstep
        exact (Option.some.inj hstep).symm
    · cases (upload_artifact_found hok).2.1

omit [DecidableEq Id] in
/-- Every file is stored once every upload that was answered is committed. -/
theorem Invariant.stored (h : Invariant job σ) (hcomplete : .complete ∈ σ.sent)
    (hsettled : ∀ m ∈ σ.answered, ∀ u, Uploads job σ.sent m u → Settled job σ u) {u : Upload}
    (hu : u ∈ job.produced) : Stored job σ.artifacts u := by
  obtain ⟨j, hj, hget⟩ := List.getElem_of_mem hu
  obtain ⟨m, hm, hcall⟩ := h.completes hcomplete j hj
  have huploads : Uploads job σ.sent m u := ⟨j, hcall, List.getElem?_eq_some_iff.mpr ⟨hj, hget⟩⟩
  obtain ⟨m', hm', v, hv, hformat, hcontent⟩ := hsettled m hm u huploads
  obtain ⟨a, ha, hslot, hbytes⟩ := (h.recorded m' hm').2 v hv
  exact ⟨a, ha, hformat ▸ hslot, hbytes.trans hcontent⟩

omit [DecidableEq Id] in
/-- What is stored was committed by an upload. -/
theorem Invariant.settled (h : Invariant job σ) {u : Upload} (hu : Stored job σ.artifacts u) :
    Settled job σ u := by
  obtain ⟨a, ha, hslot, hcontent⟩ := hu
  obtain ⟨m, hm, v, hv, hformat, hbytes⟩ := h.own a ha (congrArg Prod.fst hslot)
  exact ⟨m, hm, v, hv, hformat.symm.trans (congrArg Prod.snd hslot), hbytes.symm.trans hcontent⟩

/-- Every file is stored, if the execution has succeeded. -/
def Complete (job : Job) (σ : State Id) : Prop :=
  σ.execution.status = .SUCCEEDED → ∀ u ∈ job.produced, Stored job σ.artifacts u

/-- A step that keeps the status of the execution does what is asked. -/
theorem right_of_kept {event : Event Id} {σ' : State Id} (h : Invariant job σ)
    (hcomplete : Complete job σ) (hstep : step job σ event = some σ')
    (hstatus : σ'.execution.status = σ.execution.status)
    (hkept : ∀ a ∈ σ.artifacts, a ∈ σ'.artifacts) : Right job σ event σ' := by
  have h' := h.step hstep
  refine ⟨h'.one_each, h'.checksum, hkept, ?_, fun hdone u hu => ?_, fun hdone => ?_⟩
  · rintro i now n execution existing u rfl hhandler hu a ha hslot hother
    exact h.refused hstep hhandler hu ha hslot hother
  · rw [hstatus] at hdone
    exact (hcomplete hdone u hu).later hkept
  · rw [hstatus]
    exact hdone

/-- The status after a commit of a row that moved it. -/
theorem flush_status {found new : ReportExecution} (stored : ReportExecution)
    (h : new.status ≠ found.status) : (flush found new stored).status = new.status := if_neg h

/-- A step that commits no report keeps the status of the execution, and the artifacts. -/
theorem kept_of_step {event : Event Id} {σ' : State Id} (hstep : step job σ event = some σ')
    (hreport : ∀ i n found new retry, event = .commits i →
      σ.handler i ≠ .flushed n (.row found new retry)) :
    σ'.execution.status = σ.execution.status ∧ ∀ a ∈ σ.artifacts, a ∈ σ'.artifacts := by
  by_cases hcommits : ∃ i, event = .commits i
  · obtain ⟨i, rfl⟩ := hcommits
    simp only [step] at hstep
    split at hstep
    · rw [← Option.some.inj hstep]
      exact ⟨rfl, fun a ha => ha⟩
    · rw [← Option.some.inj hstep]
      exact ⟨rfl, fun a ha => List.mem_append_left _ ha⟩
    · rename_i n found new retry hhandler
      exact absurd hhandler (hreport i n found new retry rfl)
    · cases hstep
  · obtain ⟨hexecution, hartifacts⟩ := step_uncommitted hstep fun i hi => hcommits ⟨i, hi⟩
    rw [hexecution, hartifacts]
    exact ⟨rfl, fun a ha => ha⟩

/-- A report that commits. -/
theorem right_report_iff {found new : ReportExecution} {retry : Option ReportExecution}
    (h : Invariant job σ) (hhandler : σ.handler i = .flushed n (.row found new retry)) :
    (∀ σ', step job σ (.commits i) = some σ' → Right job σ (.commits i) σ') ↔
      Undisturbed job σ (.commits i) := by
  have hsound := h.handlers i
  rw [hhandler] at hsound
  obtain ⟨hmoved, -, hcall⟩ := hsound
  have hstatus := flush_status σ.execution hmoved
  have hstep : step job σ (.commits i) = some { σ.close i with
      execution := flush found new σ.execution, retry := retry, recorded := n :: σ.recorded } := by
    simp only [step, hhandler]
  constructor
  · intro hright m found' new' retry' hhandler'
    have hafter := hright _ hstep
    rw [hhandler, Handler.flushed.injEq] at hhandler'
    rw [← hhandler'.1]
    rcases hcall with ⟨hcall, hsucceeded⟩ | ⟨error_code, hcall, hfailed⟩
    · refine ⟨fun _ k _ u hu => ?_, fun error_code hfail => ?_⟩
      · exact h.settled (hafter.stored (hstatus.trans hsucceeded) u hu.mem)
      · rw [hcall] at hfail
        cases hfail
    · refine ⟨fun hreport => ?_, fun _ _ hdone => ?_⟩
      · rw [hcall] at hreport
        cases hreport
      · exact hfailed (hstatus.symm.trans (hafter.final hdone))
  · intro hundisturbed σ' hstep'
    have h' := h.step hstep'
    obtain ⟨hsettled, hnot⟩ := hundisturbed n found new retry hhandler
    rw [hstep, Option.some.injEq] at hstep'
    subst hstep'
    refine ⟨h'.one_each, h'.checksum, fun a ha => ha, by simp, fun hdone u hu => ?_, fun hdone => ?_⟩
    · rcases hcall with ⟨hcall, -⟩ | ⟨error_code, -, hfailed⟩
      · exact h.stored (List.mem_of_getElem? hcall) (hsettled hcall) hu
      · exact absurd (hstatus.symm.trans hdone) hfailed
    · rcases hcall with ⟨-, hsucceeded⟩ | ⟨error_code, hcall, -⟩
      · exact hstatus.trans hsucceeded
      · exact absurd hdone (hnot error_code hcall)

/-- **A step does what is asked exactly when it is undisturbed.** -/
theorem right_iff {event : Event Id} (h : Invariant job σ) (hcomplete : Complete job σ) :
    (∀ σ', step job σ event = some σ' → Right job σ event σ') ↔ Undisturbed job σ event := by
  by_cases hreport : ∃ i n found new retry, event = .commits i ∧
      σ.handler i = .flushed n (.row found new retry)
  · obtain ⟨i, n, found, new, retry, rfl, hhandler⟩ := hreport
    exact right_report_iff h hhandler
  · have hnone : ∀ i n found new retry, event = .commits i →
        σ.handler i ≠ .flushed n (.row found new retry) := fun i n found new retry hi hhandler =>
      hreport ⟨i, n, found, new, retry, hi, hhandler⟩
    refine iff_of_true (fun σ' hstep => ?_) ?_
    · obtain ⟨hstatus, hkept⟩ := kept_of_step hstep hnone
      exact right_of_kept h hcomplete hstep hstatus hkept
    · cases event with
      | commits i => exact fun n found new retry hhandler => absurd hhandler (hnone i n found new retry rfl)
      | _ => trivial

end Steps

/-- **Every step of a run does what is asked exactly when every step is undisturbed.** -/
theorem exactly_once_iff (job : Job) (events : List (Event Id)) :
    Along (step job) (fun σ event => ∀ σ', step job σ event = some σ' → Right job σ event σ')
        (initial job) events ↔
      Along (step job) (Undisturbed job) (initial job) events := by
  refine along_iff (I := Invariant job) (J := Complete job) ?_ ?_ ?_ invariant_initial ?_
  · exact fun σ event σ' h hstep => h.step hstep
  · exact fun σ event h hcomplete => right_iff h hcomplete
  · exact fun σ event σ' _ _ hright hstep => (hright σ' hstep).stored
  · intro hdone
    have hleased := job.leased
    rw [show job.execution.status = .SUCCEEDED from hdone] at hleased
    cases hleased

end Invariant

/-! ### A slow answer -/

/-- The last attempt of an execution, which produced the file `a`. -/
def lastAttempt : Job where
  lib := {
    sha256 := fun data => if data = [97] then
        "ca978112ca1bbdcafac231b39a23dc4da786eff8147c4e72b9807785afee48bb"
      else ""
    lower := Python.lowerAscii
    isalnum := Char.isAlphanum
    uuid_text := fun _ => "00000000-0000-0000-0000-000000000001".toList }
  settings := defaultSettings
  worker := runner
  execution := { runningExecution with attempt := 3 }
  retry := none
  artifacts := []
  produced := [{
    filename := "sales.csv"
    output_format := "csv"
    content := [97]
    checksum := some "ca978112ca1bbdcafac231b39a23dc4da786eff8147c4e72b9807785afee48bb" }]
  trace_log := none
  diagnostics := []
  leased := rfl
  none_yet := by simp
  one_each := by decide
  checksums := by simp
  no_collision := by simp

/-- The file is stored. Four reports of success are lost, the fifth is read and not answered
in time, and the worker gives up and reports a failure, which reads the same row. -/
def givenUp : List (Event ℕ) :=
  [.uploads, .arrives 0 0, .looks 0, .flushes 0 30, .commits 0, .uploaded,
    .completes, .completes, .completes, .completes, .completes, .arrives 1 5,
    .gives_up, .arrives 2 6, .flushes 1 40, .commits 1]

/-- The success is committed, and the failure after it. -/
theorem success_then_failure :
    ((run (step lastAttempt) (initial lastAttempt) givenUp).map fun σ => σ.execution.status)
      = some .SUCCEEDED ∧
    ((run (step lastAttempt) (initial lastAttempt) (givenUp ++ [.flushes 2 50, .commits 2])).map
      fun σ => σ.execution.status) = some .FAILED := by
  constructor
  · decide +kernel
  · decide +kernel

/-- The worker reports its success before the upload that was answered is committed. -/
example : ((run (step lastAttempt) (initial lastAttempt)
    ([.uploads, .arrives 0 0, .looks 0, .flushes 0 30, .uploaded, .completes, .arrives 1 1,
      .flushes 1 40, .commits 1] : List (Event ℕ))).map
        fun σ => (σ.execution.status, σ.artifacts.length)) = some (.SUCCEEDED, 0) := by
  decide +kernel

end PaCopilot.reports.exactly_once
