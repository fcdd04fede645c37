/-
Executing, rejecting, rolling back and creating changes at the same time.

The three operations that decide a draft lock its row and read it again under the
lock (`_lock`, `lock_for_update`), so each finds the row it read. `create_change`
does not: it reads the open drafts at its start, talks to TM1, and closes the
drafts it read when it stores the new one. What it closes may have been decided
in between.

One row is followed here, through any interleaving of such operations. The row
of TM1 beside it is the server, and a count of the executions whose write it has
carried out. An operation talks to TM1 while it holds the lock, so its calls are
one step with its end.
-/
import PaCopilot.Change.Writing
import PaCopilot.Change.Rollback
import PaCopilot.Change.Create
import PaCopilot.Lib.Interleave

set_option autoImplicit false

namespace PaCopilot

/-- The statuses a status may be followed by. -/
def ChangeStatus.next : ChangeStatus → List ChangeStatus
  | .draft => [.executed, .failed, .unknown, .rejected, .superseded]
  | .executed => [.rolled_back]
  | _ => []

namespace change_service

open Remote Interleave Run

/-! ## The operations as transactions -/

/-- TM1, and how many executions it has carried out the write of. -/
structure Tm1Side where
  server : Server
  executions : ℕ

/-- One of the four operations, with what it meets on its way. A creation stores a
new draft under an identifier, or none: it may be refused, or find that it
repeats an open draft. -/
inductive Operation
  | execute (caller : Caller) (answer : Answers) (executed_by now : ℕ) (acknowledge_impact : Bool)
  | reject
  | rollback (answer : RollbackAnswers) (now : ℕ)
  | create (p : Proposal) (change_type : ChangeType) (created : Option ℕ)

/-- What a request under `get_db` writes of the row it holds, and the server it
leaves. -/
def session {α : Type} (request : ChangeM α) (row : TM1Change) (s : Server) :
    Option (TM1Change → TM1Change) × Server :=
  match get_db request ⟨row, s⟩ with
  | (.ok _, w) => (some fun _ => w.mine, w.remote)
  | (.error _, w) => (none, w.remote)

/-- An execution in the session of its caller. -/
def executeSession (caller : Caller) (tm1 : TM1) (answer : Answers) (executed_by now : ℕ)
    (acknowledge_impact : Bool) (row : TM1Change) (s : Server) :
    Option (TM1Change → TM1Change) × Server :=
  match caller with
  | .route => session (execute_change tm1 answer executed_by now acknowledge_impact) row s
  | .assistant =>
    session (_execute_tool_call "apply_change"
      (ApplyChangeTool tm1 answer executed_by now acknowledge_impact)) row s

/-- What `create_change` writes of a row it read: once the new draft is stored, the
open drafts it stands against are closed. -/
def closes (p : Proposal) (change_type : ChangeType) (created : Option ℕ) (row : TM1Change) :
    Option (TM1Change → TM1Change) :=
  match created with
  | none => none
  | some draft =>
    if standsAgainst p change_type row && !sameContent p change_type row then
      some (Store.replaced [row.id] draft)
    else none

/-- An operation on the row. `create_change` is the one that does not lock it. -/
def transaction (tm1 : TM1) : Operation → Transaction TM1Change Tm1Side
  | .execute caller answer executed_by now acknowledge_impact =>
    { locks := true
      body := fun row side =>
        let (write, server) :=
          executeSession caller tm1 answer executed_by now acknowledge_impact row side.server
        (write, ⟨server, if wrote tm1 answer acknowledge_impact row side.server then
          side.executions + 1 else side.executions⟩) }
  | .reject =>
    { locks := true
      body := fun row side =>
        let (write, server) := session reject_change row side.server
        (write, { side with server := server }) }
  | .rollback answer now =>
    { locks := true
      body := fun row side =>
        let (write, server) := session (rollback_change tm1 answer now) row side.server
        (write, { side with server := server }) }
  | .create p change_type created =>
    -- an open draft of the same target is closed by the new one, unlocked
    { locks := false
      body := fun row side => (closes p change_type created row, side) }

variable {Id : Type} [DecidableEq Id]

/-- The operations on one change, while others change TM1. -/
def operations (tm1 : TM1) (operation : Id → Operation) :
    System Id TM1Change Tm1Side (Server → Server) where
  txn i := transaction tm1 (operation i)
  outside edit side := { side with server := edit side.server }

/-- The step meets neither gap: a creation closes only what is still open, or
closed by another creation; and no execution ends in a definite error after TM1
carried out its write, which leaves the draft to be executed again. -/
def undisturbed (tm1 : TM1) (operation : Id → Operation) (σ : State Id TM1Change Tm1Side) :
    Action Id (Server → Server) → Bool
  | .finish i =>
    match σ.read i, operation i with
    | some row, .create p change_type created =>
      (closes p change_type created row).isNone || σ.committed.status = .draft
        || σ.committed.status = .superseded
    | some row, .execute _ answer _ _ acknowledge_impact =>
      !raisesAfterWriting tm1 answer acknowledge_impact row σ.env.server
    | _, _ => true
  | _ => true

/-- The status stays, or moves as a status may. -/
def StatusMove (row row' : TM1Change) : Prop :=
  row'.status = row.status ∨ row'.status ∈ row.status.next

/-- Nothing becomes a draft again. -/
theorem StatusMove.not_draft {row row' : TM1Change} (h : StatusMove row row')
    (hrow : row.status ≠ .draft) : row'.status ≠ .draft := by
  rcases h with hsame | hnext
  · rw [hsame]
    exact hrow
  · intro hdraft
    rw [hdraft] at hnext
    rcases hstatus : row.status with _ | _ | _ | _ | _ | _ | _ <;>
      simp [ChangeStatus.next, hstatus] at hnext

/-! ## What each operation writes -/

section Writes

variable {tm1 : TM1} {row : TM1Change} {s : Server} {f : TM1Change → TM1Change}

/-- A session that writes the row is one that returned. -/
theorem session_writes {α : Type} {request : ChangeM α} (h : (session request row s).1 = some f) :
    ∃ x row' s', exec request ⟨row, s⟩ = (.ok x, ⟨row', s'⟩) ∧ f = fun _ => row' := by
  unfold session get_db at h
  rcases hrun : exec request ⟨row, s⟩ with ⟨e | x, row', s'⟩
  · simp [hrun] at h
  · simp only [hrun, Option.some.injEq] at h
    exact ⟨x, row', s', rfl, h.symm⟩

/-- A request that returned is written. -/
theorem session_of_ok {α : Type} {request : ChangeM α} {x : α} {row' : TM1Change} {s' : Server}
    (h : exec request ⟨row, s⟩ = (.ok x, ⟨row', s'⟩)) :
    session request row s = (some fun _ => row', s') := by
  rw [session, get_db, h]

variable {caller : Caller} {answer : Answers} {executed_by now : ℕ} {acknowledge_impact : Bool}

/-- The assistant's tool leaves the row as the execution it wraps. -/
theorem apply_change_mine (tm1 : TM1) (answer : Answers) (executed_by now : ℕ)
    (acknowledge_impact : Bool) (row : TM1Change) (s : Server) :
    ∃ x, exec (_execute_tool_call "apply_change"
      (ApplyChangeTool tm1 answer executed_by now acknowledge_impact)) ⟨row, s⟩ = (.ok x,
      (exec (execute_change tm1 answer executed_by now acknowledge_impact) ⟨row, s⟩).2) := by
  rw [_execute_tool_call, exec_tryCatch, exec_bind, ApplyChangeTool, exec_bind]
  rcases exec (execute_change tm1 answer executed_by now acknowledge_impact) ⟨row, s⟩
    with ⟨e | x, w⟩
  · exact ⟨_, rfl⟩
  · exact ⟨_, rfl⟩

/-- Whatever an execution writes is what `execute_change` left of the row. -/
theorem executeSession_writes
    (h : (executeSession caller tm1 answer executed_by now acknowledge_impact row s).1 = some f) :
    f = fun _ =>
      (exec (execute_change tm1 answer executed_by now acknowledge_impact) ⟨row, s⟩).2.mine := by
  rcases caller with _ | _
  · obtain ⟨x, row', s', hrun, rfl⟩ := session_writes h
    rw [hrun]
  · obtain ⟨x, row', s', hrun, rfl⟩ := session_writes h
    obtain ⟨report, hreport⟩ :=
      apply_change_mine tm1 answer executed_by now acknowledge_impact row s
    rw [hreport, Prod.mk.injEq] at hrun
    rw [hrun.2]

/-- An execution moves the status of the row it read. -/
theorem execute_moves
    (h : (executeSession caller tm1 answer executed_by now acknowledge_impact row s).1 = some f) :
    StatusMove row (f row) := by
  rw [executeSession_writes h]
  rcases hrun : exec (execute_change tm1 answer executed_by now acknowledge_impact) ⟨row, s⟩
    with ⟨e | x, row', s'⟩
  · rcases execute_change_raised hrun with ⟨-, rfl⟩ | ⟨hadm, hstamped⟩
    · exact .inl rfl
    · exact .inl (hstamped.status.trans (admitted_draft hadm).symm)
  · obtain ⟨hdraft, hdecided⟩ := execute_change_returned hrun
    right
    rw [hdraft]
    rcases hdecided.status with hstatus | hstatus | hstatus <;>
      simp [hstatus, ChangeStatus.next]

/-- An execution whose write is carried out was of a draft, and decides it, unless
it raises after writing. -/
theorem execute_decides (caller : Caller) (executed_by now : ℕ)
    (hwrote : wrote tm1 answer acknowledge_impact row s = true)
    (hraises : raisesAfterWriting tm1 answer acknowledge_impact row s = false) :
    row.status = .draft ∧
      ∃ row', (executeSession caller tm1 answer executed_by now acknowledge_impact row s).1
        = some (fun _ => row') ∧ row'.status ≠ .draft := by
  have hok := wrote_returns executed_by now hwrote hraises
  rcases hrun : exec (execute_change tm1 answer executed_by now acknowledge_impact) ⟨row, s⟩
    with ⟨e | x, row', s'⟩
  · rw [hrun] at hok
    cases hok
  obtain ⟨hdraft, hdecided⟩ := execute_change_returned hrun
  refine ⟨hdraft, row', ?_, ?_⟩
  · rcases caller with _ | _
    · rw [executeSession, session_of_ok hrun]
    · obtain ⟨report, hreport⟩ :=
        apply_change_mine tm1 answer executed_by now acknowledge_impact row s
      rw [hrun] at hreport
      rw [executeSession, session_of_ok hreport]
  · rcases hdecided.status with hstatus | hstatus | hstatus <;> simp [hstatus]

/-- A rejection is of a draft. -/
theorem reject_moves (h : (session reject_change row s).1 = some f) : StatusMove row (f row) := by
  obtain ⟨x, row', s', hrun, rfl⟩ := session_writes h
  by_cases hdraft : row.status = .draft
  · rw [reject_change, exec_bind, exec_own] at hrun
    simp only [exec_bind, exec_look, refuse_of_not _ (not_not.mpr hdraft), exec_note,
      Prod.mk.injEq, World.mk.injEq] at hrun
    right
    rw [← hrun.2.1, hdraft]
    simp [ChangeStatus.next]
  · rw [reject_change, exec_bind, exec_own] at hrun
    simp [exec_bind, refuse, hdraft] at hrun

/-- A rollback is of an executed change. -/
theorem rollback_moves {answer : RollbackAnswers}
    (h : (session (rollback_change tm1 answer now) row s).1 = some f) : StatusMove row (f row) := by
  obtain ⟨x, row', s', hrun, rfl⟩ := session_writes h
  by_cases hprocess : row.change_type = .run_process
  · rw [rollback_change, exec_bind, exec_own] at hrun
    simp [exec_bind, refuse, hprocess] at hrun
  by_cases hexecuted : row.status = .executed
  · rw [exec_rollback_with hprocess hexecuted] at hrun
    right
    rw [hexecuted]
    rcases hclient : (answer .client).reply (fun _ => Except.ok ()) s with e | ⟨⟩
    · simp [hclient] at hrun
    rcases hunedited : unedited tm1 answer row s with e | ⟨⟩
    · simp [hclient, hunedited] at hrun
    rcases hrestore : exec (restoreContent tm1 answer row) ⟨row, s⟩ with ⟨e | ⟨⟩, w⟩
    · simp [hclient, hunedited, hrestore] at hrun
    · simp only [hclient, hunedited, hrestore, Prod.mk.injEq, World.mk.injEq] at hrun
      rw [← hrun.2.1]
      simp [rolledBack, ChangeStatus.next]
  · rw [rollback_change, exec_bind, exec_own] at hrun
    simp [exec_bind, refuse, hprocess, hexecuted] at hrun

end Writes

/-- **`create_change` writes each row of the table as its transaction does.** What it
stored decides what it closes. -/
theorem create_change_closes {Graph : Type} {a : Analyzers Graph} {tm1 : TM1} {m : Moment Graph}
    {p : Proposal} {change_type : ChangeType} {store store' : Store} {draft : TM1Change}
    (htype : ChangeType.ofText p.change_type = some change_type)
    (h : create_change a tm1 m p store = .ok (draft, store')) :
    ∃ created, ∀ r ∈ store.rows,
      ((closes p change_type created r).getD id) r ∈ store'.rows := by
  obtain ⟨_, htype', hcreated⟩ := create_change_ok h
  rw [htype, Option.some.injEq] at htype'
  subst htype'
  rcases hcreated with ⟨-, rfl⟩ | ⟨change, hrepeated, -, hreplace⟩
  · exact ⟨none, fun r hr => hr⟩
  have hopen : ∀ r ∈ openDrafts store p change_type, r ∈ store.rows :=
    fun r hr => (mem_openDrafts.mp hr).1
  obtain ⟨-, hrows⟩ := Store.replace_ok hreplace hopen
  refine ⟨some draft.id, fun r hr => ?_⟩
  have hwritten : ((closes p change_type (some draft.id) r).getD id) r
      = Store.replaced ((openDrafts store p change_type).map TM1Change.id) draft.id r := by
    by_cases hstands : standsAgainst p change_type r = true
    · have hmem : r ∈ openDrafts store p change_type := by
        rw [openDrafts, List.mem_filter, List.mem_reverse]
        exact ⟨hr, hstands⟩
      have hother : sameContent p change_type r = false := by
        have hnone := List.find?_eq_none.mp hrepeated r hmem
        rwa [Bool.not_eq_true] at hnone
      have hid : r.id ∈ (openDrafts store p change_type).map TM1Change.id :=
        List.mem_map_of_mem hmem
      simp [closes, hstands, hother, Store.replaced, hid]
    · -- a row of the same identifier is the row itself
      have hid : r.id ∉ (openDrafts store p change_type).map TM1Change.id := by
        intro hmem
        obtain ⟨q, hq, hsame⟩ := List.mem_map.mp hmem
        have hrow : q = r := store.ids.eq (hopen q hq) hr rfl rfl hsame
        rw [hrow, openDrafts, List.mem_filter] at hq
        exact hstands hq.2
      simp [closes, hstands, Store.replaced, hid]
  rw [hwritten, hrows]
  exact List.mem_append_left _ (List.mem_map_of_mem hr)

/-! ## The committed row -/

section Committed

variable {tm1 : TM1} {operation : Id → Operation} {σ σ' : State Id TM1Change Tm1Side}
  {action : Action Id (Server → Server)}

/-- Closing a row that is open, or closed by another creation. -/
theorem closes_moves {p : Proposal} {change_type : ChangeType} {created : Option ℕ}
    {read row : TM1Change} {f : TM1Change → TM1Change}
    (h : closes p change_type created read = some f)
    (hopen : row.status = .draft ∨ row.status = .superseded) : StatusMove row (f row) := by
  rcases created with _ | draft
  · cases h
  simp only [closes] at h
  by_cases hstands : (standsAgainst p change_type read && !sameContent p change_type read) = true
  · rw [if_pos hstands, Option.some.injEq] at h
    rw [← h, Store.replaced]
    by_cases hid : row.id ∈ [read.id]
    · rw [if_pos hid]
      rcases hopen with hdraft | hclosed
      · right
        rw [hdraft]
        simp [ChangeStatus.next]
      · exact .inl hclosed.symm
    · rw [if_neg hid]
      exact .inl rfl
  · rw [if_neg hstands] at h
    cases h

omit [DecidableEq Id] in
/-- What an undisturbed step writes moves the status. The operations that lock the
row find it as they read it. -/
theorem undisturbed_writes (hσ : Consistent (operations tm1 operation) σ)
    (h : undisturbed tm1 operation σ action = true) :
    WritesMove (operations tm1 operation) StatusMove σ action := by
  rcases action with i | i | edit
  · trivial
  swap
  · trivial
  intro row f hwrites
  obtain ⟨hread, hwrite⟩ := hwrites
  have hfresh : (transaction tm1 (operation i)).locks = true → row = σ.committed :=
    fun hlocks => hσ.fresh hlocks hread
  rcases hop : operation i with ⟨caller, answer, executed_by, now, ack⟩ | _ | ⟨answer, now⟩ |
    ⟨p, change_type, created⟩
  · simp only [operations, hop, transaction] at hwrite hfresh
    rw [← hfresh trivial]
    exact execute_moves hwrite
  · simp only [operations, hop, transaction] at hwrite hfresh
    rw [← hfresh trivial]
    exact reject_moves hwrite
  · simp only [operations, hop, transaction] at hwrite hfresh
    rw [← hfresh trivial]
    exact rollback_moves hwrite
  · simp only [operations, hop, transaction] at hwrite
    simp only [undisturbed, hread, hop, hwrite, Option.isNone_some, Bool.false_or, Bool.or_eq_true,
      decide_eq_true_eq] at h
    exact closes_moves hwrite h

/-- No execution has written to TM1; or one has, and the row is no draft any more. -/
def OneExecution (σ : State Id TM1Change Tm1Side) : Prop :=
  σ.env.executions = 0 ∨ (σ.env.executions = 1 ∧ σ.committed.status ≠ .draft)

omit [DecidableEq Id] in
/-- A step that adds no execution. -/
theorem OneExecution.of_same (hone : OneExecution σ)
    (hcount : σ'.env.executions = σ.env.executions)
    (hmoves : σ'.committed = σ.committed ∨ StatusMove σ.committed σ'.committed) :
    OneExecution σ' := by
  rcases hone with hnone | ⟨hsome, hdraft⟩
  · exact .inl (hcount.trans hnone)
  · refine .inr ⟨hcount.trans hsome, ?_⟩
    rcases hmoves with hsame | hmove
    · rw [hsame]
      exact hdraft
    · exact hmove.not_draft hdraft

/-- An undisturbed step keeps the count of executions at one. -/
theorem OneExecution.step (hone : OneExecution σ)
    (hσ : Consistent (operations tm1 operation) σ)
    (h : undisturbed tm1 operation σ action = true)
    (hstep : step (operations tm1 operation) σ action = some σ') : OneExecution σ' := by
  have hmoves := moves_of_writes (undisturbed_writes hσ h) σ' hstep
  rcases action with i | i | edit
  · obtain ⟨-, -, rfl⟩ := step_start hstep
    exact hone.of_same rfl hmoves
  swap
  · rw [Interleave.step, Option.some.injEq] at hstep
    subst hstep
    exact hone.of_same rfl hmoves
  obtain ⟨row, hread, henv, -, -, hcommitted⟩ := step_finish hstep
  rcases hop : operation i with ⟨caller, answer, executed_by, now, ack⟩ | _ | ⟨answer, now⟩ |
    ⟨p, change_type, created⟩
  · have hfresh : row = σ.committed := by
      apply hσ.fresh (i := i) _ hread
      simp only [operations, hop, transaction]
    simp only [operations, hop, transaction] at henv hcommitted
    by_cases hwrote : wrote tm1 answer ack row σ.env.server = true
    · simp only [undisturbed, hread, hop, Bool.not_eq_true'] at h
      obtain ⟨hdraft, row', hwrite, hdecided⟩ :=
        execute_decides caller executed_by now hwrote h
      -- the draft was still open, so no execution had written before
      have hzero : σ.env.executions = 0 := by
        rcases hone with hnone | ⟨-, hnot⟩
        · exact hnone
        · exact absurd (hfresh ▸ hdraft) hnot
      right
      rw [henv, if_pos hwrote, hzero]
      refine ⟨rfl, ?_⟩
      rcases hcommitted with ⟨hnone, -⟩ | ⟨f, hf, -, hrow⟩
      · rw [hwrite] at hnone
        cases hnone
      · rw [hwrite, Option.some.injEq] at hf
        rw [hrow, ← hf]
        exact hdecided
    · apply hone.of_same _ hmoves
      rw [henv, if_neg hwrote]
  · simp only [operations, hop, transaction] at henv
    exact hone.of_same (by rw [henv]) hmoves
  · simp only [operations, hop, transaction] at henv
    exact hone.of_same (by rw [henv]) hmoves
  · simp only [operations, hop, transaction] at henv
    exact hone.of_same (by rw [henv]) hmoves

end Committed

/-- **In every undisturbed run the committed status only moves as a status may, and
at most one execution writes to TM1.** The operations are any number of the four,
in any order of reads and writes, with any answers of TM1 and any edits of it in
between. -/
theorem committed_status_moves (tm1 : TM1) (operation : Id → Operation) (row : TM1Change)
    (s : Server) (actions : List (Action Id (Server → Server)))
    (h : Along (step (operations tm1 operation))
      (fun σ action => undisturbed tm1 operation σ action = true) (initial row ⟨s, 0⟩) actions) :
    Along (step (operations tm1 operation)) (Moves (operations tm1 operation) StatusMove)
        (initial row ⟨s, 0⟩) actions ∧
      ∀ σ, run (step (operations tm1 operation)) (initial row ⟨s, 0⟩) actions = some σ →
        σ.env.executions ≤ 1 := by
  constructor
  · exact moves_along (fun σ action hσ hact => undisturbed_writes hσ hact) h
  · intro σ hrun
    have hinv := run_invariant
      (I := fun σ => Consistent (operations tm1 operation) σ ∧ OneExecution σ)
      (fun σ action σ' hI hact hstep => ⟨hI.1.step hstep, hI.2.step hI.1 hact hstep⟩)
      ⟨consistent_initial row _, .inl rfl⟩ h hrun
    rcases hinv.2 with hnone | ⟨hsome, -⟩
    · omega
    · omega

/-! ## A draft and two of its author's operations -/

/-- Another version of the rules of `rulesDraft`, by the same author. -/
def laterProposal : Proposal :=
  ⟨1, 1, 7, "update_rules", "Sales", some { rules := some "['Net'] = ['Gross'] * 0.7;" }⟩

/-- The draft is executed, and a later version of it proposed and stored. -/
def executeAndPropose : Bool → Operation
  | false => .execute .route (fun _ => .ok) 8 20 false
  | true => .create laterProposal .update_rules (some 2)

/-- Two people press Execute on one draft. -/
def executeTwice (_ : Bool) : Operation := .execute .route (fun _ => .ok) 8 20 false

/-- `committed_status_moves` at a double execution: the second finds the first's
decision. -/
theorem executeTwice_moves :
    Along (step (operations currentTM1 executeTwice))
        (Moves (operations currentTM1 executeTwice) StatusMove) (initial rulesDraft ⟨smallServer, 0⟩)
        [.start false, .finish false, .start true, .finish true] ∧
      ∀ σ, run (step (operations currentTM1 executeTwice)) (initial rulesDraft ⟨smallServer, 0⟩)
          [.start false, .finish false, .start true, .finish true] = some σ →
        σ.env.executions ≤ 1 :=
  committed_status_moves currentTM1 executeTwice rulesDraft smallServer
    [.start false, .finish false, .start true, .finish true] (by decide)

/-- The proposal reads the open drafts, and the draft is executed. -/
def readThenExecuted : List (Action Bool (Server → Server)) :=
  [.start true, .start false, .finish false]

/-- **An executed change that was superseded.** The proposal has read the draft
while it was open, and closes it after it was executed. -/
theorem executed_superseded :
    ((run (step (operations currentTM1 executeAndPropose)) (initial rulesDraft ⟨smallServer, 0⟩)
        readThenExecuted).map fun σ => σ.committed.status) = some .executed ∧
    ((run (step (operations currentTM1 executeAndPropose)) (initial rulesDraft ⟨smallServer, 0⟩)
        (readThenExecuted ++ [.finish true])).map fun σ => σ.committed.status)
      = some .superseded ∧
    ¬ Along (step (operations currentTM1 executeAndPropose))
        (Moves (operations currentTM1 executeAndPropose) StatusMove)
        (initial rulesDraft ⟨smallServer, 0⟩) (readThenExecuted ++ [.finish true]) := by
  have hexecuted : ((run (step (operations currentTM1 executeAndPropose))
      (initial rulesDraft ⟨smallServer, 0⟩) readThenExecuted).map fun σ => σ.committed.status)
        = some .executed := by decide
  have hsuperseded : ((run (step (operations currentTM1 executeAndPropose))
      (initial rulesDraft ⟨smallServer, 0⟩) (readThenExecuted ++ [.finish true])).map
        fun σ => σ.committed.status) = some .superseded := by decide
  refine ⟨hexecuted, hsuperseded, ?_⟩
  intro hmoves
  obtain ⟨σ', hσ', hafter⟩ := Option.map_eq_some_iff.mp hsuperseded
  obtain ⟨σ, hσ, hlast⟩ := run_append.mp hσ'
  obtain ⟨_, hstep, hend⟩ := run_cons_eq_some_iff.mp hlast
  rw [run_nil, Option.some.injEq] at hend
  rw [hσ, Option.map_some, Option.some.injEq] at hexecuted
  rcases (hmoves.append.2 σ hσ).1 _ hstep with hsame | hsame | hnext
  · rw [hend] at hsame
    rw [hsame, hexecuted] at hafter
    cases hafter
  · rw [hend, hexecuted, hafter] at hsame
    cases hsame
  · rw [hend, hexecuted, hafter] at hnext
    simp [ChangeStatus.next] at hnext

end change_service

end PaCopilot
