/-
`rollback_change` and `reject_change` of `tm1/deployment/change_service.py`.

A rollback restores only over what the change left: `unedited` compares the
target with what the row remembers of it (`applied`), and `restoreContent` then
writes the snapshot back. Rows from before `applied` was recorded are restored
unconditionally, except for cells and views.
-/
import PaCopilot.Change.Execute

set_option autoImplicit false

namespace PaCopilot.change_service

open Remote Python

/-- The calls a rollback makes to TM1. -/
inductive RollbackSite
  | client
  | existence
  | current
  | stillThere
  | dimensions
  | write
  deriving DecidableEq

abbrev RollbackAnswers := RollbackSite → Answer

/-- `_changed_since`. -/
def _changed_since (target : String) : AppException :=
  ConflictException (s!"'{target}' has been edited since this change was applied. Rolling "
    ++ "back would overwrite those later edits, so nothing was changed. "
    ++ "Review the current version and make a new change instead.")

/-- The target is still what the change left there. -/
def unedited (tm1 : TM1) (answer : RollbackAnswers) (change : TM1Change) (s : Server) :
    Except AppException Unit :=
  let target := change.target_name
  let previous := change.previous_content.getD {}
  match change.change_type with
  | .update_rules =>
    match previous.applied with
    | none => .ok ()
    | some applied => do
      let rules ← (answer .current).reply (cube_service.get_cube_rules target) s
      refuse (.text (_rules_text rules) ≠ applied) (_changed_since target)
  | .write_cells => do
    -- cells are compared even where nothing is recorded as applied
    let saved := previous.cells.getD []
    let now ← (answer .current).reply
      (_read_values tm1 target (saved.map SavedCell.coordinates)) s
    refuse (some (.values (now.map _normal)) ≠ previous.applied)
      (ConflictException (s!"Cells in '{target}' have been written since this change "
        ++ "was applied. Rolling back would overwrite those values, so nothing " ++ "was changed."))
  | .create_view => do
    let (view_name, _) ← (_view_content change.new_content).mapError .definite
    let label := s!"{target}: {view_name}"
    let there ← (answer .existence).reply (view_service.view_exists target view_name) s
    refuse (there = false)
      (ConflictException (s!"The view '{label}' has been deleted since this change was "
        ++ "applied; nothing was changed."))
    let saved ← (answer .current).reply (structure_service.get_view target view_name) s
    refuse (previous.applied = none ∨ saved.type ≠ "mdx"
      ∨ some (.text (_mdx_text saved.mdx)) ≠ previous.applied) (_changed_since label)
  | .delete_process => do
    let there ← (answer .existence).reply (process_service.process_exists target) s
    refuse there
      (ConflictException (s!"A process named '{target}' exists again since "
        ++ "it was deleted. Restoring the old one would overwrite it, " ++ "so nothing was changed."))
  -- a created process that is gone is as it was before
  | .create_process | .update_process =>
    match previous.applied with
    | none => .ok ()
    | some applied => do
      let there ← (answer .existence).reply (process_service.process_exists target) s
      if there then
        let body ← (answer .current).reply (process_service.get_process_body target) s
        refuse (.code (_code_of body) ≠ applied) (_changed_since target)
      else
        refuse (change.change_type = .update_process)
          (ConflictException (s!"'{target}' has been deleted since this "
            ++ "change was applied; nothing was restored."))
  | .run_process => .ok ()

/-- Put the snapshot back. -/
def restoreContent (tm1 : TM1) (answer : RollbackAnswers) (change : TM1Change) : ChangeM Unit := do
  let target := change.target_name
  match change.change_type, change.previous_content with
  | .update_rules, some previous =>
    send (answer .write)
      (cube_service.update_cube_rules target ((previous.rules.getD none).getD ""))
  | .write_cells, some previous =>
    let saved := previous.cells.getD []
    let _cube ← ask (answer .dimensions) (cube_service.get_cube target)
    send (answer .write) (cell_service.write_cells tm1 target (savedValues saved))
  | .update_rules, none | .write_cells, none => throw (PythonError "AttributeError")
  | .create_view, _ =>
    let (view_name, _) ← look fun _ => (_view_content change.new_content).mapError .definite
    send (answer .write) (view_service.delete_view target view_name)
  | .create_process, _ =>
    -- already gone: nothing left to remove
    let there ← ask (answer .stillThere) (process_service.process_exists target)
    if there then send (answer .write) (process_service.delete_process target)
  | _, none => throw (PythonError "TypeError")
  | _, some previous =>
    match previous.process with
    | none => throw (PythonError "KeyError")
    | some p => send (answer .write) (process_service.update_or_create_process p)

/-- `rollback_change`, of the row as it was locked and read. -/
def rollback_change (tm1 : TM1) (answer : RollbackAnswers) (now : ℕ) : ChangeM Unit := do
  let change ← own
  look fun _ => refuse (change.change_type = .run_process)
    (ConflictException ("A process run cannot be rolled back: TM1 keeps no "
      ++ "before-image of what a run writes. Reverse its effect with "
      ++ "another process, or restore from a backup."))
  look fun _ => refuse (change.status ≠ .executed)
    (ConflictException
      s!"Only executed changes can be rolled back (status: {change.status.text}).")
  look fun s => (answer .client).reply (fun _ => .ok ()) s
  look (unedited tm1 answer change)
  restoreContent tm1 answer change
  note fun change => { change with status := .rolled_back, rolled_back_at := some now }

/-- The row after a rollback. -/
def rolledBack (now : ℕ) (change : TM1Change) : TM1Change :=
  { change with status := .rolled_back, rolled_back_at := some now }

/-! ## When a rollback goes on

For each type, which targets `unedited` lets through when TM1 answers. -/

section Unedited

variable {tm1 : TM1} {row : TM1Change} {s : Server} {previous : PreviousContent}

theorem unedited_rules_iff {text : String} (ht : row.change_type = .update_rules)
    (hprev : row.previous_content = some previous) (happ : previous.applied = some (.text text)) :
    unedited tm1 (fun _ => .ok) row s = .ok () ↔
      ∃ rules, cube_service.get_cube_rules row.target_name s = .ok rules ∧
        _rules_text rules = text := by
  simp only [unedited, ht, hprev, Option.getD_some, happ, bind_eq_ok_iff, reply_eq_ok_iff,
    refuse_eq_ok_iff, not_not, Applied.text.injEq]

theorem unedited_cells_iff {saved : List SavedCell} {values : List Value}
    (ht : row.change_type = .write_cells) (hprev : row.previous_content = some previous)
    (hcells : previous.cells = some saved) (happ : previous.applied = some (.values values)) :
    unedited tm1 (fun _ => .ok) row s = .ok () ↔
      ∃ now, _read_values tm1 row.target_name (saved.map SavedCell.coordinates) s = .ok now ∧
        now.map _normal = values := by
  simp only [unedited, ht, hprev, Option.getD_some, hcells, happ, bind_eq_ok_iff, reply_eq_ok_iff,
    refuse_eq_ok_iff, not_not, Option.some.injEq, Applied.values.injEq]

theorem unedited_delete_iff (ht : row.change_type = .delete_process) :
    unedited tm1 (fun _ => .ok) row s = .ok () ↔ s.process row.target_name = none := by
  simp only [unedited, ht, bind_eq_ok_iff, reply_eq_ok_iff, refuse_eq_ok_iff,
    process_service.process_exists, Except.ok.injEq]
  simp

/-- The process of an executed `create_process` or `update_process`. -/
theorem unedited_process_iff {code : Code}
    (ht : row.change_type = .create_process ∨ row.change_type = .update_process)
    (hprev : row.previous_content = some previous) (happ : previous.applied = some (.code code)) :
    unedited tm1 (fun _ => .ok) row s = .ok () ↔
      (∃ p, s.process row.target_name = some p ∧ _code_of p = code) ∨
        (s.process row.target_name = none ∧ row.change_type = .create_process) := by
  have hexists : ∀ there, process_service.process_exists row.target_name s = .ok there ↔
      (s.process row.target_name).isSome = there := by
    intro there
    rw [process_service.process_exists, Except.ok.injEq]
  rcases hp : s.process row.target_name with _ | p
  · rcases ht with ht | ht <;>
      simp [unedited, ht, hprev, happ, bind_eq_ok_iff, reply_eq_ok_iff, hexists, hp]
  · rcases ht with ht | ht <;>
      simp [unedited, ht, hprev, happ, bind_eq_ok_iff, reply_eq_ok_iff, hexists, hp,
        process_service.get_process_body]

theorem unedited_view_iff {view_name mdx text : String} (ht : row.change_type = .create_view)
    (hview : _view_content row.new_content = .ok (view_name, mdx))
    (hprev : row.previous_content = some previous) (happ : previous.applied = some (.text text)) :
    unedited tm1 (fun _ => .ok) row s = .ok () ↔
      ∃ saved, s.view row.target_name view_name = some saved ∧ saved.type = "mdx" ∧
        _mdx_text saved.mdx = text := by
  rcases hv : s.view row.target_name view_name with _ | saved
  · simp [unedited, ht, hprev, happ, bind_eq_ok_iff, reply_eq_ok_iff, hview, Except.mapError,
      view_service.view_exists, hv]
  · simp [unedited, ht, hprev, happ, bind_eq_ok_iff, reply_eq_ok_iff, hview, Except.mapError,
      view_service.view_exists, structure_service.get_view, hv]

/-- A read that was answered is answered when TM1 answers, with the same value. -/
theorem reply_bind_answered {α : Type} {answer : Answer} {read : Server → Except DefiniteError α}
    {next next' : α → Except AppException Unit} (hnext : ∀ a, next a = .ok () → next' a = .ok ())
    (h : (answer.reply read s >>= next) = .ok ()) : (Answer.ok.reply read s >>= next') = .ok () := by
  rw [bind_eq_ok_iff] at h ⊢
  obtain ⟨a, ha, hrest⟩ := h
  exact ⟨a, reply_of_ok (reply_ok ha), hnext a hrest⟩

/-- What is let through under some answers is let through when TM1 answers. -/
theorem unedited_answered {answer : RollbackAnswers} (h : unedited tm1 answer row s = .ok ()) :
    unedited tm1 (fun _ => .ok) row s = .ok () := by
  unfold unedited at h ⊢
  rcases ht : row.change_type <;> simp only [ht] at h ⊢
  case update_rules =>
    split at h
    · rfl
    · exact reply_bind_answered (fun _ hsame => hsame) h
  case create_process | update_process =>
    split at h
    · rfl
    · apply reply_bind_answered _ h
      intro there hrest
      by_cases hyes : there = true
      · rw [if_pos hyes] at hrest ⊢
        exact reply_bind_answered (fun _ hsame => hsame) hrest
      · rw [if_neg hyes] at hrest ⊢
        exact hrest
  case delete_process => exact reply_bind_answered (fun _ hgone => hgone) h
  case write_cells => exact reply_bind_answered (fun _ hsame => hsame) h
  case create_view =>
    rw [bind_eq_ok_iff] at h ⊢
    obtain ⟨view, hview, hrest⟩ := h
    refine ⟨view, hview, reply_bind_answered ?_ hrest⟩
    intro there hthere
    rw [bind_eq_ok_iff] at hthere ⊢
    obtain ⟨u, hu, hsaved⟩ := hthere
    exact ⟨u, hu, reply_bind_answered (fun _ hsame => hsame) hsaved⟩

end Unedited

/-! ## What a rollback does -/

/-- Deleting the view a change created, as TM1 carries it out. -/
def removeView (change : TM1Change) (s : Server) : Except DefiniteError Server :=
  match _view_content change.new_content with
  | .error r => .error r
  | .ok view => view_service.delete_view change.target_name view.1 s

/-- Deleting the process a change created, when it is still there. -/
def removeProcess (target : String) (s : Server) : Except DefiniteError Server :=
  if (s.process target).isSome then process_service.delete_process target s else .ok s

/-- Writing back the process a snapshot holds. -/
def putBack (previous : PreviousContent) (s : Server) : Except DefiniteError Server :=
  match previous.process with
  | none => .error ⟨.PythonError, "KeyError"⟩
  | some p => process_service.update_or_create_process p s

/-- Putting the snapshot back, as TM1 carries it out. -/
def restored (tm1 : TM1) (change : TM1Change) (s : Server) : Except DefiniteError Server :=
  let target := change.target_name
  match change.change_type, change.previous_content with
  | .update_rules, some previous =>
    cube_service.update_cube_rules target ((previous.rules.getD none).getD "") s
  | .write_cells, some previous =>
    cell_service.write_cells tm1 target (savedValues (previous.cells.getD [])) s
  | .update_rules, none | .write_cells, none => .error ⟨.PythonError, "AttributeError"⟩
  | .create_view, _ => removeView change s
  | .create_process, _ => removeProcess target s
  | _, none => .error ⟨.PythonError, "TypeError"⟩
  | _, some previous => putBack previous s

/-- A single write whose answer arrives. -/
theorem exec_send_answered (effect : Server → Except DefiniteError Server)
    (w : World TM1Change Server) :
    exec (send .ok effect : ChangeM Unit) w =
      match effect w.remote with
      | .ok s' => (.ok (), ⟨w.mine, s'⟩)
      | .error r => (.error (.definite r), w) := by
  rw [exec_send, Answer.result]
  rcases effect w.remote with r | s' <;> rfl

theorem exec_removeView (change : TM1Change) (w : World TM1Change Server) :
    exec (do
        let (view_name, _) ← look fun _ => (_view_content change.new_content).mapError .definite
        send .ok (view_service.delete_view change.target_name view_name) : ChangeM Unit) w =
      match removeView change w.remote with
      | .ok s' => (.ok (), ⟨w.mine, s'⟩)
      | .error r => (.error (.definite r), w) := by
  rw [exec_bind, exec_look, removeView]
  rcases _view_content change.new_content with r | view
  · rfl
  · exact exec_send_answered _ w

theorem exec_removeProcess (target : String) (w : World TM1Change Server) :
    exec (do
        let there ← ask .ok (process_service.process_exists target)
        if there then send .ok (process_service.delete_process target) : ChangeM Unit) w =
      match removeProcess target w.remote with
      | .ok s' => (.ok (), ⟨w.mine, s'⟩)
      | .error r => (.error (.definite r), w) := by
  rw [exec_bind, exec_ask, Answer.reply, process_service.process_exists, removeProcess]
  dsimp only
  by_cases hthere : (w.remote.process target).isSome = true
  · rw [if_pos hthere, if_pos hthere]
    exact exec_send_answered _ w
  · rw [if_neg hthere, if_neg hthere]
    rfl

theorem exec_putBack (previous : PreviousContent) (w : World TM1Change Server) :
    exec (match previous.process with
        | none => throw (PythonError "KeyError")
        | some p => send .ok (process_service.update_or_create_process p) : ChangeM Unit) w =
      match putBack previous w.remote with
      | .ok s' => (.ok (), ⟨w.mine, s'⟩)
      | .error r => (.error (.definite r), w) := by
  rw [putBack]
  rcases previous.process with _ | p
  · rfl
  · exact exec_send_answered _ w

/-- Putting the snapshot back, with every call answered. -/
theorem exec_restoreContent (tm1 : TM1) (change : TM1Change) (w : World TM1Change Server) :
    exec (restoreContent tm1 (fun _ => .ok) change) w =
      match restored tm1 change w.remote with
      | .ok s' => (.ok (), ⟨w.mine, s'⟩)
      | .error r => (.error (.definite r), w) := by
  unfold restoreContent restored
  rcases change.change_type <;> rcases change.previous_content with _ | previous <;> dsimp only
  case write_cells.some =>
    rw [exec_bind, exec_ask, Answer.reply, cube_service.get_cube, cell_service.write_cells]
    rcases hc : w.remote.cube change.target_name with _ | c
    · rfl
    · dsimp only
      rw [exec_send_answered, cell_service.write_cells, hc]
  case update_rules.some => exact exec_send_answered _ w
  case create_view.none => exact exec_removeView change w
  case create_view.some => exact exec_removeView change w
  case create_process.none => exact exec_removeProcess change.target_name w
  case create_process.some => exact exec_removeProcess change.target_name w
  case update_process.some => exact exec_putBack previous w
  case delete_process.some => exact exec_putBack previous w
  case run_process.some => exact exec_putBack previous w
  -- without a snapshot there is nothing to write
  all_goals rfl

/-- A rollback of an executed change: the client, the comparison, the snapshot. -/
theorem exec_rollback_with {tm1 : TM1} {answer : RollbackAnswers} {now : ℕ} {row : TM1Change}
    {s : Server} (hrun : row.change_type ≠ .run_process) (hstatus : row.status = .executed) :
    exec (rollback_change tm1 answer now) ⟨row, s⟩ =
      match (answer .client).reply (fun _ => .ok ()) s, unedited tm1 answer row s with
      | .error e, _ => (.error e, ⟨row, s⟩)
      | .ok (), .error e => (.error e, ⟨row, s⟩)
      | .ok (), .ok () =>
        match exec (restoreContent tm1 answer row) ⟨row, s⟩ with
        | (.error e, w) => (.error e, w)
        | (.ok (), w) => (.ok (), ⟨rolledBack now w.mine, w.remote⟩) := by
  rw [rollback_change, exec_bind, exec_own]
  simp only [exec_bind, exec_look, refuse_of_not _ hrun, refuse_of_not _ (not_not.mpr hstatus)]
  rcases (answer .client).reply (fun _ => Except.ok ()) s with e | ⟨⟩
  · rfl
  dsimp only
  rcases unedited tm1 answer row s with e | ⟨⟩
  · rfl
  · dsimp only
    rcases exec (restoreContent tm1 answer row) ⟨row, s⟩ with ⟨e | ⟨⟩, w⟩ <;> rfl

/-- A rollback of an executed change whose calls TM1 answers: refused when the
target was edited, otherwise as good as putting the snapshot back. -/
theorem exec_rollback {tm1 : TM1} {now : ℕ} {row : TM1Change} {s : Server}
    (hrun : row.change_type ≠ .run_process) (hstatus : row.status = .executed) :
    exec (rollback_change tm1 (fun _ => .ok) now) ⟨row, s⟩ =
      match unedited tm1 (fun _ => .ok) row s with
      | .error e => (.error e, ⟨row, s⟩)
      | .ok () =>
        match restored tm1 row s with
        | .error r => (.error (.definite r), ⟨row, s⟩)
        | .ok s' => (.ok (), ⟨rolledBack now row, s'⟩) := by
  rw [exec_rollback_with hrun hstatus, exec_restoreContent]
  simp only [Answer.reply]
  rcases unedited tm1 (fun _ => .ok) row s with e | ⟨⟩
  · rfl
  · rcases restored tm1 row s with r | s' <;> rfl

/-- `reject_change`. -/
def reject_change : ChangeM Unit := do
  let change ← own
  look fun _ => refuse (change.status ≠ .draft)
    (ConflictException s!"Only draft changes can be rejected (status: {change.status.text}).")
  note fun change => { change with status := .rejected }

end PaCopilot.change_service
