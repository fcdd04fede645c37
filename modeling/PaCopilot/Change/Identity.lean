/-
Executing a change and rolling it back.

Rules, processes and views come back exactly (`Tm1/Undo.lean`). Cells come back
exactly when TM1, given the values it reported for them before, would leave them
as they were (`Rewritable`): the rollback writes values, and an empty string cell
is reported as null, for which the rollback writes the number 0.
-/
import PaCopilot.Change.Left
import PaCopilot.Change.Rollback

set_option autoImplicit false

namespace PaCopilot.change_service

open Remote Python

/-! ## The process a draft builds has its name -/

theorem add_variables_name (given : List VariableContent) (p : Process) :
    (given.foldl (fun p v => add_variable p v.name (tiType v.type)) p).name = p.name := by
  induction given generalizing p with
  | nil => rfl
  | cons v given ih => rw [List.foldl_cons, ih]; rfl

theorem _apply_datasource_name (p : Process) (content : NewContent) :
    (_apply_datasource p content).name = p.name := by
  simp only [_apply_datasource]
  split
  · rfl
  · split <;> rfl

theorem _apply_variables_name (p : Process) (content : NewContent) :
    (_apply_variables p content).name = p.name := by
  unfold _apply_variables
  split
  · rfl
  · exact add_variables_name _ _

theorem _apply_parameters_name (p : Process) (content : NewContent) :
    (_apply_parameters p content).name = p.name := by
  unfold _apply_parameters
  split <;> rfl

theorem _build_process_name (tm1 : TM1) (name : String) (content : NewContent)
    (base : Option Process) : (_build_process tm1 name content base).name = name := by
  have hstart : (match base, content.source_body with
      | some b, _ => { b with name := name }
      | none, some b => { b with name := name }
      | none, none => tm1.newProcess name).name = name := by
    split
    · rfl
    · rfl
    · exact tm1.newProcess_name name
  simp only [_build_process]
  split
  · exact hstart
  · rw [_apply_parameters_name, _apply_variables_name, _apply_datasource_name]
    exact hstart

/-! ## Rolling back right after -/

section Identity

variable {tm1 : TM1} {change row : TM1Change} {s s' : Server} {previous : PreviousContent}

/-- Right after an execution the target is what the execution left. -/
theorem unedited_left (hrow : SameProposal row change)
    (hprev : row.previous_content = some previous) (hleft : Left tm1 change s s' previous) :
    unedited tm1 (fun _ => .ok) row s' = .ok () := by
  unfold Left at hleft
  have htype := hrow.change_type
  have htarget := hrow.target_name
  -- what `Left` says was recorded is what the comparison reads
  rcases ht : change.change_type <;> simp only [ht] at hleft <;> rw [ht] at htype
  case update_rules =>
    obtain ⟨rules, prior, now, -, -, -, hnow, rfl⟩ := hleft
    rw [unedited_rules_iff htype hprev rfl, htarget]
    exact ⟨now, hnow, rfl⟩
  case create_process =>
    obtain ⟨content, now, -, -, -, hnow, rfl⟩ := hleft
    rw [unedited_process_iff (.inl htype) hprev rfl, htarget]
    exact .inl ⟨now, hnow, rfl⟩
  case update_process =>
    obtain ⟨content, base, now, -, -, -, hnow, rfl⟩ := hleft
    rw [unedited_process_iff (.inr htype) hprev rfl, htarget]
    exact .inl ⟨now, hnow, rfl⟩
  case delete_process =>
    obtain ⟨base, -, rfl, -⟩ := hleft
    rw [unedited_delete_iff htype, htarget]
    exact Server.process_dropProcess _ _
  case write_cells =>
    obtain ⟨writes, before, after, -, hbefore, -, hafter, rfl⟩ := hleft
    rw [unedited_cells_iff htype hprev rfl rfl, htarget,
      savedCells_coordinates (_read_values_length hbefore)]
    exact ⟨after, hafter, rfl⟩
  case create_view =>
    obtain ⟨view_name, mdx, saved, hview, -, -, hsaved, hdiffers, rfl⟩ := hleft
    rw [← hrow.new_content] at hview
    rw [unedited_view_iff htype hview hprev rfl, htarget]
    have htype : saved.type = "mdx" := by
      simp only [viewDiffers, Bool.or_eq_false_iff, decide_eq_false_iff_not, not_not] at hdiffers
      exact hdiffers.1
    exact ⟨saved, hsaved, htype, rfl⟩

/-- Writing back the values that TM1 reports of a change's cells, 0 for null,
leaves them as they are. -/
def Rewritable (tm1 : TM1) (change : TM1Change) (s : Server) : Prop :=
  ∀ writes before, _cell_writes change.new_content = .ok writes →
    _read_values tm1 change.target_name (writes.map Prod.fst) s = .ok before →
    cell_service.write_cells tm1 change.target_name
      (savedValues (savedCells (writes.map Prod.fst) before)) s = .ok s

/-- Where each coordinate was read from its own cell, the cells that cannot be
rewritten are the empty string cells that TM1 reports as null and, on a server
that takes every value as text, the numbers of more than fifteen digits. -/
theorem rewritable_iff_keeps {writes : List (List String × Value)} {before : List (Option Value)}
    {c : Cube} (hwrites : _cell_writes change.new_content = .ok writes)
    (hbefore : _read_values tm1 change.target_name (writes.map Prod.fst) s = .ok before)
    (hc : s.cube change.target_name = some c)
    (hread : ∀ cell ∈ savedCells (writes.map Prod.fst) before, ∃ m,
      c.cellOf cell.coordinates = some m ∧ tm1.calculated c m = false ∧
        cell.value = tm1.report (c.cells m)) :
    Rewritable tm1 change s ↔ ∀ cell ∈ savedCells (writes.map Prod.fst) before, ∀ m,
      c.cellOf cell.coordinates = some m → tm1.Keeps (c.cells m) := by
  have hread' : ∀ entry ∈ savedValues (savedCells (writes.map Prod.fst) before), ∃ m,
      c.cellOf entry.1 = some m ∧ tm1.calculated c m = false ∧
        entry.2 = (tm1.report (c.cells m)).getD (.num 0) := by
    intro entry hentry
    obtain ⟨cell, hcell, rfl⟩ := List.mem_map.mp hentry
    obtain ⟨m, hm, hcalc, hv⟩ := hread cell hcell
    exact ⟨m, hm, hcalc, by rw [hv]⟩
  have hiff := cell_service.write_back_iff hc hread'
  constructor
  · intro h cell hcell m hm
    exact hiff.mp (h writes before hwrites hbefore) _ (List.mem_map_of_mem hcell) m hm
  · intro h writes' before' hw hb
    rw [hwrites] at hw
    cases hw
    rw [hbefore] at hb
    cases hb
    refine hiff.mpr fun entry hentry m hm => ?_
    obtain ⟨cell, hcell, rfl⟩ := List.mem_map.mp hentry
    exact h cell hcell m hm

/-- The snapshot brings back everything but cells that cannot be rewritten. -/
theorem restored_left_iff (hrow : SameProposal row change)
    (hprev : row.previous_content = some previous) (hleft : Left tm1 change s s' previous) :
    restored tm1 row s' = .ok s ↔ (change.change_type = .write_cells → Rewritable tm1 change s) := by
  unfold Left at hleft
  have htype := hrow.change_type
  have htarget := hrow.target_name
  rcases ht : change.change_type <;> simp only [ht] at hleft <;> rw [ht] at htype
  case update_rules =>
    obtain ⟨rules, prior, now, -, hprior, hwrite, -, rfl⟩ := hleft
    refine iff_of_true ?_ fun h => by cases h
    simp only [restored, htype, hprev, htarget]
    exact cube_service.update_cube_rules_undo hprior hwrite
  case create_process =>
    obtain ⟨content, now, -, hnone, rfl, hnow, rfl⟩ := hleft
    refine iff_of_true ?_ fun h => by cases h
    simp only [restored, htype, htarget, removeProcess, hnow, Option.isSome_some, if_true]
    exact process_service.delete_process_undo hnone (_build_process_name _ _ _ _)
  case update_process =>
    obtain ⟨content, base, now, -, hbase, rfl, -, rfl⟩ := hleft
    refine iff_of_true ?_ fun h => by cases h
    simp only [restored, htype, hprev, putBack]
    exact process_service.update_process_undo hbase (_build_process_name _ _ _ _)
  case delete_process =>
    obtain ⟨base, hbase, rfl, rfl⟩ := hleft
    refine iff_of_true ?_ fun h => by cases h
    simp only [restored, htype, hprev, putBack]
    exact process_service.restore_process_undo hbase
  case write_cells =>
    obtain ⟨writes, before, after, hwrites, hbefore, hwrite, -, rfl⟩ := hleft
    have hcoords := savedValues_coordinates (_read_values_length hbefore)
    -- the rollback writes the same cells, so it does what it would have done at the start
    have hagain := cell_service.write_cells_again hwrite hcoords.symm
    simp only [restored, htype, hprev, htarget, Option.getD_some, hagain, forall_const, Rewritable]
    constructor
    · intro h writes' before' hw hb
      rw [hwrites] at hw
      cases hw
      rw [hbefore] at hb
      cases hb
      exact h
    · intro h
      exact h writes before hwrites hbefore
  case create_view =>
    obtain ⟨view_name, mdx, saved, hview, -, hcreate, -, -, rfl⟩ := hleft
    refine iff_of_true ?_ fun h => by cases h
    simp only [restored, htype, removeView, hrow.new_content, hview, htarget]
    exact view_service.delete_view_undo hcreate

/-- **Executing a change and rolling it back is the identity on the server exactly
when the change writes no cells, or only cells that can be rewritten.** -/
theorem execute_rollback_identity_iff (tm1 : TM1) (answer : Answers) (executed_by now later : ℕ)
    (acknowledge_impact : Bool) (change row : TM1Change) (s s' : Server)
    (htype : change.change_type ≠ .run_process)
    (hrun : exec (execute_change tm1 answer executed_by now acknowledge_impact) ⟨change, s⟩
      = (.ok (), ⟨row, s'⟩)) (hstatus : row.status = .executed) :
    (∃ row', exec (rollback_change tm1 (fun _ => .ok) later) ⟨row, s'⟩ = (.ok (), ⟨row', s⟩) ∧
        row'.status = .rolled_back)
      ↔ (change.change_type = .write_cells → Rewritable tm1 change s) := by
  obtain ⟨hrow, previous, hprev, hleft⟩ := execute_change_left htype hrun hstatus
  have hrowtype : row.change_type ≠ .run_process := hrow.change_type ▸ htype
  rw [exec_rollback hrowtype hstatus, unedited_left hrow hprev hleft,
    ← restored_left_iff hrow hprev hleft]
  rcases restored tm1 row s' with r | s''
  · simp
  · simp [rolledBack]

end Identity

/-! ## A comment on an empty cell -/

/-- A draft that writes a comment for 2025, where there is none. -/
def commentDraft : TM1Change where
  id := 2
  connection_id := 1
  organization_id := 1
  created_by := 7
  created_at := 10
  change_type := .write_cells
  target_name := "Sales"
  new_content := some {
    cells := some [⟨some [some "2025", some "Comment"], some (.text "late")⟩] }
  base_fingerprint := some (.cells [.num 0])

/-- Its execution, with every call answered. -/
def commentExecuted : Except AppException Unit × World TM1Change Server :=
  exec (execute_change currentTM1 (fun _ => .ok) 8 20 false) ⟨commentDraft, smallServer⟩

/-- `execute_rollback_identity_iff` at that draft. -/
theorem commentDraft_identity_iff :
    (∃ row', exec (rollback_change currentTM1 (fun _ => .ok) 30)
        ⟨commentExecuted.2.mine, commentExecuted.2.remote⟩ = (.ok (), ⟨row', smallServer⟩) ∧
        row'.status = .rolled_back)
      ↔ (commentDraft.change_type = .write_cells →
          Rewritable currentTM1 commentDraft smallServer) :=
  execute_rollback_identity_iff currentTM1 (fun _ => .ok) 8 20 30 false commentDraft
    commentExecuted.2.mine smallServer commentExecuted.2.remote (by decide) rfl rfl

/-- **An execution that cannot be rolled back.** The comment is written and the
change executed; the rollback writes 0 where the comment was empty, which TM1
refuses for a string cell, and the comment stays. -/
theorem commentDraft_not_rolled_back :
    ∃ row s', exec (execute_change currentTM1 (fun _ => .ok) 8 20 false)
        ⟨commentDraft, smallServer⟩ = (.ok (), ⟨row, s'⟩) ∧ row.status = .executed ∧
      ¬ ∃ row', exec (rollback_change currentTM1 (fun _ => .ok) 30) ⟨row, s'⟩
          = (.ok (), ⟨row', smallServer⟩) ∧ row'.status = .rolled_back := by
  refine ⟨commentExecuted.2.mine, commentExecuted.2.remote, rfl, rfl, ?_⟩
  rintro ⟨row', hback, -⟩
  have hok : (exec (rollback_change currentTM1 (fun _ => .ok) 30)
      ⟨commentExecuted.2.mine, commentExecuted.2.remote⟩).1.isOk = true := by
    rw [hback]
    rfl
  revert hok
  decide +kernel

end PaCopilot.change_service
