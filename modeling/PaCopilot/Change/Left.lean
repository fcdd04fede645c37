/-
What an executed change leaves: the server it wrote, and the snapshot and the
remains (`applied`) it notes on the row.

`Left` is the one description of a finished execution that the rest of the
development uses. A rollback, and the question which later edits it sees, start
from it and never look into the execution again.
-/
import PaCopilot.Change.Execute
import PaCopilot.Tm1.Undo

set_option autoImplicit false

namespace PaCopilot.change_service

open Remote Python

/-! ## Reading the saved cells again -/

theorem _read_values_length {tm1 : TM1} {cube : String} {coordinates : List (List String)}
    {s : Server} {values : List (Option Value)}
    (h : _read_values tm1 cube coordinates s = .ok values) :
    values.length = coordinates.length := by
  unfold _read_values at h
  rcases hr : cell_service.read_cells tm1 cube coordinates s with r | (cells | message | elements)
  · simp [hr] at h
  · simp only [hr, Except.ok.injEq] at h
    rw [← h, List.length_map]
    unfold cell_service.read_cells at hr
    rcases hc : s.cube cube with _ | c
    · simp [hc] at hr
    · simp only [hc] at hr
      split at hr
      · cases hr
      · split at hr
        · split at hr <;> cases hr
        · simp only [Except.ok.injEq, cell_service.ReadCells.cells.injEq] at hr
          rw [← hr]
          simp
  · simp [hr] at h
  · simp [hr] at h

/-- The saved cells are the cells of the change. -/
theorem savedCells_coordinates {coordinates : List (List String)} {values : List (Option Value)}
    (h : values.length = coordinates.length) :
    (savedCells coordinates values).map SavedCell.coordinates = coordinates := by
  rw [savedCells, List.map_map]
  exact List.map_fst_zip h.ge

/-- The saved values are values of the cells of the change. -/
theorem savedValues_coordinates {coordinates : List (List String)} {values : List (Option Value)}
    (h : values.length = coordinates.length) :
    (savedValues (savedCells coordinates values)).map Prod.fst = coordinates := by
  rw [savedValues, List.map_map]
  exact savedCells_coordinates h

/-! ## What is left -/

/-- An execution turned the server `s` into `s'` and remembered `previous`. -/
def Left (tm1 : TM1) (change : TM1Change) (s s' : Server) (previous : PreviousContent) : Prop :=
  let target := change.target_name
  match change.change_type with
  | .update_rules => ∃ rules prior now, change.new_content.bind NewContent.rules = some rules ∧
      cube_service.get_cube_rules target s = .ok prior ∧
      cube_service.update_cube_rules target rules s = .ok s' ∧
      cube_service.get_cube_rules target s' = .ok now ∧
      previous = { rules := some prior, applied := some (.text (_rules_text now)) }
  | .create_process => ∃ content now, change.new_content = some content ∧
      s.process target = none ∧
      s' = s.putProcess (_build_process tm1 target content none) ∧
      s'.process target = some now ∧
      previous = { existed := some false, applied := some (.code (_code_of now)) }
  | .update_process => ∃ content base now, change.new_content = some content ∧
      s.process target = some base ∧
      s' = s.putProcess (_build_process tm1 target content (some base)) ∧
      s'.process target = some now ∧
      previous = { process := some base, applied := some (.code (_code_of now)) }
  | .delete_process => ∃ base, s.process target = some base ∧ s' = s.dropProcess target ∧
      previous = { process := some base }
  | .write_cells => ∃ writes before after, _cell_writes change.new_content = .ok writes ∧
      _read_values tm1 target (writes.map Prod.fst) s = .ok before ∧
      cell_service.write_cells tm1 target writes s = .ok s' ∧
      _read_values tm1 target (writes.map Prod.fst) s' = .ok after ∧
      previous = { cells := some (savedCells (writes.map Prod.fst) before)
                   applied := some (.values (after.map _normal)) }
  | .create_view => ∃ view_name mdx saved,
      _view_content change.new_content = .ok (view_name, mdx) ∧
      s.view target view_name = none ∧
      view_service.create_mdx_view tm1 target view_name mdx s = .ok s' ∧
      s'.view target view_name = some saved ∧ viewDiffers mdx saved = false ∧
      previous = { existed := some false, applied := some (.text (_mdx_text saved.mdx)) }
  -- a run is not undone, so nothing is remembered of it
  | .run_process => False

/-- The row is still about the same proposal. -/
structure SameProposal (row change : TM1Change) : Prop where
  change_type : row.change_type = change.change_type
  target_name : row.target_name = change.target_name
  new_content : row.new_content = change.new_content

/-! ## One guarded write -/

section Conclude

variable {V A : Type} {c : Compensation Server DefiniteError V A}
  {calls : Calls DefiniteError String} {seen : V → TM1Change → TM1Change}
  {errors : V → List String} {message : String} {left : V → A → PreviousContent}

/-- What raised did not end executed. -/
theorem raised_not_executed {m : ChangeM Unit} {w : World TM1Change Server} {e : AppException}
    {row : TM1Change} {s' : Server} (hm : (exec m w).1 = .error e)
    (hrun : exec (tryCatch m onUnknown) w = (.ok (), ⟨row, s'⟩)) : row.status ≠ .executed := by
  rcases hexec : exec m w with ⟨x, row', s⟩
  rw [hexec] at hm
  dsimp only at hm
  rw [exec_tryCatch, hexec, hm] at hrun
  rcases e with r | u
  · simp [onUnknown] at hrun
  · simp only [onUnknown, exec_bind, exec_own] at hrun
    rcases hp : row'.previous_content with _ | previous
    · simp [hp] at hrun
    · simp only [hp, exec_note, Prod.mk.injEq, World.mk.injEq] at hrun
      rw [← hrun.2.1]
      exact ChangeStatus.noConfusion

/-- A guarded write that ended executed was taken, verified and read back. -/
theorem conclude_executed {row row' : TM1Change} {s s' : Server}
    (hseen : ∀ v r, SameProposal (seen v r) r)
    (hrun : exec (tryCatch (conclude c calls seen errors message left) onUnknown) ⟨row', s⟩
      = (.ok (), ⟨row, s'⟩)) (hstatus : row.status = .executed) :
    SameProposal row row' ∧ ∃ v x, c.effect s = .ok s' ∧ c.verify s' = .ok v ∧
      c.wrong v = false ∧ c.reread s' = .ok x ∧ row.previous_content = some (left v x) := by
  have hexec := c.exec_run calls seen (⟨row', s⟩ : World TM1Change Server)
  rcases hres : (c.settle calls s).result with e | ⟨v, _ | x⟩
  · have hm : (exec (conclude c calls seen errors message left) ⟨row', s⟩).1 = .error e := by
      rw [conclude, exec_bind, hexec, hres]
    exact absurd hstatus (raised_not_executed hm hrun)
  · -- findings: the row is failed
    rw [exec_tryCatch, conclude, exec_bind, hexec, hres] at hrun
    simp only [exec_note, Prod.mk.injEq, World.mk.injEq] at hrun
    rw [← hrun.2.1] at hstatus
    cases hstatus
  · obtain ⟨s₁, heff, hver, ⟨hx, -⟩ | ⟨y, hy, hwrong, hreread, hrem⟩⟩ := c.settle_ok hres
    · cases hx
    cases hy
    rw [exec_tryCatch, conclude, exec_bind, hexec, hres] at hrun
    simp only [exec_note, Prod.mk.injEq, World.mk.injEq] at hrun
    obtain ⟨-, hrow, hs⟩ := hrun
    rw [hrem] at hs
    subst hs
    refine ⟨?_, v, x, heff, hver, hwrong, hreread, ?_⟩
    · rw [← hrow]
      rcases (c.settle calls s).verdict with _ | v'
      · exact ⟨rfl, rfl, rfl⟩
      · have h := hseen v' row'
        exact ⟨h.change_type, h.target_name, h.new_content⟩
    · rw [← hrow]
      rfl

end Conclude

/-! ## Each change type -/

section Types

variable {tm1 : TM1} {answer : Answers} {change row row' : TM1Change} {s s' : Server}

/-- What an execution that ended executed left: the row it is about, and `Left`. -/
def LeftOn (tm1 : TM1) (change row row' : TM1Change) (s s' : Server) : Prop :=
  SameProposal row row' ∧
    ∃ previous, row.previous_content = some previous ∧ Left tm1 change s s' previous

theorem applyRules_left (ht : change.change_type = .update_rules)
    (hrun : exec (tryCatch (applyRules tm1 answer change) onUnknown) ⟨row', s⟩
      = (.ok (), ⟨row, s'⟩)) (hstatus : row.status = .executed) :
    LeftOn tm1 change row row' s s' := by
  have hexec := exec_applyRules tm1 answer change row' s
  rcases hr : (answer .snapshot).reply (cube_service.get_cube_rules change.target_name) s
    with e | prior
  · simp only [hr] at hexec
    exact absurd hstatus (raised_not_executed (by rw [hexec]) hrun)
  rcases hc : change.new_content.bind NewContent.rules with _ | rules
  · simp only [hr, hc] at hexec
    exact absurd hstatus (raised_not_executed (by rw [hexec]) hrun)
  simp only [hr, hc] at hexec
  rw [exec_tryCatch_congr onUnknown hexec] at hrun
  have hseen : ∀ v r, SameProposal (sayRuleCheck v r) r := by
    intro v r
    unfold sayRuleCheck
    split <;> exact ⟨rfl, rfl, rfl⟩
  obtain ⟨hrow, v, now, heff, -, -, hnow, hprev⟩ := conclude_executed hseen hrun hstatus
  refine ⟨⟨hrow.change_type, hrow.target_name, hrow.new_content⟩, _, hprev, ?_⟩
  simp only [Left, ht]
  exact ⟨rules, prior, now, hc, reply_ok hr, heff, hnow, rfl⟩

theorem applyCreateProcess_left (ht : change.change_type = .create_process)
    (hrun : exec (tryCatch (applyCreateProcess tm1 answer change) onUnknown) ⟨row', s⟩
      = (.ok (), ⟨row, s'⟩)) (hstatus : row.status = .executed) :
    LeftOn tm1 change row row' s s' := by
  have hexec := exec_applyCreateProcess tm1 answer change row' s
  rcases hr : (answer .existence).reply (process_service.process_exists change.target_name) s
    with e | there
  · simp only [hr] at hexec
    exact absurd hstatus (raised_not_executed (by rw [hexec]) hrun)
  rcases there with _ | _
  swap
  · simp only [hr] at hexec
    exact absurd hstatus (raised_not_executed (by rw [hexec]) hrun)
  rcases hc : change.new_content with _ | content
  · simp only [hr, hc] at hexec
    exact absurd hstatus (raised_not_executed (by rw [hexec]) hrun)
  simp only [hr, hc] at hexec
  rw [exec_tryCatch_congr onUnknown hexec] at hrun
  obtain ⟨hrow, v, now, heff, -, -, hnow, hprev⟩ :=
    conclude_executed (fun _ _ => ⟨rfl, rfl, rfl⟩) hrun hstatus
  refine ⟨⟨hrow.change_type, hrow.target_name, hrow.new_content⟩, _, hprev, ?_⟩
  have hnone : s.process change.target_name = none := by
    simpa using process_service.process_exists_ok (reply_ok hr)
  simp only [Left, ht]
  exact ⟨content, now, hc, hnone, (Except.ok.inj heff).symm,
    process_service.get_process_body_ok hnow, rfl⟩

theorem applyUpdateProcess_left (ht : change.change_type = .update_process)
    (hrun : exec (tryCatch (applyUpdateProcess tm1 answer change) onUnknown) ⟨row', s⟩
      = (.ok (), ⟨row, s'⟩)) (hstatus : row.status = .executed) :
    LeftOn tm1 change row row' s s' := by
  have hexec := exec_applyUpdateProcess tm1 answer change row' s
  rcases hr : (answer .snapshot).reply (process_service.get_process_body change.target_name) s
    with e | base
  · simp only [hr] at hexec
    exact absurd hstatus (raised_not_executed (by rw [hexec]) hrun)
  rcases hc : change.new_content with _ | content
  · simp only [hr, hc] at hexec
    exact absurd hstatus (raised_not_executed (by rw [hexec]) hrun)
  simp only [hr, hc] at hexec
  rw [exec_tryCatch_congr onUnknown hexec] at hrun
  obtain ⟨hrow, v, now, heff, -, -, hnow, hprev⟩ :=
    conclude_executed (fun _ _ => ⟨rfl, rfl, rfl⟩) hrun hstatus
  refine ⟨⟨hrow.change_type, hrow.target_name, hrow.new_content⟩, _, hprev, ?_⟩
  simp only [Left, ht]
  exact ⟨content, base, now, hc, process_service.get_process_body_ok (reply_ok hr),
    (Except.ok.inj heff).symm, process_service.get_process_body_ok hnow, rfl⟩

theorem applyDeleteProcess_left (ht : change.change_type = .delete_process)
    (hrun : exec (tryCatch (applyDeleteProcess answer change) onUnknown) ⟨row', s⟩
      = (.ok (), ⟨row, s'⟩)) (hstatus : row.status = .executed) :
    LeftOn tm1 change row row' s s' := by
  have hexec := exec_applyDeleteProcess answer change row' s
  rcases hr : (answer .snapshot).reply (process_service.get_process_body change.target_name) s
    with e | base
  · simp only [hr] at hexec
    exact absurd hstatus (raised_not_executed (by rw [hexec]) hrun)
  rcases hw : (answer .write).result (process_service.delete_process change.target_name) s
    with ⟨e | _, s₁⟩
  · simp only [hr, hw] at hexec
    exact absurd hstatus (raised_not_executed (by rw [hexec]) hrun)
  simp only [hr, hw] at hexec
  rw [exec_tryCatch, hexec] at hrun
  simp only [Prod.mk.injEq, World.mk.injEq, true_and] at hrun
  obtain ⟨hrow, rfl⟩ := hrun
  rw [← hrow]
  refine ⟨⟨rfl, rfl, rfl⟩, _, rfl, ?_⟩
  simp only [Left, ht]
  exact ⟨base, process_service.get_process_body_ok (reply_ok hr),
    process_service.delete_process_ok (result_ok hw).2, rfl⟩

theorem applyCells_left (ht : change.change_type = .write_cells)
    (hrun : exec (tryCatch (applyCells tm1 answer change) onUnknown) ⟨row', s⟩
      = (.ok (), ⟨row, s'⟩)) (hstatus : row.status = .executed) :
    LeftOn tm1 change row row' s s' := by
  have hexec := exec_applyCells tm1 answer change row' s
  rcases hw : _cell_writes change.new_content with r | writes
  · simp only [hw] at hexec
    exact absurd hstatus (raised_not_executed (by rw [hexec]) hrun)
  rcases hd : (answer .dimensions).reply (cube_service.get_cube change.target_name) s with e | cube
  · simp only [hw, hd] at hexec
    exact absurd hstatus (raised_not_executed (by rw [hexec]) hrun)
  rcases hr : (answer .snapshot).reply
      (_read_values tm1 change.target_name (writes.map Prod.fst)) s with e | before
  · simp only [hw, hd, hr] at hexec
    exact absurd hstatus (raised_not_executed (by rw [hexec]) hrun)
  simp only [hw, hd, hr] at hexec
  rw [exec_tryCatch_congr onUnknown hexec] at hrun
  obtain ⟨hrow, after, -, heff, hver, -, -, hprev⟩ :=
    conclude_executed (fun _ _ => ⟨rfl, rfl, rfl⟩) hrun hstatus
  refine ⟨⟨hrow.change_type, hrow.target_name, hrow.new_content⟩, _, hprev, ?_⟩
  simp only [Left, ht]
  exact ⟨writes, before, after, hw, reply_ok hr, heff, hver, rfl⟩

theorem applyView_left (ht : change.change_type = .create_view)
    (hrun : exec (tryCatch (applyView tm1 answer change) onUnknown) ⟨row', s⟩
      = (.ok (), ⟨row, s'⟩)) (hstatus : row.status = .executed) :
    LeftOn tm1 change row row' s s' := by
  have hexec := exec_applyView tm1 answer change row' s
  rcases hv : _view_content change.new_content with r | ⟨view_name, mdx⟩
  · simp only [hv] at hexec
    exact absurd hstatus (raised_not_executed (by rw [hexec]) hrun)
  rcases hr : (answer .existence).reply
      (view_service.view_exists change.target_name view_name) s with e | there
  · simp only [hv, hr] at hexec
    exact absurd hstatus (raised_not_executed (by rw [hexec]) hrun)
  rcases there with _ | _
  swap
  · simp only [hv, hr] at hexec
    exact absurd hstatus (raised_not_executed (by rw [hexec]) hrun)
  simp only [hv, hr] at hexec
  rw [exec_tryCatch_congr onUnknown hexec] at hrun
  obtain ⟨hrow, saved, -, heff, hver, hwrong, -, hprev⟩ :=
    conclude_executed (fun _ _ => ⟨rfl, rfl, rfl⟩) hrun hstatus
  refine ⟨⟨hrow.change_type, hrow.target_name, hrow.new_content⟩, _, hprev, ?_⟩
  have hnone : s.view change.target_name view_name = none := by
    simpa using view_service.view_exists_ok (reply_ok hr)
  simp only [Left, ht]
  exact ⟨view_name, mdx, saved, hv, hnone, heff, structure_service.get_view_ok hver, hwrong, rfl⟩

end Types

/-- **What an executed change left**, whatever TM1 answered on the way. -/
theorem execute_change_left {tm1 : TM1} {answer : Answers} {executed_by now : ℕ}
    {acknowledge_impact : Bool} {change row : TM1Change} {s s' : Server}
    (h : change.change_type ≠ .run_process)
    (hrun : exec (execute_change tm1 answer executed_by now acknowledge_impact) ⟨change, s⟩
      = (.ok (), ⟨row, s'⟩)) (hstatus : row.status = .executed) :
    LeftOn tm1 change row change s s' := by
  rw [exec_execute_change] at hrun
  rcases hadm : admitted tm1 answer acknowledge_impact change s with e | ⟨⟩
  · simp [hadm] at hrun
  simp only [hadm] at hrun
  have hsame : ∀ {row}, LeftOn tm1 change row (stamp executed_by now change) s s' →
      LeftOn tm1 change row change s s' := by
    rintro row ⟨hrow, hleft⟩
    exact ⟨⟨hrow.change_type, hrow.target_name, hrow.new_content⟩, hleft⟩
  unfold _apply at hrun
  split at hrun
  · exact hsame (applyRules_left ‹_› hrun hstatus)
  · exact hsame (applyCreateProcess_left ‹_› hrun hstatus)
  · exact hsame (applyUpdateProcess_left ‹_› hrun hstatus)
  · exact absurd ‹_› h
  · exact hsame (applyCells_left ‹_› hrun hstatus)
  · exact hsame (applyView_left ‹_› hrun hstatus)
  · exact hsame (applyDeleteProcess_left ‹_› hrun hstatus)

end PaCopilot.change_service
