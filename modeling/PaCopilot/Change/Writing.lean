/-
The write of an execution.

Before it, an execution reads. `writing` says of an execution whether TM1 carries
its write out, and if it does, whether the calls after it end in a definite
error. An execution whose write is not carried out leaves TM1 as it is; one whose
write is carried out raises exactly on such an error, since a lost answer is
written on the row instead.
-/
import PaCopilot.Change.Atomic
import PaCopilot.Change.Request

set_option autoImplicit false

namespace PaCopilot.change_service

open Remote

/-- The result is a definite error. -/
def definite {α : Type} : Except AppException α → Bool
  | .error (.definite _) => true
  | _ => false

/-- What a guarded write comes to: `none` when TM1 does not carry it out. -/
def guarded {V A : Type} (c : Compensation Server DefiniteError V A)
    (calls : Calls DefiniteError String) (s : Server) : Option Bool :=
  if calls.write.carries c.effect s then some (definite (c.settle calls s).result) else none

/-- `none` when TM1 carries out no write of an execution; otherwise whether the calls
after it end in a definite error. -/
def writing (tm1 : TM1) (answer : Answers) (change : TM1Change) (s : Server) : Option Bool :=
  let target := change.target_name
  match change.change_type with
  | .update_rules =>
    match (answer .snapshot).reply (cube_service.get_cube_rules target) s,
        change.new_content.bind NewContent.rules with
    | .ok previous, some rules => guarded (rulesCompensation tm1 target rules previous) answer.calls s
    | _, _ => none
  | .create_process =>
    match (answer .existence).reply (process_service.process_exists target) s,
        change.new_content with
    | .ok false, some content =>
      guarded (processCompensation tm1 target (_build_process tm1 target content none)
        (process_service.delete_process target)) answer.calls s
    | _, _ => none
  | .update_process =>
    match (answer .snapshot).reply (process_service.get_process_body target) s,
        change.new_content with
    | .ok base, some content =>
      guarded (processCompensation tm1 target (_build_process tm1 target content (some base))
        (process_service.update_or_create_process base)) answer.calls s
    | _, _ => none
  | .delete_process =>
    match (answer .snapshot).reply (process_service.get_process_body target) s with
    | .ok _ =>
      -- the deletion is the last call
      if (answer .write).carries (process_service.delete_process target) s then some false else none
    | _ => none
  | .write_cells =>
    match _cell_writes change.new_content with
    | .error _ => none
    | .ok writes =>
      match (answer .dimensions).reply (cube_service.get_cube target) s,
          (answer .snapshot).reply (_read_values tm1 target (writes.map Prod.fst)) s with
      | .ok _, .ok before =>
        guarded (cellsCompensation tm1 target writes (savedCells (writes.map Prod.fst) before))
          answer.callsUnread s
      | _, _ => none
  | .create_view =>
    match _view_content change.new_content with
    | .error _ => none
    | .ok (view_name, mdx) =>
      match (answer .existence).reply (view_service.view_exists target view_name) s with
      | .ok false => guarded (viewCompensation tm1 target view_name mdx) answer.callsUnread s
      | _ => none
  | .run_process =>
    let parameters := (change.new_content.map NewContent.given).getD []
    if parameters.any fun (name, _) => name ∈ RESERVED_RUN_KEYWORDS then none
    -- whatever goes wrong with a run is written on the row
    else if (answer .write).carries (executeProcess tm1 target parameters) s then some false
    else none

/-- TM1 carries out the write of an execution. -/
def wrote (tm1 : TM1) (answer : Answers) (acknowledge_impact : Bool) (change : TM1Change)
    (s : Server) : Bool :=
  admitted tm1 answer acknowledge_impact change s = .ok () &&
    (writing tm1 answer change s).isSome

/-- TM1 carries out the write of an execution, and the calls after it end in a
definite error. -/
def raisesAfterWriting (tm1 : TM1) (answer : Answers) (acknowledge_impact : Bool)
    (change : TM1Change) (s : Server) : Bool :=
  admitted tm1 answer acknowledge_impact change s = .ok () &&
    writing tm1 answer change s = some true

/-! ## One change type -/

section Apply

variable {tm1 : TM1} {answer : Answers} {change row : TM1Change} {s : Server}

/-- What `writing` says of a run from the stamped row on. -/
def Told (w : Option Bool) (s : Server)
    (run : Except AppException Unit × World TM1Change Server) : Prop :=
  match w with
  | none => run.2.remote = s
  | some b => definite run.1 = b ∧ ∀ u, run.1 ≠ .error (.unknown u)

/-- The handler does not touch TM1. -/
theorem told_none {m : ChangeM Unit} {row' : TM1Change} {e : AppException}
    {w : World TM1Change Server} (hm : exec m w = (.error e, ⟨row', s⟩)) :
    Told none s (exec (tryCatch m onUnknown) w) := by
  rw [exec_tryCatch, hm, Told]
  rcases e with r | u
  · rfl
  · simp only [onUnknown, exec_bind, exec_own]
    rcases row'.previous_content with _ | previous <;> rfl

/-- A guarded write under a snapshot raises exactly the definite errors of its
calls. -/
theorem told_conclude {V A : Type} {c : Compensation Server DefiniteError V A}
    {calls : Calls DefiniteError String} {seen : V → TM1Change → TM1Change}
    {errors : V → List String} {message : String} {left : V → A → PreviousContent}
    {m : ChangeM Unit} {row' : TM1Change} {previous : PreviousContent}
    (hm : exec m ⟨row, s⟩ = exec (conclude c calls seen errors message left) ⟨row', s⟩)
    (hseen : ∀ v r, (seen v r).previous_content = r.previous_content)
    (hprev : row'.previous_content = some previous) :
    Told (guarded c calls s) s (exec (tryCatch m onUnknown) ⟨row, s⟩) := by
  rw [exec_tryCatch_congr onUnknown hm, exec_tryCatch, exec_conclude]
  have hnoted := (noted_previous c calls seen hseen ⟨row', s⟩).trans hprev
  rw [guarded]
  by_cases hcarries : calls.write.carries c.effect s = true
  · rw [if_pos hcarries]
    dsimp only
    rcases (c.settle calls s).result with e | ⟨v, _ | x⟩
    · rcases e with r | u
      · exact ⟨rfl, fun u h => by cases h⟩
      · simp only [onUnknown, exec_bind, exec_own, hnoted, exec_note]
        exact ⟨rfl, fun u h => by cases h⟩
    · exact ⟨rfl, fun u h => by cases h⟩
    · exact ⟨rfl, fun u h => by cases h⟩
  · rw [if_neg hcarries]
    rw [Bool.not_eq_true] at hcarries
    obtain ⟨e, he⟩ := result_not_carried hcarries
    have hsettle : c.settle calls s = ⟨.error e, none, s⟩ := by
      rw [Compensation.settle, he]
    dsimp only
    rw [hsettle]
    rcases e with r | u
    · rfl
    · simp only [onUnknown, exec_bind, exec_own, hnoted, exec_note, Told]

theorem applyRules_told (ht : change.change_type = .update_rules) :
    Told (writing tm1 answer change s) s
      (exec (tryCatch (applyRules tm1 answer change) onUnknown) ⟨row, s⟩) := by
  have hexec := exec_applyRules tm1 answer change row s
  rcases hr : (answer .snapshot).reply (cube_service.get_cube_rules change.target_name) s
    with e | previous
  · simp only [hr] at hexec
    simpa only [writing, ht, hr] using told_none hexec
  rcases hc : change.new_content.bind NewContent.rules with _ | rules
  · simp only [hr, hc] at hexec
    simpa only [writing, ht, hr, hc] using told_none hexec
  · simp only [hr, hc] at hexec
    have hseen : ∀ v r, (sayRuleCheck v r).previous_content = r.previous_content := by
      intro v r
      unfold sayRuleCheck
      split <;> rfl
    simpa only [writing, ht, hr, hc] using told_conclude hexec hseen rfl

theorem applyCreateProcess_told (ht : change.change_type = .create_process) :
    Told (writing tm1 answer change s) s
      (exec (tryCatch (applyCreateProcess tm1 answer change) onUnknown) ⟨row, s⟩) := by
  have hexec := exec_applyCreateProcess tm1 answer change row s
  rcases hr : (answer .existence).reply (process_service.process_exists change.target_name) s
    with e | there
  · simp only [hr] at hexec
    simpa only [writing, ht, hr] using told_none hexec
  rcases there with _ | _
  swap
  · simp only [hr] at hexec
    simpa only [writing, ht, hr] using told_none hexec
  rcases hc : change.new_content with _ | content
  · simp only [hr, hc] at hexec
    simpa only [writing, ht, hr, hc] using told_none hexec
  · simp only [hr, hc] at hexec
    simpa only [writing, ht, hr, hc] using told_conclude hexec (fun _ _ => rfl) rfl

theorem applyUpdateProcess_told (ht : change.change_type = .update_process) :
    Told (writing tm1 answer change s) s
      (exec (tryCatch (applyUpdateProcess tm1 answer change) onUnknown) ⟨row, s⟩) := by
  have hexec := exec_applyUpdateProcess tm1 answer change row s
  rcases hr : (answer .snapshot).reply (process_service.get_process_body change.target_name) s
    with e | base
  · simp only [hr] at hexec
    simpa only [writing, ht, hr] using told_none hexec
  rcases hc : change.new_content with _ | content
  · simp only [hr, hc] at hexec
    simpa only [writing, ht, hr, hc] using told_none hexec
  · simp only [hr, hc] at hexec
    simpa only [writing, ht, hr, hc] using told_conclude hexec (fun _ _ => rfl) rfl

theorem applyDeleteProcess_told (ht : change.change_type = .delete_process) :
    Told (writing tm1 answer change s) s
      (exec (tryCatch (applyDeleteProcess answer change) onUnknown) ⟨row, s⟩) := by
  have hexec := exec_applyDeleteProcess answer change row s
  rcases hr : (answer .snapshot).reply (process_service.get_process_body change.target_name) s
    with e | base
  · simp only [hr] at hexec
    simpa only [writing, ht, hr] using told_none hexec
  · simp only [hr] at hexec
    simp only [writing, ht, hr]
    rw [exec_tryCatch, hexec]
    by_cases hcarries : (answer .write).carries (process_service.delete_process change.target_name) s
        = true
    · rw [if_pos hcarries]
      rcases hw : (answer .write).result (process_service.delete_process change.target_name) s
        with ⟨e | _, s'⟩
      · rcases e with r | u
        · exact absurd hcarries (by rw [result_refused_not_carried hw]; simp)
        · simp only [onUnknown, exec_bind, exec_own, remember, exec_note]
          exact ⟨rfl, fun u h => by cases h⟩
      · exact ⟨rfl, fun u h => by cases h⟩
    · rw [if_neg hcarries]
      rw [Bool.not_eq_true] at hcarries
      obtain ⟨e, he⟩ := result_not_carried hcarries
      rw [he]
      rcases e with r | u
      · rfl
      · simp only [onUnknown, exec_bind, exec_own, remember, exec_note, Told]

theorem applyCells_told (ht : change.change_type = .write_cells) :
    Told (writing tm1 answer change s) s
      (exec (tryCatch (applyCells tm1 answer change) onUnknown) ⟨row, s⟩) := by
  have hexec := exec_applyCells tm1 answer change row s
  rcases hw : _cell_writes change.new_content with r | writes
  · simp only [hw] at hexec
    simpa only [writing, ht, hw] using told_none hexec
  rcases hd : (answer .dimensions).reply (cube_service.get_cube change.target_name) s with e | cube
  · simp only [hw, hd] at hexec
    simpa only [writing, ht, hw, hd] using told_none hexec
  rcases hr : (answer .snapshot).reply
      (_read_values tm1 change.target_name (writes.map Prod.fst)) s with e | before
  · simp only [hw, hd, hr] at hexec
    simpa only [writing, ht, hw, hd, hr] using told_none hexec
  · simp only [hw, hd, hr] at hexec
    simpa only [writing, ht, hw, hd, hr] using told_conclude hexec (fun _ _ => rfl) rfl

theorem applyView_told (ht : change.change_type = .create_view) :
    Told (writing tm1 answer change s) s
      (exec (tryCatch (applyView tm1 answer change) onUnknown) ⟨row, s⟩) := by
  have hexec := exec_applyView tm1 answer change row s
  rcases hv : _view_content change.new_content with r | ⟨view_name, mdx⟩
  · simp only [hv] at hexec
    simpa only [writing, ht, hv] using told_none hexec
  rcases hr : (answer .existence).reply
      (view_service.view_exists change.target_name view_name) s with e | there
  · simp only [hv, hr] at hexec
    simpa only [writing, ht, hv, hr] using told_none hexec
  rcases there with _ | _
  · simp only [hv, hr] at hexec
    simpa only [writing, ht, hv, hr] using told_conclude hexec (fun _ _ => rfl) rfl
  · simp only [hv, hr] at hexec
    simpa only [writing, ht, hv, hr] using told_none hexec

/-- A run of a draft never raises, and one that TM1 does not start leaves it as it
is. -/
theorem _run_told (ht : change.change_type = .run_process) {now : ℕ} (hrow : Stamped now row) :
    Told (writing tm1 answer change s) s
      (exec (tryCatch (_run tm1 answer change) onUnknown) ⟨row, s⟩) := by
  by_cases hreserved : ((change.new_content.map NewContent.given).getD []).any
      (fun (name, _) => name ∈ RESERVED_RUN_KEYWORDS) = true
  · simp only [writing, ht, if_pos hreserved, Told]
    rw [exec_tryCatch]
    simp [_run, exec_bind, exec_map, exec_tryCatch, hreserved]
  by_cases hcarries : (answer .write).carries (executeProcess tm1 change.target_name
      ((change.new_content.map NewContent.given).getD [])) s = true
  · simp only [writing, ht, if_neg hreserved, if_pos hcarries, Told]
    rw [exec_tryCatch]
    rcases hrun : exec (_run tm1 answer change) ⟨row, s⟩ with ⟨e | x, w⟩
    · exact absurd (_run_decides.raised hrow hrun) not_false
    · exact ⟨rfl, fun u h => by cases h⟩
  · simp only [writing, ht, if_neg hreserved, if_neg hcarries, Told]
    rw [Bool.not_eq_true] at hcarries
    obtain ⟨e, he⟩ := exec_perform_not_carried (w := ⟨row, s⟩) hcarries
    rw [exec_tryCatch]
    rcases e with r | u <;> simp [_run, exec_bind, exec_map, exec_tryCatch, hreserved, he]

/-- **What an execution does from the stamped row on is what `writing` says.** -/
theorem apply_told (tm1 : TM1) (answer : Answers) (change : TM1Change) (s : Server)
    {row : TM1Change} {now : ℕ} (hrow : Stamped now row) :
    Told (writing tm1 answer change s) s
      (exec (tryCatch (_apply tm1 answer change) onUnknown) ⟨row, s⟩) := by
  unfold _apply
  split
  · exact applyRules_told ‹_›
  · exact applyCreateProcess_told ‹_›
  · exact applyUpdateProcess_told ‹_›
  · exact _run_told ‹_› hrow
  · exact applyCells_told ‹_›
  · exact applyView_told ‹_›
  · exact applyDeleteProcess_told ‹_›

end Apply

/-! ## An execution -/

section Execution

variable {tm1 : TM1} {answer : Answers} {executed_by now : ℕ} {acknowledge_impact : Bool}
  {change : TM1Change} {s : Server}

/-- An execution whose write is carried out returns unless a definite error follows. -/
theorem wrote_returns (executed_by now : ℕ) (h : wrote tm1 answer acknowledge_impact change s = true)
    (hraises : raisesAfterWriting tm1 answer acknowledge_impact change s = false) :
    (exec (execute_change tm1 answer executed_by now acknowledge_impact) ⟨change, s⟩).1
      = .ok () := by
  rw [exec_execute_change]
  rcases hadm : admitted tm1 answer acknowledge_impact change s with e | ⟨⟩
  · simp [wrote, hadm] at h
  · have hrow : Stamped now (stamp executed_by now change) := ⟨rfl, admitted_draft hadm⟩
    have htold := apply_told tm1 answer change s hrow
    rcases hw : writing tm1 answer change s with _ | b
    · simp [wrote, hadm, hw] at h
    · simp only [raisesAfterWriting, hadm, hw, decide_true, Bool.true_and, Option.some.injEq,
        decide_eq_false_iff_not, Bool.not_eq_true] at hraises
      rw [hw, hraises] at htold
      obtain ⟨hdefinite, hunknown⟩ := htold
      dsimp only
      rcases hrun : (exec (tryCatch (_apply tm1 answer change) onUnknown)
          ⟨stamp executed_by now change, s⟩).1 with e | x
      · rw [hrun] at hdefinite hunknown
        rcases e with r | u
        · cases hdefinite
        · exact absurd rfl (hunknown u)
      · rfl

end Execution

end PaCopilot.change_service
