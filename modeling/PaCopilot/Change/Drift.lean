/-
Which later edits of a target are noticed.

A draft keeps a digest of its target, and an executed row keeps what it left; an
execution and a rollback go on only while the target still compares equal. What
is compared is a normal form of part of the target (`_server_fingerprint`): the
rule text, a process's four code sections, the values of the cells. What is
written is the whole of it. An edit outside the normal form is therefore neither
noticed nor kept.
-/
import PaCopilot.Change.Left
import PaCopilot.Change.Rollback

set_option autoImplicit false

namespace PaCopilot.change_service

open Remote Python

/-! ## The question -/

/-- The change types whose target a later edit could spoil. -/
def Guarded (change : TM1Change) : Prop :=
  change.change_type = .update_rules ∨ change.change_type = .update_process ∨
    change.change_type = .delete_process ∨ change.change_type = .write_cells

/-- The draft has the content that `create_change` requires of it. -/
def HasContent (change : TM1Change) : Prop :=
  (change.change_type = .update_rules → ∃ rules,
    change.new_content.bind NewContent.rules = some rules) ∧
  (change.change_type = .update_process → ∃ content, change.new_content = some content)

/-- The call raised and left the server as it found it. -/
def Refused (s : Server) (run : Except AppException Unit × World TM1Change Server) : Prop :=
  (∃ e, run.1 = .error e) ∧ run.2.remote = s

/-- The draft may be executed as far as the row is concerned. -/
def Executable (acknowledge_impact : Bool) (change : TM1Change) : Prop :=
  change.status = .draft ∧ change.validation_errors = [] ∧
    (needs_acknowledgement change.impact && !acknowledge_impact) = false

/-- What is compared of the target, as the server answers it. -/
def compared (tm1 : TM1) (change : TM1Change) (s : Server) : Except AppException (Option Digest) :=
  _server_fingerprint tm1 change.change_type change.target_name change.new_content .ok s

/-! ## Between draft and execution -/

section Execution

variable {tm1 : TM1} {change : TM1Change} {s : Server}

/-- The guards of an execution, one by one. -/
theorem admitted_eq_ok_iff {answer : Answers} {acknowledge_impact : Bool} {base : Digest}
    (hbase : change.base_fingerprint = some base) :
    admitted tm1 answer acknowledge_impact change s = .ok () ↔
      Executable acknowledge_impact change ∧
        (answer .client).reply (fun _ => .ok ()) s = .ok () ∧
        _server_fingerprint tm1 change.change_type change.target_name change.new_content
          (answer .drift) s = .ok (some base) := by
  simp only [admitted, hbase, bind_eq_ok_iff, refuse_eq_ok_iff, not_not, Executable,
    Bool.not_eq_true]
  constructor
  · rintro ⟨-, hstatus, -, hvalid, -, hack, ⟨⟩, hclient, current, hcurrent, rfl⟩
    exact ⟨⟨hstatus, hvalid, hack⟩, hclient, hcurrent⟩
  · rintro ⟨⟨hstatus, hvalid, hack⟩, hclient, hcurrent⟩
    exact ⟨(), hstatus, (), hvalid, (), hack, (), hclient, some base, hcurrent, rfl⟩

/-- A digest that was read is the digest that TM1 would answer. -/
theorem fingerprint_answered {a : Answer} {d : Option Digest}
    (h : _server_fingerprint tm1 change.change_type change.target_name change.new_content a s
      = .ok d) : compared tm1 change s = .ok d := by
  have hmap : ∀ {α : Type} {reply : Server → Except DefiniteError α} {f : α → Option Digest},
      (a.reply reply s).map f = .ok d →
        ((Answer.ok : Answer).reply reply s).map f = .ok d := by
    intro α reply f h
    rcases hr : a.reply reply s with e | x
    · rw [hr] at h
      cases h
    · rw [hr] at h
      rw [reply_of_ok (reply_ok hr)]
      exact h
  unfold compared
  unfold _server_fingerprint at h ⊢
  rcases ht : change.change_type <;> simp only [ht] at h ⊢
  case write_cells =>
    rcases hw : _cell_writes change.new_content with r | writes
    · rw [hw] at h
      cases h
    · rw [hw] at h
      exact hmap h
  case update_rules => exact hmap h
  case update_process => exact hmap h
  case delete_process => exact hmap h
  all_goals exact h

/-- Of a guarded change there is always something to compare. -/
theorem compared_some {d : Option Digest} (hguarded : Guarded change)
    (h : compared tm1 change s = .ok d) : ∃ base, d = some base := by
  have hmap : ∀ {α : Type} {x : Except AppException α} {f : α → Digest},
      (x.map fun y => some (f y)) = .ok d → ∃ base, d = some base := by
    intro α x f h
    rcases x with e | y
    · cases h
    · exact ⟨f y, (Except.ok.inj h).symm⟩
  unfold compared _server_fingerprint at h
  rcases hguarded with ht | ht | ht | ht <;> simp only [ht] at h
  · exact hmap h
  · exact hmap h
  · exact hmap h
  · rcases hw : _cell_writes change.new_content with r | writes
    · rw [hw] at h
      cases h
    · rw [hw] at h
      exact hmap h

/-- The answers under which a write is sent and never confirmed. -/
def unconfirmedWrite : Answers
  | .write => .unknown true "TM1 request failed after 1 attempts: The server did not respond in time."
  | _ => .ok

/-- A guarded write that is sent and never confirmed leaves a row that says so. -/
theorem conclude_unconfirmed {V A : Type} {c : Compensation Server DefiniteError V A}
    {calls : Calls DefiniteError String} {seen : V → TM1Change → TM1Change}
    {errors : V → List String} {message : String} {left : V → A → PreviousContent}
    {row : TM1Change} {previous : PreviousContent} {b : Bool} {u : String}
    (hcalls : calls.write = .unknown b u) (hprev : row.previous_content = some previous) :
    (exec (tryCatch (conclude c calls seen errors message left) onUnknown) ⟨row, s⟩).1
      = .ok () := by
  have hsettle : (c.settle calls s).result = .error (.unknown u) ∧
      (c.settle calls s).verdict = none := by
    simp [Compensation.settle, hcalls, Answer.result]
  rw [exec_tryCatch, conclude, exec_bind, c.exec_run, hsettle.1, hsettle.2]
  simp only [onUnknown, exec_bind, exec_own, Option.map_none, Option.getD_none, hprev, exec_note]

/-- With its target as it was compared, an execution goes on to its write. -/
theorem goes_on {base : Digest} (hguarded : Guarded change) (hcontent : HasContent change)
    (hcompared : compared tm1 change s = .ok (some base)) (row : TM1Change) :
    (exec (tryCatch (_apply tm1 unconfirmedWrite change) onUnknown) ⟨row, s⟩).1 = .ok () := by
  unfold compared at hcompared
  -- what was compared is what the execution reads first, so that read is answered
  rcases hguarded with ht | ht | ht | ht
  · obtain ⟨rules, hrules⟩ := hcontent.1 ht
    simp only [_server_fingerprint, ht] at hcompared
    rcases hr : (Answer.ok : Answer).reply (cube_service.get_cube_rules change.target_name) s
      with e | previous
    · rw [hr] at hcompared
      cases hcompared
    · have hexec := exec_applyRules tm1 unconfirmedWrite change row s
      simp only [unconfirmedWrite, hr, hrules] at hexec
      simp only [_apply, ht]
      rw [exec_tryCatch_congr onUnknown hexec]
      exact conclude_unconfirmed rfl rfl
  · obtain ⟨content, hnew⟩ := hcontent.2 ht
    simp only [_server_fingerprint, ht] at hcompared
    rcases hr : (Answer.ok : Answer).reply
        (process_service.get_process_body change.target_name) s with e | previous
    · rw [hr] at hcompared
      cases hcompared
    · have hexec := exec_applyUpdateProcess tm1 unconfirmedWrite change row s
      simp only [unconfirmedWrite, hr, hnew] at hexec
      simp only [_apply, ht]
      rw [exec_tryCatch_congr onUnknown hexec]
      exact conclude_unconfirmed rfl rfl
  · simp only [_server_fingerprint, ht] at hcompared
    rcases hr : (Answer.ok : Answer).reply
        (process_service.get_process_body change.target_name) s with e | previous
    · rw [hr] at hcompared
      cases hcompared
    · have hexec := exec_applyDeleteProcess unconfirmedWrite change row s
      simp only [unconfirmedWrite, hr, Answer.result] at hexec
      simp only [_apply, ht]
      rw [exec_tryCatch, hexec]
      simp [onUnknown, exec_bind, remember]
  · simp only [_server_fingerprint, ht] at hcompared
    rcases hw : _cell_writes change.new_content with r | writes
    · rw [hw] at hcompared
      cases hcompared
    simp only [hw] at hcompared
    rcases hr : (Answer.ok : Answer).reply
        (_read_values tm1 change.target_name (writes.map Prod.fst)) s with e | before
    · rw [hr] at hcompared
      cases hcompared
    -- cells were read of it, so there is a cube to ask the dimensions of
    · obtain ⟨c, hc⟩ := _read_values_cube (reply_ok hr)
      have hd : (Answer.ok : Answer).reply (cube_service.get_cube change.target_name) s = .ok c :=
        reply_of_ok (by rw [cube_service.get_cube, hc])
      have hexec := exec_applyCells tm1 unconfirmedWrite change row s
      simp only [unconfirmedWrite, hw, hd, hr] at hexec
      simp only [_apply, ht]
      rw [exec_tryCatch_congr onUnknown hexec]
      exact conclude_unconfirmed rfl rfl

/-- **An edit between draft and execution is refused exactly when it changes what is
compared**, of a draft that can be executed at all. -/
theorem execute_refuses_iff {s₀ : Server} (executed_by now : ℕ) (acknowledge_impact : Bool)
    (hguarded : Guarded change) (hcontent : HasContent change)
    (hbase : compared tm1 change s₀ = .ok change.base_fingerprint) :
    (∀ answer, Refused s
        (exec (execute_change tm1 answer executed_by now acknowledge_impact) ⟨change, s⟩))
      ↔ ¬ Executable acknowledge_impact change ∨ compared tm1 change s ≠ compared tm1 change s₀ := by
  obtain ⟨base, hsome⟩ := compared_some hguarded hbase
  rw [hbase, hsome]
  constructor
  · intro h
    by_contra hnot
    rw [not_or, not_not, not_not] at hnot
    obtain ⟨hexecutable, hsame⟩ := hnot
    have hadm : admitted tm1 unconfirmedWrite acknowledge_impact change s = .ok () :=
      (admitted_eq_ok_iff hsome).mpr ⟨hexecutable, rfl, hsame⟩
    obtain ⟨⟨e, he⟩, -⟩ := h unconfirmedWrite
    rw [execute_change, exec_bind, exec_own] at he
    simp only [exec_bind, exec_look, hadm, exec_note] at he
    rw [goes_on hguarded hcontent hsame] at he
    cases he
  · intro h answer
    rcases hadm : admitted tm1 answer acknowledge_impact change s with e | ⟨⟩
    · rw [execute_change, exec_bind, exec_own]
      simp only [exec_bind, exec_look, hadm]
      exact ⟨⟨e, rfl⟩, rfl⟩
    · obtain ⟨hexecutable, -, hcurrent⟩ := (admitted_eq_ok_iff hsome).mp hadm
      exact absurd (fingerprint_answered hcurrent)
        (h.resolve_left (not_not.mpr hexecutable))

end Execution

/-! ## Between execution and rollback -/

section Rollback

variable {tm1 : TM1} {change row : TM1Change} {s s' s₂ : Server} {previous : PreviousContent}

/-- An edit after an execution that the rollback can see: of a deleted process that
there is one again, of the others that what is compared has changed. -/
def SeenAfter (tm1 : TM1) (change : TM1Change) (left edited : Server) : Prop :=
  match change.change_type with
  | .delete_process => edited.process change.target_name ≠ none
  | _ => compared tm1 change edited ≠ compared tm1 change left

/-- TM1 refuses the values that a rollback would write back. -/
def WriteBackRefused (tm1 : TM1) (change : TM1Change) (s edited : Server) : Prop :=
  change.change_type = .write_cells ∧ ∃ writes before r,
    _cell_writes change.new_content = .ok writes ∧
    _read_values tm1 change.target_name (writes.map Prod.fst) s = .ok before ∧
    cell_service.write_cells tm1 change.target_name
      (savedValues (savedCells (writes.map Prod.fst) before)) edited = .error r

/-- The rollback's comparison sees exactly such edits. -/
theorem unedited_iff_not_seen (hguarded : Guarded change) (hrow : SameProposal row change)
    (hprev : row.previous_content = some previous) (hleft : Left tm1 change s s' previous) :
    unedited tm1 (fun _ => .ok) row s₂ = .ok () ↔ ¬ SeenAfter tm1 change s' s₂ := by
  unfold Left at hleft
  have htype := hrow.change_type
  have htarget := hrow.target_name
  -- what the execution recorded as applied is the digest that is compared now
  rcases hguarded with ht | ht | ht | ht <;> simp only [ht] at hleft <;> rw [ht] at htype
  · obtain ⟨rules, prior, now, -, -, -, hnow, rfl⟩ := hleft
    have hcompared : compared tm1 change s' = .ok (some (.rules (_rules_text now))) := by
      simp only [compared, _server_fingerprint, ht]
      exact map_eq_ok_iff.mpr ⟨now, reply_of_ok hnow, rfl⟩
    rw [unedited_rules_iff htype hprev rfl, htarget]
    simp only [SeenAfter, ht, hcompared, not_not]
    simp only [compared, _server_fingerprint, ht, map_eq_ok_iff, reply_eq_ok_iff,
      Option.some.injEq, Digest.rules.injEq]
  · obtain ⟨content, base, now, -, -, -, hnow, rfl⟩ := hleft
    have hcompared : compared tm1 change s' = .ok (some (.code (_code_of now))) := by
      simp only [compared, _server_fingerprint, ht]
      refine map_eq_ok_iff.mpr ⟨now, reply_of_ok ?_, rfl⟩
      rw [process_service.get_process_body, hnow]
    have hbody : ∀ p, process_service.get_process_body change.target_name s₂ = .ok p ↔
        s₂.process change.target_name = some p := by
      intro p
      rcases hp : s₂.process change.target_name with _ | q <;>
        simp [process_service.get_process_body, hp]
    rw [unedited_process_iff (.inr htype) hprev rfl, htarget]
    simp only [SeenAfter, ht, hcompared, not_not]
    simp only [compared, _server_fingerprint, ht, map_eq_ok_iff, reply_eq_ok_iff, hbody,
      Option.some.injEq, Digest.code.injEq, htype, reduceCtorEq, and_false, or_false]
  · rw [unedited_delete_iff htype, htarget]
    simp only [SeenAfter, ht, not_not, ne_eq]
  · obtain ⟨writes, before, after, hwrites, hbefore, -, hafter, rfl⟩ := hleft
    have hcompared : compared tm1 change s' = .ok (some (.cells (after.map _normal))) := by
      simp only [compared, _server_fingerprint, ht, hwrites]
      exact map_eq_ok_iff.mpr ⟨after, reply_of_ok hafter, rfl⟩
    rw [unedited_cells_iff htype hprev rfl rfl, htarget,
      savedCells_coordinates (_read_values_length hbefore)]
    simp only [SeenAfter, ht, hcompared, not_not]
    simp only [compared, _server_fingerprint, ht, hwrites, map_eq_ok_iff, reply_eq_ok_iff,
      Option.some.injEq, Digest.cells.injEq]

/-- Only cells can be refused by TM1 when the snapshot is put back over an unedited
target. -/
theorem restored_error_iff (hguarded : Guarded change) (hrow : SameProposal row change)
    (hprev : row.previous_content = some previous) (hleft : Left tm1 change s s' previous)
    (hunseen : ¬ SeenAfter tm1 change s' s₂) :
    (∃ r, restored tm1 row s₂ = .error r) ↔ WriteBackRefused tm1 change s s₂ := by
  have hunedited := (unedited_iff_not_seen hguarded hrow hprev hleft).mpr hunseen
  unfold Left at hleft
  have htype := hrow.change_type
  have htarget := hrow.target_name
  unfold WriteBackRefused
  rcases hguarded with ht | ht | ht | ht <;> simp only [ht] at hleft <;> rw [ht] at htype
  · obtain ⟨rules, prior, now, -, -, -, -, rfl⟩ := hleft
    obtain ⟨rules₂, hrules₂, -⟩ := (unedited_rules_iff htype hprev rfl).mp hunedited
    -- an object that can be read can be written as a whole
    refine iff_of_false ?_ (by simp [ht])
    rintro ⟨r, hr⟩
    rcases hc : s₂.cube row.target_name with _ | c
    · simp [cube_service.get_cube_rules, hc] at hrules₂
    · simp [restored, htype, hprev, cube_service.update_cube_rules, hc] at hr
  · obtain ⟨content, base, now, -, -, -, -, rfl⟩ := hleft
    refine iff_of_false ?_ (by simp [ht])
    rintro ⟨r, hr⟩
    simp [restored, htype, hprev, putBack, process_service.update_or_create_process] at hr
  · obtain ⟨base, -, -, rfl⟩ := hleft
    refine iff_of_false ?_ (by simp [ht])
    rintro ⟨r, hr⟩
    simp [restored, htype, hprev, putBack, process_service.update_or_create_process] at hr
  · obtain ⟨writes, before, after, hwrites, hbefore, -, -, rfl⟩ := hleft
    simp only [restored, htype, hprev, Option.getD_some, htarget, ht, true_and]
    constructor
    · rintro ⟨r, hr⟩
      exact ⟨writes, before, r, hwrites, hbefore, hr⟩
    · rintro ⟨writes', before', r, hw, hb, hr⟩
      rw [hwrites] at hw
      cases hw
      rw [hbefore] at hb
      cases hb
      exact ⟨r, hr⟩

/-- A write that TM1 would refuse on its own grounds changes nothing, however its
call ends. -/
theorem send_refused {a : Answer} {effect : Server → Except DefiniteError Server} {r : DefiniteError}
    (h : effect s = .error r) (row : TM1Change) :
    Refused s (exec (send a effect : ChangeM Unit) ⟨row, s⟩) := by
  rw [exec_send]
  rcases a with _ | q | ⟨b, u⟩
  · rw [result_of_error h]
    exact ⟨⟨_, rfl⟩, rfl⟩
  · exact ⟨⟨_, rfl⟩, rfl⟩
  · refine ⟨⟨_, rfl⟩, ?_⟩
    simp [Answer.result, carriedOut, h]

/-- **An edit between execution and rollback is refused exactly when it is seen, or
when TM1 refuses the values to be written back.** -/
theorem rollback_refuses_iff (later : ℕ) (hguarded : Guarded change)
    (hrow : SameProposal row change) (hstatus : row.status = .executed)
    (hprev : row.previous_content = some previous) (hleft : Left tm1 change s s' previous) :
    (∀ back, Refused s₂ (exec (rollback_change tm1 back later) ⟨row, s₂⟩))
      ↔ SeenAfter tm1 change s' s₂ ∨ WriteBackRefused tm1 change s s₂ := by
  have hrun : row.change_type ≠ .run_process := by
    rw [hrow.change_type]
    rcases hguarded with ht | ht | ht | ht <;> simp [ht]
  have hunedited : unedited tm1 (fun _ => .ok) row s₂ = .ok () ↔ ¬ SeenAfter tm1 change s' s₂ :=
    unedited_iff_not_seen hguarded hrow hprev hleft
  constructor
  · intro h
    by_contra hnot
    rw [not_or] at hnot
    obtain ⟨hunseen, htaken⟩ := hnot
    obtain ⟨⟨e, he⟩, -⟩ := h fun _ => .ok
    rw [exec_rollback hrun hstatus, hunedited.mpr hunseen] at he
    rcases hres : restored tm1 row s₂ with r | s₃
    · exact htaken ((restored_error_iff hguarded hrow hprev hleft hunseen).mp ⟨r, hres⟩)
    · rw [hres] at he
      cases he
  · intro h back
    rw [exec_rollback_with hrun hstatus]
    rcases (back .client).reply (fun _ => Except.ok ()) s₂ with e | ⟨⟩
    · exact ⟨⟨e, rfl⟩, rfl⟩
    rcases hback : unedited tm1 back row s₂ with e | ⟨⟩
    · exact ⟨⟨e, rfl⟩, rfl⟩
    have hunseen := hunedited.mp (unedited_answered hback)
    obtain ⟨r, hres⟩ := (restored_error_iff hguarded hrow hprev hleft hunseen).mpr
      (h.resolve_left hunseen)
    have hcells : row.change_type = .write_cells := by
      rw [hrow.change_type]
      exact (h.resolve_left hunseen).1
    -- the one write of this rollback is the one TM1 refuses
    have hsend : Refused s₂ (exec (restoreContent tm1 back row) ⟨row, s₂⟩) := by
      simp only [restored, hcells, hprev] at hres
      simp only [restoreContent, hcells, hprev, exec_bind, exec_ask]
      rcases (back .dimensions).reply (cube_service.get_cube row.target_name) s₂ with e | c
      · exact ⟨⟨e, rfl⟩, rfl⟩
      · exact send_refused hres row
    obtain ⟨⟨e, he⟩, hremote⟩ := hsend
    dsimp only
    rcases hexec : exec (restoreContent tm1 back row) ⟨row, s₂⟩ with ⟨x, w⟩
    rw [hexec] at he hremote
    dsimp only at he
    subst he
    exact ⟨⟨e, rfl⟩, hremote⟩

end Rollback

/-! ## Both windows -/

/-- **Which edits from outside are refused.** Before an execution, exactly those
that change what is compared (of a draft that can be executed); before a rollback,
exactly those that are seen, and cells that TM1 will not take back. -/
theorem outside_edit_refused_iff (tm1 : TM1) (change : TM1Change) (executed_by now later : ℕ)
    (acknowledge_impact : Bool) (hguarded : Guarded change) (hcontent : HasContent change) :
    (∀ drafted edited, compared tm1 change drafted = .ok change.base_fingerprint →
      ((∀ answer, Refused edited (exec
          (execute_change tm1 answer executed_by now acknowledge_impact) ⟨change, edited⟩))
        ↔ ¬ Executable acknowledge_impact change ∨
          compared tm1 change edited ≠ compared tm1 change drafted)) ∧
    (∀ answer row s left edited,
      exec (execute_change tm1 answer executed_by now acknowledge_impact) ⟨change, s⟩
        = (.ok (), ⟨row, left⟩) → row.status = .executed →
      ((∀ back, Refused edited (exec (rollback_change tm1 back later) ⟨row, edited⟩))
        ↔ SeenAfter tm1 change left edited ∨ WriteBackRefused tm1 change s edited)) := by
  refine ⟨fun drafted edited hbase =>
    execute_refuses_iff executed_by now acknowledge_impact hguarded hcontent hbase, ?_⟩
  intro answer row s left edited hrun hstatus
  have htype : change.change_type ≠ .run_process := by
    rcases hguarded with ht | ht | ht | ht <;> simp [ht]
  obtain ⟨hrow, previous, hprev, hleft⟩ := execute_change_left htype hrun hstatus
  exact rollback_refuses_iff later hguarded hrow hstatus hprev hleft

/-- A draft that gives the parameter of `Load` a new default. -/
def parameterDraft : TM1Change where
  id := 3
  connection_id := 1
  organization_id := 1
  created_by := 7
  created_at := 10
  change_type := .update_process
  target_name := "Load"
  new_content := some {
    parameters := some [⟨"pYear", some "String", some "Year", some (.text "2026")⟩] }
  base_fingerprint := some (.code (_code_of load))

/-- `outside_edit_refused_iff` at that draft. -/
theorem parameterDraft_refused_iff :
    (∀ drafted edited,
      compared currentTM1 parameterDraft drafted = .ok parameterDraft.base_fingerprint →
      ((∀ answer, Refused edited (exec
          (execute_change currentTM1 answer 8 20 false) ⟨parameterDraft, edited⟩))
        ↔ ¬ Executable false parameterDraft ∨
          compared currentTM1 parameterDraft edited ≠ compared currentTM1 parameterDraft drafted)) ∧
    (∀ answer row s left edited,
      exec (execute_change currentTM1 answer 8 20 false) ⟨parameterDraft, s⟩
        = (.ok (), ⟨row, left⟩) → row.status = .executed →
      ((∀ back, Refused edited (exec (rollback_change currentTM1 back 30) ⟨row, edited⟩))
        ↔ SeenAfter currentTM1 parameterDraft left edited ∨
          WriteBackRefused currentTM1 parameterDraft s edited)) :=
  outside_edit_refused_iff currentTM1 parameterDraft 8 20 30 false (.inr (.inl rfl))
    ⟨fun h => (nomatch h), fun _ => ⟨_, rfl⟩⟩

/-- Someone adds a parameter to `Load` in TM1. -/
def regionAdded : Server :=
  smallServer.putProcess { load with
    parameters := load.parameters ++ [⟨"pRegion", "Region", .text "EU", "String"⟩] }

/-- The names of the parameters of `Load`. -/
def loadParameters (s : Server) : Option (List String) :=
  (s.process "Load").map fun p => p.parameters.map Parameter.name

/-- **An edit that is not refused.** The parameter added in TM1 after the draft was
made is gone after the execution. -/
theorem regionAdded_overwritten :
    compared currentTM1 parameterDraft smallServer = .ok parameterDraft.base_fingerprint ∧
    loadParameters regionAdded = some ["pYear", "pRegion"] ∧
    loadParameters (exec (execute_change currentTM1 (fun _ => .ok) 8 20 false)
      ⟨parameterDraft, regionAdded⟩).2.remote = some ["pYear"] ∧
    ¬ ∀ answer, Refused regionAdded
      (exec (execute_change currentTM1 answer 8 20 false) ⟨parameterDraft, regionAdded⟩) := by
  refine ⟨rfl, rfl, rfl, ?_⟩
  intro h
  obtain ⟨⟨e, he⟩, -⟩ := h fun _ => .ok
  have hok : (exec (execute_change currentTM1 (fun _ => .ok) 8 20 false)
      ⟨parameterDraft, regionAdded⟩).1 = .ok () := rfl
  rw [hok] at he
  cases he

end PaCopilot.change_service
