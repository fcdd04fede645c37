/-
What `execute_change` leaves of the target, whatever TM1 answers.

An execution should be all or nothing: executed with the approved content on the
server, failed or raising with the previous content still there, and everything
else `unknown` with a snapshot on the row (`Atomic`). It is not in all cases:
`execute_change_atomic_iff` lists the cases in which a change stays on the server
under a row that does not say so (`Misreported`). Each of them is a guarded write
left stranded by its own calls, so the argument is the library's
(`Compensation.told_iff`), once for every change type.
-/
import PaCopilot.Change.Execute

set_option autoImplicit false

namespace PaCopilot.change_service

open Remote Python

/-! ## The outcomes -/

/-- The server holds the approved content, and what it says of it itself was
found to be right. -/
def Approved (tm1 : TM1) (change : TM1Change) (s s' : Server) : Prop :=
  let target := change.target_name
  match change.change_type with
  | .update_rules => ∃ rules errors, change.new_content.bind NewContent.rules = some rules ∧
      cube_service.update_cube_rules target rules s = .ok s' ∧
      cube_service.check_cube_rules tm1 target s' = .ok errors ∧ errors.getD [] = []
  | .create_process => ∃ content, change.new_content = some content ∧
      s' = s.putProcess (_build_process tm1 target content none) ∧
      process_service.compile_process_on_server tm1 target s' = .ok []
  | .update_process => ∃ content base, change.new_content = some content ∧
      s.process target = some base ∧
      s' = s.putProcess (_build_process tm1 target content (some base)) ∧
      process_service.compile_process_on_server tm1 target s' = .ok []
  | .delete_process => process_service.delete_process target s = .ok s'
  | .write_cells => ∃ writes after, _cell_writes change.new_content = .ok writes ∧
      cell_service.write_cells tm1 target writes s = .ok s' ∧
      _read_values tm1 target (writes.map Prod.fst) s' = .ok after ∧ wrongCells writes after = []
  | .create_view => ∃ view_name mdx saved, _view_content change.new_content = .ok (view_name, mdx) ∧
      view_service.create_mdx_view tm1 target view_name mdx s = .ok s' ∧
      structure_service.get_view target view_name s' = .ok saved ∧ viewDiffers mdx saved = false
  | .run_process => False

/-- A snapshot that has the target as the server holds it. -/
def Recorded (tm1 : TM1) (change : TM1Change) (s : Server) (previous : PreviousContent) : Prop :=
  let target := change.target_name
  match change.change_type with
  | .update_rules => ∃ rules, cube_service.get_cube_rules target s = .ok rules ∧
      previous.rules = some rules
  | .create_process => s.process target = none ∧ previous.existed = some false
  | .update_process | .delete_process => ∃ base, s.process target = some base ∧
      previous.process = some base
  | .write_cells => ∃ writes before, _cell_writes change.new_content = .ok writes ∧
      _read_values tm1 target (writes.map Prod.fst) s = .ok before ∧
      previous.cells = some (savedCells (writes.map Prod.fst) before)
  | .create_view => ∃ view_name mdx, _view_content change.new_content = .ok (view_name, mdx) ∧
      s.view target view_name = none ∧ previous.existed = some false
  | .run_process => False

/-- An execution that started on server `s` was all or nothing, and says which. -/
def Atomic (tm1 : TM1) (change : TM1Change) (s : Server)
    (run : Except AppException Unit × World TM1Change Server) : Prop :=
  match run.1 with
  | .error _ => run.2.remote = s
  | .ok () =>
    match run.2.mine.status with
    | .executed => Approved tm1 change s run.2.remote
    | .failed => run.2.remote = s
    | .unknown => ∃ previous, run.2.mine.previous_content = some previous ∧
        Recorded tm1 change s previous
    | _ => False

/-! ## The exceptions -/

/-- The calls after an accepted write leave it stranded: see
`Compensation.Stranded`. A deletion makes no call after its write. -/
def Stranded (tm1 : TM1) (answer : Answers) (change : TM1Change) (s : Server) : Prop :=
  let target := change.target_name
  match change.change_type with
  | .update_rules => ∃ rules previous, change.new_content.bind NewContent.rules = some rules ∧
      (answer .snapshot).reply (cube_service.get_cube_rules target) s = .ok previous ∧
      (rulesCompensation tm1 target rules previous).Stranded answer.calls s
  | .create_process => ∃ content, change.new_content = some content ∧
      (answer .existence).reply (process_service.process_exists target) s = .ok false ∧
      (processCompensation tm1 target (_build_process tm1 target content none)
        (process_service.delete_process target)).Stranded answer.calls s
  | .update_process => ∃ content base, change.new_content = some content ∧
      (answer .snapshot).reply (process_service.get_process_body target) s = .ok base ∧
      (processCompensation tm1 target (_build_process tm1 target content (some base))
        (process_service.update_or_create_process base)).Stranded answer.calls s
  | .write_cells => ∃ writes cube before, _cell_writes change.new_content = .ok writes ∧
      (answer .dimensions).reply (cube_service.get_cube target) s = .ok cube ∧
      (answer .snapshot).reply (_read_values tm1 target (writes.map Prod.fst)) s = .ok before ∧
      (cellsCompensation tm1 target writes (savedCells (writes.map Prod.fst) before)).Stranded
        answer.callsUnread s
  | .create_view => ∃ view_name mdx, _view_content change.new_content = .ok (view_name, mdx) ∧
      (answer .existence).reply (view_service.view_exists target view_name) s = .ok false ∧
      (viewCompensation tm1 target view_name mdx).Stranded answer.callsUnread s
  | .delete_process | .run_process => False

/-- A read before the write went unanswered, so nothing was sent. -/
def Unread (answer : Answers) (change : TM1Change) (s : Server) : Prop :=
  let target := change.target_name
  match change.change_type with
  | .update_rules | .update_process | .delete_process => ∃ b u, answer .snapshot = .unknown b u
  | .create_process => ∃ b u, answer .existence = .unknown b u
  | .write_cells => ∃ writes, _cell_writes change.new_content = .ok writes ∧
      ((∃ b u, answer .dimensions = .unknown b u) ∨
        ∃ cube b u, (answer .dimensions).reply (cube_service.get_cube target) s = .ok cube ∧
          answer .snapshot = .unknown b u)
  | .create_view => ∃ view, _view_content change.new_content = .ok view ∧
      ∃ b u, answer .existence = .unknown b u
  | .run_process => False

/-- The row carries a snapshot from an earlier attempt that does not have the
target as it is now. -/
def Outdated (tm1 : TM1) (change : TM1Change) (s : Server) : Prop :=
  ∃ previous, change.previous_content = some previous ∧ ¬ Recorded tm1 change s previous

/-- The executions that are not all or nothing: a stranded write, or an
unanswered read under an outdated snapshot, which the row then shows as a write
that was sent. -/
def Misreported (tm1 : TM1) (answer : Answers) (acknowledge_impact : Bool) (change : TM1Change)
    (s : Server) : Prop :=
  admitted tm1 answer acknowledge_impact change s = .ok () ∧
    (Stranded tm1 answer change s ∨ (Unread answer change s ∧ Outdated tm1 change s))

/-! ## One guarded write -/

section Conclude

variable {V A : Type} (c : Compensation Server DefiniteError V A)
  (calls : Calls DefiniteError String) (seen : V → TM1Change → TM1Change)
  (errors : V → List String) (message : String) (left : V → A → PreviousContent)

/-- The row after the verdict was noted. -/
def noted (w : World TM1Change Server) : TM1Change :=
  ((c.settle calls w.remote).verdict.map fun v => seen v w.mine).getD w.mine

/-- `conclude` as a function of how its guarded write ends. -/
theorem exec_conclude (w : World TM1Change Server) :
    exec (conclude c calls seen errors message left) w =
      match (c.settle calls w.remote).result with
      | .error e => (.error e, ⟨noted c calls seen w, (c.settle calls w.remote).remote⟩)
      | .ok (v, none) => (.ok (), ⟨{ noted c calls seen w with
          status := .failed, validation_errors := errors v, error_message := some message },
          (c.settle calls w.remote).remote⟩)
      | .ok (v, some x) => (.ok (), ⟨{ remember (left v x) (noted c calls seen w) with
          status := .executed }, (c.settle calls w.remote).remote⟩) := by
  rw [conclude, exec_bind, c.exec_run]
  rcases (c.settle calls w.remote).result with e | ⟨v, _ | x⟩ <;> rfl

/-- Noting the verdict keeps what the row remembers. -/
theorem noted_previous (hseen : ∀ v r, (seen v r).previous_content = r.previous_content)
    (w : World TM1Change Server) :
    (noted c calls seen w).previous_content = w.mine.previous_content := by
  unfold noted
  cases (c.settle calls w.remote).verdict with
  | none => rfl
  | some v => exact hseen v w.mine

/-- **A guarded write under a recorded snapshot is all or nothing exactly when it
is not stranded.** -/
theorem conclude_atomic_iff {tm1 : TM1} {change row : TM1Change} {s : Server}
    {previous : PreviousContent}
    (hseen : ∀ v r, (seen v r).previous_content = r.previous_content)
    (hprev : row.previous_content = some previous) (hrec : Recorded tm1 change s previous)
    (happ : ∀ s' v, c.effect s = .ok s' → c.verify s' = .ok v → c.wrong v = false →
      Approved tm1 change s s') :
    Atomic tm1 change s
        (exec (tryCatch (conclude c calls seen errors message left) onUnknown) ⟨row, s⟩)
      ↔ ¬ c.Stranded calls s := by
  rw [← c.told_iff calls s, Compensation.Told, exec_tryCatch, exec_conclude]
  have hnoted := (noted_previous c calls seen hseen ⟨row, s⟩).trans hprev
  rcases hres : (c.settle calls s).result with e | ⟨v, _ | x⟩
  · cases e with
    | definite r => rfl
    | unknown u =>
      refine iff_of_true ?_ trivial
      -- the handler finds the snapshot, so the row says that nobody knows
      simp only [onUnknown, exec_bind, exec_own, hnoted, exec_note]
      exact ⟨previous, hnoted, hrec⟩
  · obtain ⟨s₁, -, -, ⟨-, hwrong, -⟩ | ⟨y, hy, -⟩⟩ := c.settle_ok hres
    · simp only [hwrong, if_true]
      rfl
    · cases hy
  · obtain ⟨s₁, heff, hver, ⟨hx, -⟩ | ⟨y, -, hwrong, -, hrem⟩⟩ := c.settle_ok hres
    · cases hx
    · simp only [hwrong, Bool.false_eq_true, if_false]
      rw [hrem]
      exact iff_of_true (happ s₁ v heff hver hwrong) ⟨heff, hver⟩

end Conclude

/-! ## Before the write -/

/-- An execution that raises before it writes leaves the server as it was. It is
misreported only when the error is an unanswered read and the row still carries a
snapshot, which then has to be the right one. -/
theorem raised_atomic_iff {tm1 : TM1} {change row : TM1Change} {s : Server} {m : ChangeM Unit}
    {w : World TM1Change Server} {e : AppException}
    (hm : exec m w = (.error e, ⟨row, s⟩))
    (hrow : ∀ u, e = .unknown u → row.previous_content = change.previous_content) :
    Atomic tm1 change s (exec (tryCatch m onUnknown) w)
      ↔ ¬ ((∃ u, e = .unknown u) ∧ Outdated tm1 change s) := by
  rw [exec_tryCatch, hm]
  cases e with
  | definite r => simp [onUnknown, Atomic]
  | unknown u =>
    have hrow := hrow u rfl
    simp only [onUnknown, exec_bind, exec_own, hrow]
    cases hp : change.previous_content with
    | none => simp [Atomic, Outdated, hp]
    | some previous =>
      have hrp : row.previous_content = some previous := hrow.trans hp
      simp [Atomic, Outdated, hp, unconfirmed, hrp]

/-! ## Each change type -/

section Types

variable {tm1 : TM1} {answer : Answers} {change row : TM1Change} {s : Server}

/-- An execution of one type that ended before its write because of a read. -/
theorem unread_atomic_iff {m : ChangeM Unit} {e : AppException}
    (hrow : row.previous_content = change.previous_content)
    (hm : exec m ⟨row, s⟩ = (.error e, ⟨row, s⟩)) (hstranded : ¬ Stranded tm1 answer change s)
    (hunread : (∃ u, e = .unknown u) ↔ Unread answer change s) :
    Atomic tm1 change s (exec (tryCatch m onUnknown) ⟨row, s⟩)
      ↔ ¬ (Stranded tm1 answer change s ∨ (Unread answer change s ∧ Outdated tm1 change s)) := by
  rw [raised_atomic_iff hm fun _ _ => hrow, hunread]
  simp only [hstranded, false_or]

/-- An execution of one type that raised a definite error before its write. -/
theorem refused_atomic_iff {m : ChangeM Unit} {r : DefiniteError} {row' : TM1Change}
    (hm : exec m ⟨row, s⟩ = (.error (.definite r), ⟨row', s⟩))
    (hstranded : ¬ Stranded tm1 answer change s) (hunread : ¬ Unread answer change s) :
    Atomic tm1 change s (exec (tryCatch m onUnknown) ⟨row, s⟩)
      ↔ ¬ (Stranded tm1 answer change s ∨ (Unread answer change s ∧ Outdated tm1 change s)) := by
  rw [raised_atomic_iff hm fun u hu => by cases hu]
  simp [hstranded, hunread]

/-- An execution of one type that reached its guarded write. -/
theorem concluded_atomic_iff {V A : Type} {m : ChangeM Unit}
    {c : Compensation Server DefiniteError V A} {calls : Calls DefiniteError String}
    {seen : V → TM1Change → TM1Change} {errors : V → List String} {message : String}
    {left : V → A → PreviousContent} {row' : TM1Change} {previous : PreviousContent}
    (hm : exec m ⟨row, s⟩ = exec (conclude c calls seen errors message left) ⟨row', s⟩)
    (hseen : ∀ v r, (seen v r).previous_content = r.previous_content)
    (hprev : row'.previous_content = some previous) (hrec : Recorded tm1 change s previous)
    (happ : ∀ s' v, c.effect s = .ok s' → c.verify s' = .ok v → c.wrong v = false →
      Approved tm1 change s s')
    (hstranded : Stranded tm1 answer change s ↔ c.Stranded calls s)
    (hunread : ¬ Unread answer change s) :
    Atomic tm1 change s (exec (tryCatch m onUnknown) ⟨row, s⟩)
      ↔ ¬ (Stranded tm1 answer change s ∨ (Unread answer change s ∧ Outdated tm1 change s)) := by
  have h := conclude_atomic_iff c calls seen errors message left hseen hprev hrec happ
  rw [exec_tryCatch_congr onUnknown hm, h, hstranded]
  simp only [hunread, false_and, or_false]

theorem applyRules_atomic_iff (ht : change.change_type = .update_rules)
    (hrow : row.previous_content = change.previous_content) :
    Atomic tm1 change s (exec (tryCatch (applyRules tm1 answer change) onUnknown) ⟨row, s⟩)
      ↔ ¬ (Stranded tm1 answer change s ∨ (Unread answer change s ∧ Outdated tm1 change s)) := by
  cases hr : (answer .snapshot).reply (cube_service.get_cube_rules change.target_name) s with
  | error e =>
    have hm : exec (applyRules tm1 answer change) ⟨row, s⟩ = (.error e, ⟨row, s⟩) := by
      simp [exec_applyRules, hr]
    refine unread_atomic_iff hrow hm ?_ ?_
    · simp [Stranded, ht, hr]
    · rw [reply_lost_iff hr]
      simp [Unread, ht]
  | ok previous =>
    have hunread : ¬ Unread answer change s := by
      simpa [Unread, ht] using reply_answered hr
    cases hc : change.new_content.bind NewContent.rules with
    | none =>
      have hm : exec (applyRules tm1 answer change) ⟨row, s⟩
          = (.error (PythonError "KeyError"), ⟨remember { rules := some previous } row, s⟩) := by
        simp [exec_applyRules, hr, hc]
      exact refused_atomic_iff hm (by simp [Stranded, ht, hc]) hunread
    | some rules =>
      -- from here on the write is concluded or compensated
      have hrec : Recorded tm1 change s { rules := some previous } := by
        simp only [Recorded, ht]
        exact ⟨previous, reply_ok hr, rfl⟩
      have hstranded : Stranded tm1 answer change s
          ↔ (rulesCompensation tm1 change.target_name rules previous).Stranded answer.calls s := by
        simp [Stranded, ht, hc, hr]
      have hrun : exec (applyRules tm1 answer change) ⟨row, s⟩
          = exec (conclude (rulesCompensation tm1 change.target_name rules previous) answer.calls
              sayRuleCheck (fun errors => errors.getD [])
              "Rule check failed after apply; previous rules restored."
              fun _ now => { rules := some previous, applied := some (.text (_rules_text now)) })
            ⟨remember { rules := some previous } row, s⟩ := by
        simp only [exec_applyRules, hr, hc]
      refine concluded_atomic_iff hrun ?_ rfl hrec ?_ hstranded hunread
      · intro v r
        unfold sayRuleCheck
        split <;> rfl
      · intro s' v heff hver hwrong
        simp only [Approved, ht]
        exact ⟨rules, v, hc, heff, hver, by simpa [rulesCompensation] using hwrong⟩

theorem applyCreateProcess_atomic_iff (ht : change.change_type = .create_process)
    (hrow : row.previous_content = change.previous_content) :
    Atomic tm1 change s (exec (tryCatch (applyCreateProcess tm1 answer change) onUnknown) ⟨row, s⟩)
      ↔ ¬ (Stranded tm1 answer change s ∨ (Unread answer change s ∧ Outdated tm1 change s)) := by
  rcases hr : (answer .existence).reply (process_service.process_exists change.target_name) s
    with e | there
  -- the question whether the process is there is not answered
  · have hm : exec (applyCreateProcess tm1 answer change) ⟨row, s⟩ = (.error e, ⟨row, s⟩) := by
      simp [exec_applyCreateProcess, hr]
    refine unread_atomic_iff hrow hm ?_ ?_
    · simp [Stranded, ht, hr]
    · rw [reply_lost_iff hr]
      simp [Unread, ht]
  have hunread : ¬ Unread answer change s := by
    simpa [Unread, ht] using reply_answered hr
  by_cases hthere : there = true
  · have hm : exec (applyCreateProcess tm1 answer change) ⟨row, s⟩
        = (.error (createdSince change.target_name), ⟨row, s⟩) := by
      simp [exec_applyCreateProcess, hr, hthere]
    exact refused_atomic_iff hm (by simp [Stranded, ht, hr, hthere]) hunread
  rw [Bool.not_eq_true] at hthere
  subst hthere
  rcases hc : change.new_content with _ | content
  · have hm : exec (applyCreateProcess tm1 answer change) ⟨row, s⟩
        = (.error (PythonError "AttributeError"), ⟨remember { existed := some false } row, s⟩) := by
      simp [exec_applyCreateProcess, hr, hc]
    exact refused_atomic_iff hm (by simp [Stranded, ht, hc]) hunread
  -- from here on the write is concluded or compensated
  have hrec : Recorded tm1 change s { existed := some false } := by
    have hnone := reply_ok hr
    simp only [process_service.process_exists, Except.ok.injEq] at hnone
    simp only [Recorded, ht]
    exact ⟨by simpa using hnone, trivial⟩
  have hstranded : Stranded tm1 answer change s
      ↔ (processCompensation tm1 change.target_name
          (_build_process tm1 change.target_name content none)
          (process_service.delete_process change.target_name)).Stranded answer.calls s := by
    simp [Stranded, ht, hc, hr]
  have hrun : exec (applyCreateProcess tm1 answer change) ⟨row, s⟩
      = exec (conclude (processCompensation tm1 change.target_name
            (_build_process tm1 change.target_name content none)
            (process_service.delete_process change.target_name)) answer.calls (fun _ c => c) id
          "Compile failed after create; process removed."
          fun _ now => { existed := some false, applied := some (.code (_code_of now)) })
        ⟨remember { existed := some false } row, s⟩ := by
    simp [exec_applyCreateProcess, hr, hc]
  refine concluded_atomic_iff hrun (fun _ _ => rfl) rfl hrec ?_ hstranded hunread
  intro s' v heff hver hwrong
  have hv : v = [] := by simpa [processCompensation] using hwrong
  subst hv
  simp only [Approved, ht]
  exact ⟨content, hc, (Except.ok.inj heff).symm, hver⟩

theorem applyUpdateProcess_atomic_iff (ht : change.change_type = .update_process)
    (hrow : row.previous_content = change.previous_content) :
    Atomic tm1 change s (exec (tryCatch (applyUpdateProcess tm1 answer change) onUnknown) ⟨row, s⟩)
      ↔ ¬ (Stranded tm1 answer change s ∨ (Unread answer change s ∧ Outdated tm1 change s)) := by
  rcases hr : (answer .snapshot).reply (process_service.get_process_body change.target_name) s
    with e | base
  · have hm : exec (applyUpdateProcess tm1 answer change) ⟨row, s⟩ = (.error e, ⟨row, s⟩) := by
      simp [exec_applyUpdateProcess, hr]
    refine unread_atomic_iff hrow hm ?_ ?_
    · simp [Stranded, ht, hr]
    · rw [reply_lost_iff hr]
      simp [Unread, ht]
  have hunread : ¬ Unread answer change s := by
    simpa [Unread, ht] using reply_answered hr
  rcases hc : change.new_content with _ | content
  · have hm : exec (applyUpdateProcess tm1 answer change) ⟨row, s⟩
        = (.error (PythonError "AttributeError"), ⟨remember { process := some base } row, s⟩) := by
      simp [exec_applyUpdateProcess, hr, hc]
    exact refused_atomic_iff hm (by simp [Stranded, ht, hc]) hunread
  have hbase : s.process change.target_name = some base :=
    process_service.get_process_body_ok (reply_ok hr)
  have hrec : Recorded tm1 change s { process := some base } := by
    simp only [Recorded, ht]
    exact ⟨base, hbase, rfl⟩
  have hstranded : Stranded tm1 answer change s
      ↔ (processCompensation tm1 change.target_name
          (_build_process tm1 change.target_name content (some base))
          (process_service.update_or_create_process base)).Stranded answer.calls s := by
    simp [Stranded, ht, hc, hr]
  have hrun : exec (applyUpdateProcess tm1 answer change) ⟨row, s⟩
      = exec (conclude (processCompensation tm1 change.target_name
            (_build_process tm1 change.target_name content (some base))
            (process_service.update_or_create_process base)) answer.calls (fun _ c => c) id
          "Compile failed after update; previous version restored."
          fun _ now => { process := some base, applied := some (.code (_code_of now)) })
        ⟨remember { process := some base } row, s⟩ := by
    simp [exec_applyUpdateProcess, hr, hc]
  refine concluded_atomic_iff hrun (fun _ _ => rfl) rfl hrec ?_ hstranded hunread
  intro s' v heff hver hwrong
  have hv : v = [] := by simpa [processCompensation] using hwrong
  subst hv
  simp only [Approved, ht]
  exact ⟨content, base, hc, hbase, (Except.ok.inj heff).symm, hver⟩

/-- A deletion writes last, so nothing can leave it stranded. -/
theorem applyDeleteProcess_atomic_iff (ht : change.change_type = .delete_process)
    (hrow : row.previous_content = change.previous_content) :
    Atomic tm1 change s (exec (tryCatch (applyDeleteProcess answer change) onUnknown) ⟨row, s⟩)
      ↔ ¬ (Stranded tm1 answer change s ∨ (Unread answer change s ∧ Outdated tm1 change s)) := by
  have hstranded : ¬ Stranded tm1 answer change s := by simp [Stranded, ht]
  rcases hr : (answer .snapshot).reply (process_service.get_process_body change.target_name) s
    with e | base
  · have hm : exec (applyDeleteProcess answer change) ⟨row, s⟩ = (.error e, ⟨row, s⟩) := by
      simp [exec_applyDeleteProcess, hr]
    refine unread_atomic_iff hrow hm hstranded ?_
    rw [reply_lost_iff hr]
    simp [Unread, ht]
  have hunread : ¬ Unread answer change s := by
    simpa [Unread, ht] using reply_answered hr
  have hrec : Recorded tm1 change s { process := some base } := by
    simp only [Recorded, ht]
    exact ⟨base, process_service.get_process_body_ok (reply_ok hr), rfl⟩
  refine iff_of_true ?_ (by simp [hstranded, hunread])
  rw [exec_tryCatch]
  simp only [exec_applyDeleteProcess, hr]
  rcases hw : (answer .write).result (process_service.delete_process change.target_name) s
    with ⟨e | _, s'⟩
  · rcases e with r | u
    · simpa [onUnknown, Atomic] using result_definite hw
    · simp only [onUnknown, exec_bind, exec_own, remember, exec_note]
      exact ⟨_, rfl, hrec⟩
  · simp only [Atomic, Approved, ht]
    exact (result_ok hw).2

theorem applyCells_atomic_iff (ht : change.change_type = .write_cells)
    (hrow : row.previous_content = change.previous_content) :
    Atomic tm1 change s (exec (tryCatch (applyCells tm1 answer change) onUnknown) ⟨row, s⟩)
      ↔ ¬ (Stranded tm1 answer change s ∨ (Unread answer change s ∧ Outdated tm1 change s)) := by
  rcases hwr : _cell_writes change.new_content with r | writes
  -- refused before anything is asked
  · have hm : exec (applyCells tm1 answer change) ⟨row, s⟩ = (.error (.definite r), ⟨row, s⟩) := by
      simp [exec_applyCells, hwr]
    exact refused_atomic_iff hm (by simp [Stranded, ht, hwr]) (by simp [Unread, ht, hwr])
  rcases hd : (answer .dimensions).reply (cube_service.get_cube change.target_name) s with e | cube
  -- neither question, for the dimensions or for the values, changes anything
  · have hm : exec (applyCells tm1 answer change) ⟨row, s⟩ = (.error e, ⟨row, s⟩) := by
      simp [exec_applyCells, hwr, hd]
    refine unread_atomic_iff hrow hm ?_ ?_
    · simp [Stranded, ht, hd]
    · rw [reply_lost_iff hd]
      simp [Unread, ht, hwr, hd]
  have hdims := reply_answered hd
  rcases hr : (answer .snapshot).reply
      (_read_values tm1 change.target_name (writes.map Prod.fst)) s with e | before
  · have hm : exec (applyCells tm1 answer change) ⟨row, s⟩ = (.error e, ⟨row, s⟩) := by
      simp [exec_applyCells, hwr, hd, hr]
    refine unread_atomic_iff hrow hm ?_ ?_
    · simp [Stranded, ht, hwr, hr]
    · rw [reply_lost_iff hr]
      simp [Unread, ht, hwr, hd, hdims]
  have hunread : ¬ Unread answer change s := by
    have hsnap := reply_answered hr
    simp only [Unread, ht, hwr]
    rintro ⟨writes', -, hlost | ⟨cube', b, u, -, hlost⟩⟩
    · exact hdims hlost
    · exact hsnap ⟨b, u, hlost⟩
  -- from here on the write is concluded or compensated
  have hrec : Recorded tm1 change s
      { cells := some (savedCells (writes.map Prod.fst) before) } := by
    simp only [Recorded, ht]
    exact ⟨writes, before, hwr, reply_ok hr, rfl⟩
  have hstranded : Stranded tm1 answer change s
      ↔ (cellsCompensation tm1 change.target_name writes
          (savedCells (writes.map Prod.fst) before)).Stranded answer.callsUnread s := by
    simp [Stranded, ht, hwr, hd, hr]
  have hrun : exec (applyCells tm1 answer change) ⟨row, s⟩
      = exec (conclude (cellsCompensation tm1 change.target_name writes
            (savedCells (writes.map Prod.fst) before)) answer.callsUnread (fun _ c => c)
          (wrongCells writes)
          ("The server did not hold the written values; the previous values were "
            ++ "written back.")
          fun after _ => {
            cells := some (savedCells (writes.map Prod.fst) before)
            applied := some (.values (after.map _normal)) })
        ⟨remember { cells := some (savedCells (writes.map Prod.fst) before) } row, s⟩ := by
    simp only [exec_applyCells, hwr, hd, hr]
  refine concluded_atomic_iff hrun (fun _ _ => rfl) rfl hrec ?_ hstranded hunread
  intro s' v heff hver hwrong
  simp only [Approved, ht]
  exact ⟨writes, v, hwr, heff, hver, by simpa [cellsCompensation] using hwrong⟩

theorem applyView_atomic_iff (ht : change.change_type = .create_view)
    (hrow : row.previous_content = change.previous_content) :
    Atomic tm1 change s (exec (tryCatch (applyView tm1 answer change) onUnknown) ⟨row, s⟩)
      ↔ ¬ (Stranded tm1 answer change s ∨ (Unread answer change s ∧ Outdated tm1 change s)) := by
  rcases hv : _view_content change.new_content with r | ⟨view_name, mdx⟩
  -- refused before anything is asked
  · have hm : exec (applyView tm1 answer change) ⟨row, s⟩ = (.error (.definite r), ⟨row, s⟩) := by
      simp [exec_applyView, hv]
    exact refused_atomic_iff hm (by simp [Stranded, ht, hv]) (by simp [Unread, ht, hv])
  rcases hr : (answer .existence).reply
      (view_service.view_exists change.target_name view_name) s with e | there
  -- the question whether the view is there is not answered
  · have hm : exec (applyView tm1 answer change) ⟨row, s⟩ = (.error e, ⟨row, s⟩) := by
      simp [exec_applyView, hv, hr]
    refine unread_atomic_iff hrow hm ?_ ?_
    · simp [Stranded, ht, hv, hr]
    · rw [reply_lost_iff hr]
      simp [Unread, ht, hv]
  have hunread : ¬ Unread answer change s := by
    simpa [Unread, ht, hv] using reply_answered hr
  by_cases hthere : there = true
  · have hm : exec (applyView tm1 answer change) ⟨row, s⟩
        = (.error (viewCreatedSince change.target_name view_name), ⟨row, s⟩) := by
      simp [exec_applyView, hv, hr, hthere]
    exact refused_atomic_iff hm (by simp [Stranded, ht, hv, hr, hthere]) hunread
  rw [Bool.not_eq_true] at hthere
  subst hthere
  -- from here on the write is concluded or compensated
  have hrec : Recorded tm1 change s { existed := some false } := by
    have hnone := reply_ok hr
    simp only [view_service.view_exists, Except.ok.injEq] at hnone
    simp only [Recorded, ht]
    exact ⟨view_name, mdx, hv, by simpa using hnone, trivial⟩
  have hstranded : Stranded tm1 answer change s
      ↔ (viewCompensation tm1 change.target_name view_name mdx).Stranded answer.callsUnread s := by
    simp only [Stranded, ht, hv, Except.ok.injEq, Prod.mk.injEq]
    constructor
    · rintro ⟨view_name', mdx', ⟨rfl, rfl⟩, -, h⟩
      exact h
    · intro h
      exact ⟨view_name, mdx, ⟨rfl, rfl⟩, hr, h⟩
  have hrun : exec (applyView tm1 answer change) ⟨row, s⟩
      = exec (conclude (viewCompensation tm1 change.target_name view_name mdx) answer.callsUnread
          (fun _ c => c)
          (fun _ => ["The view TM1 saved does not hold the MDX that was approved."])
          "The view read back did not match the approved MDX; the view was deleted."
          fun saved _ => {
            existed := some false
            applied := some (.text (_mdx_text saved.mdx)) })
        ⟨{ remember { existed := some false } row with
            execution_result := some (.view view_name change.target_name) }, s⟩ := by
    simp [exec_applyView, hv, hr]
  refine concluded_atomic_iff hrun (fun _ _ => rfl) rfl hrec ?_ hstranded hunread
  intro s' saved heff hver hwrong
  simp only [Approved, ht]
  exact ⟨view_name, mdx, saved, hv, heff, hver, hwrong⟩

end Types

/-! ## Every execution -/

/-- **An execution is all or nothing, and says which, exactly when it is not one of
the misreported ones.** -/
theorem execute_change_atomic_iff (tm1 : TM1) (answer : Answers) (executed_by now : ℕ)
    (acknowledge_impact : Bool) (change : TM1Change) (s : Server)
    (h : change.change_type ≠ .run_process) :
    Atomic tm1 change s
        (exec (execute_change tm1 answer executed_by now acknowledge_impact) ⟨change, s⟩)
      ↔ ¬ Misreported tm1 answer acknowledge_impact change s := by
  unfold Misreported
  rw [exec_execute_change]
  rcases hadm : admitted tm1 answer acknowledge_impact change s with e | ⟨⟩
  · simp [Atomic]
  have hrow : (stamp executed_by now change).previous_content = change.previous_content := rfl
  simp only [true_and]
  unfold _apply
  split
  · exact applyRules_atomic_iff ‹_› hrow
  · exact applyCreateProcess_atomic_iff ‹_› hrow
  · exact applyUpdateProcess_atomic_iff ‹_› hrow
  · exact absurd ‹_› h
  · exact applyCells_atomic_iff ‹_› hrow
  · exact applyView_atomic_iff ‹_› hrow
  · exact applyDeleteProcess_atomic_iff ‹_› hrow

/-- `execute_change_atomic_iff` at a draft of new rules. -/
theorem rulesDraft_atomic_iff :
    Atomic currentTM1 rulesDraft smallServer
        (exec (execute_change currentTM1 (fun _ => .ok) 8 20 false) ⟨rulesDraft, smallServer⟩)
      ↔ ¬ Misreported currentTM1 (fun _ => .ok) false rulesDraft smallServer :=
  execute_change_atomic_iff currentTM1 (fun _ => .ok) 8 20 false rulesDraft smallServer (by decide)

/-- The session expires just before the rules are read back. -/
def expiredBeforeReread : Answers
  | .reread => .refused ⟨.TM1AuthenticationError, "TM1 returned HTTP 401 (Unauthorized)."⟩
  | _ => .ok

/-- **An execution that is not all or nothing.** The rules are written and checked,
the read of what was left is refused, and the execution raises with the new rules
on the server. -/
theorem rulesDraft_raises_applied :
    ¬ Atomic currentTM1 rulesDraft smallServer
      (exec (execute_change currentTM1 expiredBeforeReread 8 20 false)
        ⟨rulesDraft, smallServer⟩) := by
  intro h
  have hsame : (exec (execute_change currentTM1 expiredBeforeReread 8 20 false)
      ⟨rulesDraft, smallServer⟩).2.remote = smallServer := h
  have hrules := congrArg (fun s => (s.cube "Sales").map Cube.rules) hsame
  revert hrules
  decide

end PaCopilot.change_service
