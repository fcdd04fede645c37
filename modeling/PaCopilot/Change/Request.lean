/-
The two requests that execute a change: the HTTP route, under `get_db`
(`database/session.py`), and the assistant's `apply_change` tool, under
`_execute_tool_call` (`ai/orchestrator.py`).

What a request leaves in the database is decided by the session it runs in.
`get_db` commits when the request returns and rolls back when it raises. The
orchestrator turns whatever a tool raises into a tool result and goes on, so a
turn of the assistant returns, and its session is committed with what the row
holds by then. The checks of the two callers before `execute_change` only read,
and are left out here.
-/
import PaCopilot.Change.Execute
import PaCopilot.Lib.Triple

set_option autoImplicit false

namespace PaCopilot.change_service

open Remote

/-! ## `lifecycle` -/

inductive StepKey
  | requested
  | analyzed
  | validated
  | diff
  | approval
  | snapshot
  | deployed
  | verified
  | rolled_back
  deriving DecidableEq

inductive StepState
  | done
  | current
  | failed
  | skipped
  | pending
  | unknown
  deriving DecidableEq

structure Step where
  key : StepKey
  label : String
  state : StepState
  «at» : Option ℕ := none
  detail : Option String := none
  deriving DecidableEq

/-- The steps every change has behind it once it is drafted. -/
def draftedSteps (change : TM1Change) : List Step :=
  let is_run := change.change_type = .run_process
  let valid := change.validation_errors = []
  let drafted := some change.created_at
  [ ⟨.requested, "Requested", .done, drafted,
      if (change.new_content.map NewContent.ai_generated).getD false then
        some "drafted by the AI assistant" else none⟩,
    ⟨.analyzed, if is_run then "Run plan prepared" else "Impact analysed", .done, drafted, none⟩,
    ⟨.validated, "Validated", if valid then .done else .failed, drafted,
      if valid then none
      else some s!"{change.validation_errors.length} problem(s): cannot be approved"⟩,
    ⟨.diff, if is_run then "Values shown" else "Diff ready", .done, drafted, none⟩ ]

/-- The steps from the decision on, of a change that was executed. -/
def decidedSteps (change : TM1Change) : List Step :=
  let is_run := change.change_type = .run_process
  let outcome_failed := change.status = .failed
  let applied := if is_run then "Run" else "Applied"
  let approved : Step := ⟨.approval, "Approved", .done, change.executed_at, none⟩
  if change.status = .unknown then
    -- sent, never confirmed: neither done nor failed
    [approved,
      ⟨.deployed, applied, .unknown, change.executed_at, change.error_message⟩,
      ⟨.verified, "Verified", .pending, none, some "check the object on the server"⟩]
  else
    [approved]
    ++ (if is_run then [] else [⟨.snapshot, "Snapshot",
        if change.previous_content.getD {} = {} then .skipped else .done, change.executed_at, none⟩])
    ++ [⟨.deployed, applied, if outcome_failed then .failed else .done, change.executed_at,
          if outcome_failed then change.error_message else none⟩,
        ⟨.verified, "Verified", if outcome_failed then .failed else .done, change.executed_at,
          some (if is_run then "TM1 reported the outcome"
            else "checked by TM1 after applying; restored automatically on failure")⟩]
    ++ (match change.rolled_back_at with
        | none => []
        | some t => [⟨.rolled_back, "Rolled back", .done, some t, none⟩])

/-- `lifecycle`: where the change is in its life, from the record. -/
def lifecycle (change : TM1Change) : List Step :=
  let is_run := change.change_type = .run_process
  let valid := change.validation_errors = []
  if change.status = .rejected ∨ change.status = .superseded then
    draftedSteps change ++ [⟨.approval, "Approval", .skipped, none,
      some (if change.status = .rejected then "rejected" else "replaced by a newer draft")⟩]
  else if change.executed_at = none then
    draftedSteps change
    ++ [⟨.approval, "Approval", if valid then .current else .pending, none,
          if valid then some "waiting for someone with deploy rights" else none⟩,
        ⟨.snapshot, "Snapshot", .pending, none, none⟩,
        ⟨.deployed, if is_run then "Run" else "Applied", .pending, none, none⟩,
        ⟨.verified, "Verified", .pending, none, none⟩]
  else draftedSteps change ++ decidedSteps change

/-- The record shows the change as applied, or as verified. -/
def ShownApplied (change : TM1Change) : Prop :=
  ∃ step ∈ lifecycle change, (step.key = .deployed ∨ step.key = .verified) ∧ step.state = .done

instance (change : TM1Change) : Decidable (ShownApplied change) :=
  inferInstanceAs (Decidable (∃ step ∈ lifecycle change, _))

/-- A change that was not decided is not shown as applied. -/
theorem not_shownApplied_of_undecided {change : TM1Change} (h : change.executed_at = none) :
    ¬ ShownApplied change := by
  rintro ⟨step, hstep, hkey, hdone⟩
  unfold lifecycle at hstep
  by_cases hover : change.status = .rejected ∨ change.status = .superseded
  · rw [if_pos hover] at hstep
    simp only [draftedSteps, List.mem_append, List.mem_cons, List.not_mem_nil, or_false] at hstep
    rcases hstep with (rfl | rfl | rfl | rfl) | rfl <;> simp at hkey
  · rw [if_neg hover, if_pos h] at hstep
    simp only [draftedSteps, List.mem_append, List.mem_cons, List.not_mem_nil, or_false] at hstep
    rcases hstep with (rfl | rfl | rfl | rfl) | rfl | rfl | rfl | rfl <;> simp_all

/-- A draft with an execution time is shown as applied. -/
theorem shownApplied_of_stamped {change : TM1Change} (hstatus : change.status = .draft)
    (h : change.executed_at ≠ none) : ShownApplied change := by
  have hlife : lifecycle change = draftedSteps change ++ decidedSteps change := by
    unfold lifecycle
    rw [if_neg (by simp [hstatus]), if_neg h]
  refine ⟨⟨.deployed, if change.change_type = .run_process then "Run" else "Applied", .done,
    change.executed_at, none⟩, ?_, .inl rfl, rfl⟩
  rw [hlife]
  simp [decidedSteps, hstatus]

/-! ## The two requests -/

/-- `get_db`: the session is committed when the request returns, and rolled back
when it raises. TM1 knows nothing of either. -/
def get_db {α : Type} (request : ChangeM α) (w : World TM1Change Server) :
    Except AppException α × World TM1Change Server :=
  match exec request w with
  | (.ok x, w') => (.ok x, w')
  | (.error e, w') => (.error e, { w' with mine := w.mine })

/-- What `apply_change` reports of the row it executed. -/
structure ApplyReport where
  applied : Bool
  change_id : ℕ
  status : ChangeStatus
  change_type : ChangeType
  target : String
  error_message : Option String
  note : String
  deriving DecidableEq

/-- `ToolResult`: a report, or the text of an error. -/
inductive ToolResult
  | report (r : ApplyReport)
  | error (content : String)
  deriving DecidableEq

/-- `ApplyChangeTool.execute` from its call of `execute_change` on. -/
def ApplyChangeTool (tm1 : TM1) (answer : Answers) (user_id now : ℕ) (acknowledge_impact : Bool) :
    ChangeM ApplyReport := do
  execute_change tm1 answer user_id now acknowledge_impact
  let change ← own
  return {
    applied := change.status = .executed
    change_id := change.id
    status := change.status
    change_type := change.change_type
    target := change.target_name
    error_message := change.error_message
    note := if change.status = .executed then
        "Executed on DEV at the user's request; the previous state was saved first and "
          ++ "Deployments can roll it back."
      else "Not applied; nothing was changed on the server." }

/-- What the model is told of an exception: the message of the application's own
exceptions, a fixed text for any other. -/
def toolError (tool : String) (e : AppException) : String :=
  match e with
  | .definite ⟨.PythonError, _⟩ =>
    s!"The '{tool}' tool failed because an argument "
      ++ "was not valid. Check that connection_id is one of the "
      ++ "connection ids listed in the system context (a UUID, "
      ++ "not a connection name), and that every required " ++ "argument is present."
  | e => AppException.message e

/-- `_execute_tool_call`, of a tool the agent may use. -/
def _execute_tool_call (tool : String) (execute : ChangeM ApplyReport) : ChangeM ToolResult :=
  tryCatch (do return .report (← execute)) fun e => return .error (toolError tool e)

/-- Who executes the change. -/
inductive Caller
  | route
  | assistant
  deriving DecidableEq

/-- The stored row after the request. -/
def storedAfter (caller : Caller) (tm1 : TM1) (answer : Answers) (user_id now : ℕ)
    (acknowledge_impact : Bool) (w : World TM1Change Server) : TM1Change :=
  match caller with
  | .route => (get_db (execute_change tm1 answer user_id now acknowledge_impact) w).2.mine
  | .assistant =>
    (get_db (_execute_tool_call "apply_change"
      (ApplyChangeTool tm1 answer user_id now acknowledge_impact)) w).2.mine

/-! ## The row while it is executed -/

/-- The row says who executed it and when, and is still a draft. -/
structure Stamped (now : ℕ) (row : TM1Change) : Prop where
  executed_at : row.executed_at = some now
  status : row.status = .draft

/-- The row says when it was executed, and how that ended. -/
structure Decided (now : ℕ) (row : TM1Change) : Prop where
  executed_at : row.executed_at = some now
  status : row.status = .executed ∨ row.status = .failed ∨ row.status = .unknown

/-- A stretch of an execution: when it returns the row is decided, and it raises
only while the row is still a draft. -/
def Stretch (now : ℕ) (m : ChangeM Unit) : Prop :=
  Triple (Stamped now) m (fun _ => Decided now) fun _ => Stamped now

section Stretches

variable {tm1 : TM1} {answer : Answers} {change : TM1Change} {now : ℕ}

/-- Noting a decision. -/
theorem decide_note {f : TM1Change → TM1Change} {E : AppException → TM1Change → Prop}
    (h : ∀ row, (f row).executed_at = row.executed_at)
    (hstatus : ∀ row, (f row).status = .executed ∨ (f row).status = .failed
      ∨ (f row).status = .unknown) :
    Triple (Stamped now) (note f : ChangeM Unit) (fun _ => Decided now) E :=
  Triple.note fun row hrow => ⟨(h row).trans hrow.executed_at, hstatus row⟩

theorem stretch_throw (e : AppException) : Stretch now (throw e) :=
  Triple.throw fun _ => id

/-- A step that keeps the row stamped, and what follows it. -/
theorem Stretch.after {α : Type} {m : ChangeM α} {f : α → ChangeM Unit}
    (hm : Keeps (Stamped now) m) (hf : ∀ x, Stretch now (f x)) : Stretch now (m >>= f) :=
  Triple.bind hm hf

theorem keeps_remember (previous : PreviousContent) :
    Keeps (Stamped now) (note (remember previous) : ChangeM Unit) :=
  Keeps.note fun _ h => ⟨h.executed_at, h.status⟩

theorem stretch_conclude {V A : Type} {c : Compensation Server DefiniteError V A}
    {calls : Calls DefiniteError String} {seen : V → TM1Change → TM1Change}
    {errors : V → List String} {message : String} {left : V → A → PreviousContent}
    (hseen : ∀ v row, Stamped now row → Stamped now (seen v row)) :
    Stretch now (conclude c calls seen errors message left) := by
  refine Stretch.after (c.run_keeps calls hseen) ?_
  rintro ⟨v, _ | x⟩
  · exact decide_note (fun _ => rfl) fun _ => .inr (.inl rfl)
  · exact decide_note (fun _ => rfl) fun _ => .inl rfl

theorem stamped_sayRuleCheck (errors : Option (List String)) (row : TM1Change)
    (h : Stamped now row) : Stamped now (sayRuleCheck errors row) := by
  unfold sayRuleCheck
  by_cases herrors : errors = none
  · rw [if_pos herrors]
    exact ⟨h.executed_at, h.status⟩
  · rw [if_neg herrors]
    exact h

theorem applyRules_stretch : Stretch now (applyRules tm1 answer change) := by
  refine Stretch.after (Keeps.ask _ _) fun previous => ?_
  refine Stretch.after (keeps_remember _) fun _ => ?_
  rcases change.new_content.bind NewContent.rules with _ | rules
  · exact stretch_throw _
  · exact stretch_conclude stamped_sayRuleCheck

theorem applyCreateProcess_stretch : Stretch now (applyCreateProcess tm1 answer change) := by
  refine Stretch.after (Keeps.ask _ _) fun there => ?_
  by_cases hthere : there = true
  · rw [if_pos hthere]
    exact stretch_throw _
  rw [if_neg hthere]
  refine Stretch.after (keeps_remember _) fun _ => ?_
  rcases change.new_content with _ | content
  · exact stretch_throw _
  · exact stretch_conclude fun _ _ h => h

theorem applyUpdateProcess_stretch : Stretch now (applyUpdateProcess tm1 answer change) := by
  refine Stretch.after (Keeps.ask _ _) fun base => ?_
  refine Stretch.after (keeps_remember _) fun _ => ?_
  rcases change.new_content with _ | content
  · exact stretch_throw _
  · exact stretch_conclude fun _ _ h => h

theorem applyDeleteProcess_stretch : Stretch now (applyDeleteProcess answer change) := by
  refine Stretch.after (Keeps.ask _ _) fun base => ?_
  refine Stretch.after (keeps_remember _) fun _ => ?_
  exact Stretch.after (Keeps.send _ _) fun _ => decide_note (fun _ => rfl) fun _ => .inl rfl

theorem applyCells_stretch : Stretch now (applyCells tm1 answer change) := by
  refine Stretch.after (Keeps.look _) fun writes => ?_
  refine Stretch.after (Keeps.ask _ _) fun _cube => ?_
  refine Stretch.after (Keeps.ask _ _) fun before => ?_
  exact Stretch.after (keeps_remember _) fun _ => stretch_conclude fun _ _ h => h

theorem applyView_stretch : Stretch now (applyView tm1 answer change) := by
  refine Stretch.after (Keeps.look _) fun content => ?_
  obtain ⟨view_name, mdx⟩ := content
  refine Stretch.after (Keeps.ask _ _) fun there => ?_
  by_cases hthere : there = true
  · rw [if_pos hthere]
    exact stretch_throw _
  rw [if_neg hthere]
  refine Stretch.after (Keeps.note fun _ h => ⟨h.executed_at, h.status⟩) fun _ => ?_
  exact stretch_conclude fun _ _ h => h

/-- A program that returns with a decision and never raises. -/
def Decides (now : ℕ) (m : ChangeM Unit) : Prop :=
  Triple (Stamped now) m (fun _ => Decided now) fun _ _ => False

/-- Noting what TM1 said of a run, and then whether it went well. -/
theorem decides_outcome {f g g' : TM1Change → TM1Change} {success : Bool}
    (hf : ∀ row, Stamped now row → Stamped now (f row)) (hg : Decides now (note g))
    (hg' : Decides now (note g')) :
    Decides now (do note f; if success = true then note g else note g') := by
  refine Triple.bind (Q := fun _ => Stamped now) (Triple.note hf) fun _ => ?_
  by_cases hsuccess : success = true
  · rw [if_pos hsuccess]
    exact hg
  · rw [if_neg hsuccess]
    exact hg'

/-- A run writes whatever goes wrong on the row, so it does not raise. -/
theorem _run_decides : Decides now (_run tm1 answer change) := by
  -- the row is decided by the handler, and not before the end without it
  refine Triple.bind (Q := fun result row => match result with
    | none => Decided now row
    | some _ => Stamped now row) (Triple.tryCatch (E := fun _ => Stamped now) ?_ fun e => ?_)
    fun result => ?_
  · have hcall : Keeps (Stamped now) (perform (answer .write) (executeProcess tm1 change.target_name
        ((change.new_content.map NewContent.given).getD [])) : ChangeM RunResult) :=
      Keeps.perform _ _
    dsimp only
    split
    · exact Triple.bind (Keeps.throw _) fun _ => Triple.bind hcall fun _ => Triple.pure fun _ => id
    · exact Triple.bind hcall fun _ => Triple.pure fun _ => id
  · rcases e with error | message
    · exact Triple.bind (decide_note (fun _ => rfl) fun _ => .inr (.inl rfl)) fun _ =>
        Triple.pure fun _ => id
    · exact Triple.bind (decide_note (fun _ => rfl) fun _ => .inr (.inr rfl)) fun _ =>
        Triple.pure fun _ => id
  · rcases result with _ | result
    · exact Triple.pure fun _ => id
    have houtcome : ∀ r : RunResult, Decides now (do
        note fun change => { change with execution_result := some (.run r) }
        if r.success then note fun change => { change with status := .executed }
        else note fun change => { change with
          status := .failed
          error_message := some (s!"TM1 reported {r.status}."
            ++ (match r.error_detail with | some d => s!" {d}" | none => "")
            ++ (match r.error_log_file with | some f => s!" Error log: {f}." | none => "")) }) :=
      fun r => decides_outcome (fun _ h => ⟨h.executed_at, h.status⟩)
        (decide_note (fun _ => rfl) fun _ => .inl rfl)
        (decide_note (fun _ => rfl) fun _ => .inr (.inl rfl))
    have hpure : ∀ r : RunResult, Triple (Stamped now) (pure r : ChangeM RunResult)
        (fun _ => Stamped now) fun _ _ => False := fun r => Triple.pure fun _ => id
    dsimp only
    split
    · -- the error log is read for its excerpt only, whatever comes of it
      have hlog (file : String) : Triple (Stamped now) (tryCatch
          (do
            let log ← ask (answer .errorLog) (fun s => .ok (tm1.errorLog s file))
            return some (String.ofList (log.toList.take RUN_LOG_EXCERPT_CHARS)))
          fun _ => return none : ChangeM (Option String)) (fun _ => Stamped now) fun _ _ => False :=
        Triple.tryCatch (E := fun _ => Stamped now)
          (Keeps.bind (Keeps.ask _ _) fun _ => Keeps.pure _) fun _ => Triple.pure fun _ => id
      exact Triple.bind (hlog _) fun excerpt => Triple.bind (hpure _) houtcome
    · exact Triple.bind (hpure _) houtcome

theorem _run_stretch : Stretch now (_run tm1 answer change) :=
  _run_decides.weaken (fun _ => id) (fun _ _ => id) fun _ _ => False.elim

theorem _apply_stretch : Stretch now (_apply tm1 answer change) := by
  unfold _apply
  split
  · exact applyRules_stretch
  · exact applyCreateProcess_stretch
  · exact applyUpdateProcess_stretch
  · exact _run_stretch
  · exact applyCells_stretch
  · exact applyView_stretch
  · exact applyDeleteProcess_stretch

theorem onUnknown_stretch (e : AppException) : Stretch now (onUnknown e) := by
  rcases e with error | message
  · exact stretch_throw _
  · refine Triple.bind Triple.own fun row => ?_
    refine Triple.weaken (P := Stamped now) ?_ (fun _ h => h.2) (fun _ _ => id) fun _ _ => id
    rcases row.previous_content with _ | previous
    · exact stretch_throw _
    · exact decide_note (fun _ => rfl) fun _ => .inr (.inr rfl)

end Stretches

theorem apply_stretch {tm1 : TM1} {answer : Answers} {change : TM1Change} {now : ℕ} :
    Stretch now (tryCatch (_apply tm1 answer change) onUnknown) :=
  Triple.tryCatch _apply_stretch onUnknown_stretch

/-- An execution that raised was refused by the guards, or left the row stamped. -/
theorem execute_change_raised {tm1 : TM1} {answer : Answers} {executed_by now : ℕ}
    {acknowledge_impact : Bool} {change row : TM1Change} {s s' : Server} {e : AppException}
    (hrun : exec (execute_change tm1 answer executed_by now acknowledge_impact) ⟨change, s⟩
      = (.error e, ⟨row, s'⟩)) :
    (admitted tm1 answer acknowledge_impact change s = .error e ∧ row = change) ∨
      (admitted tm1 answer acknowledge_impact change s = .ok () ∧ Stamped now row) := by
  rw [exec_execute_change] at hrun
  rcases hadm : admitted tm1 answer acknowledge_impact change s with e' | ⟨⟩
  · simp only [hadm, Prod.mk.injEq, World.mk.injEq, Except.error.injEq] at hrun
    obtain ⟨rfl, rfl, -⟩ := hrun
    exact .inl ⟨rfl, rfl⟩
  · simp only [hadm] at hrun
    exact .inr ⟨rfl, apply_stretch.raised ⟨rfl, admitted_draft hadm⟩ hrun⟩

/-- An execution that returned was of a draft, and decided it. -/
theorem execute_change_returned {tm1 : TM1} {answer : Answers} {executed_by now : ℕ}
    {acknowledge_impact : Bool} {change row : TM1Change} {s s' : Server}
    (hrun : exec (execute_change tm1 answer executed_by now acknowledge_impact) ⟨change, s⟩
      = (.ok (), ⟨row, s'⟩)) : change.status = .draft ∧ Decided now row := by
  rw [exec_execute_change] at hrun
  rcases hadm : admitted tm1 answer acknowledge_impact change s with e' | ⟨⟩
  · simp [hadm] at hrun
  · simp only [hadm] at hrun
    exact ⟨admitted_draft hadm, apply_stretch.returned ⟨rfl, admitted_draft hadm⟩ hrun⟩

/-! ## What is stored -/

section Stored

variable {tm1 : TM1} {answer : Answers} {executed_by now : ℕ} {acknowledge_impact : Bool}
  {change row : TM1Change} {s s' : Server} {e : AppException}

/-- The route's session is rolled back with the exception. -/
theorem storedAfter_route
    (hrun : exec (execute_change tm1 answer executed_by now acknowledge_impact) ⟨change, s⟩
      = (.error e, ⟨row, s'⟩)) :
    storedAfter .route tm1 answer executed_by now acknowledge_impact ⟨change, s⟩ = change := by
  rw [storedAfter, get_db, hrun]

/-- The assistant's turn is committed with the row as the exception left it. -/
theorem storedAfter_assistant
    (hrun : exec (execute_change tm1 answer executed_by now acknowledge_impact) ⟨change, s⟩
      = (.error e, ⟨row, s'⟩)) :
    storedAfter .assistant tm1 answer executed_by now acknowledge_impact ⟨change, s⟩ = row := by
  have htool : exec (_execute_tool_call "apply_change"
      (ApplyChangeTool tm1 answer executed_by now acknowledge_impact)) ⟨change, s⟩
      = (.ok (.error (toolError "apply_change" e)), ⟨row, s'⟩) := by
    rw [_execute_tool_call, exec_tryCatch, exec_bind, ApplyChangeTool, exec_bind, hrun]
    rfl
  rw [storedAfter, get_db, htool]

end Stored

/-- A draft nobody has executed. -/
structure Unexecuted (change : TM1Change) : Prop where
  status : change.status = .draft
  executed_by : change.executed_by = none
  executed_at : change.executed_at = none
  previous_content : change.previous_content = none
  execution_result : change.execution_result = none

/-- **A failed execution leaves no trace exactly when a person asked for it, or when
the guards refused it.** For every other failure of the assistant's the stored
draft says that it was executed, and shows it as applied. -/
theorem failed_execution_leaves_draft_iff (caller : Caller) (tm1 : TM1) (answer : Answers)
    (executed_by now : ℕ) (acknowledge_impact : Bool) (change : TM1Change) (s : Server)
    (h : Unexecuted change)
    (hraise : ∃ e, (exec (execute_change tm1 answer executed_by now acknowledge_impact)
      ⟨change, s⟩).1 = .error e) :
    (storedAfter caller tm1 answer executed_by now acknowledge_impact ⟨change, s⟩ = change ∧
        ¬ ShownApplied (storedAfter caller tm1 answer executed_by now acknowledge_impact
          ⟨change, s⟩))
      ↔ caller = .route ∨ ∃ e, admitted tm1 answer acknowledge_impact change s = .error e := by
  obtain ⟨e, he⟩ := hraise
  rcases hrun : exec (execute_change tm1 answer executed_by now acknowledge_impact) ⟨change, s⟩
    with ⟨x, row, s'⟩
  rw [hrun] at he
  dsimp only at he
  subst he
  have hunshown := not_shownApplied_of_undecided h.executed_at
  rcases caller with _ | _
  · rw [storedAfter_route hrun]
    exact iff_of_true ⟨rfl, hunshown⟩ (.inl rfl)
  · rw [storedAfter_assistant hrun]
    rcases execute_change_raised hrun with ⟨hadm, rfl⟩ | ⟨hadm, hstamped⟩
    · exact iff_of_true ⟨rfl, hunshown⟩ (.inr ⟨e, hadm⟩)
    · refine iff_of_false ?_ ?_
      · rintro ⟨hrow, -⟩
        have hat := hstamped.executed_at
        rw [hrow, h.executed_at] at hat
        cases hat
      · rintro (hcaller | ⟨e', he'⟩)
        · cases hcaller
        · rw [hadm] at he'
          cases he'

/-- TM1 refuses what is written. -/
def writeRefused : Answers
  | .write => .refused badRequest
  | _ => .ok

/-- `failed_execution_leaves_draft_iff` at an execution the assistant asked for. -/
theorem rulesDraft_left_iff :
    (storedAfter .assistant currentTM1 writeRefused 8 20 false ⟨rulesDraft, smallServer⟩
          = rulesDraft ∧
        ¬ ShownApplied (storedAfter .assistant currentTM1 writeRefused 8 20 false
          ⟨rulesDraft, smallServer⟩))
      ↔ Caller.assistant = .route ∨
        ∃ e, admitted currentTM1 writeRefused false rulesDraft smallServer = .error e :=
  failed_execution_leaves_draft_iff .assistant currentTM1 writeRefused 8 20 false rulesDraft
    smallServer ⟨rfl, rfl, rfl, rfl, rfl⟩ ⟨.definite badRequest, rfl⟩

/-- **A draft shown as applied that was not.** TM1 refuses the rules, and the
assistant's turn is committed with the draft marked as executed. -/
theorem rulesDraft_shown_applied :
    Unexecuted rulesDraft ∧
      (exec (execute_change currentTM1 writeRefused 8 20 false) ⟨rulesDraft, smallServer⟩).1
        = .error (.definite badRequest) ∧
      ¬ (storedAfter .assistant currentTM1 writeRefused 8 20 false ⟨rulesDraft, smallServer⟩
          = rulesDraft ∧
        ¬ ShownApplied (storedAfter .assistant currentTM1 writeRefused 8 20 false
          ⟨rulesDraft, smallServer⟩)) := by
  refine ⟨⟨rfl, rfl, rfl, rfl, rfl⟩, rfl, ?_⟩
  rintro ⟨-, hunshown⟩
  apply hunshown
  decide

/-- Such a draft is shown as applied although its execution raised. -/
theorem assistant_failure_shown_applied {tm1 : TM1} {answer : Answers} {executed_by now : ℕ}
    {acknowledge_impact : Bool} {change row : TM1Change} {s s' : Server} {e : AppException}
    (hrun : exec (execute_change tm1 answer executed_by now acknowledge_impact) ⟨change, s⟩
      = (.error e, ⟨row, s'⟩))
    (hadm : admitted tm1 answer acknowledge_impact change s = .ok ()) :
    ShownApplied
      (storedAfter .assistant tm1 answer executed_by now acknowledge_impact ⟨change, s⟩) := by
  rw [storedAfter_assistant hrun]
  rcases execute_change_raised hrun with ⟨hrefused, -⟩ | ⟨-, hstamped⟩
  · rw [hadm] at hrefused
    cases hrefused
  · apply shownApplied_of_stamped hstamped.status
    rw [hstamped.executed_at]
    exact Option.some_ne_none now

end PaCopilot.change_service
