/-
`execute_change` of `tm1/deployment/change_service.py`.

The program runs over two things: the row as this session holds it, and the TM1
server. An exception undoes neither. Every call it makes to TM1 has a `Site`, is
made at most once, and ends as the `Answers` say.

Five of the seven change types write in one and the same way (write, verify,
restore on findings, read back), which is `Compensation.run` at the type's own
calls; `conclude` is what they do with its outcome. A deletion only writes, and a
run has no way back.
-/
import PaCopilot.Change.Content
import PaCopilot.Lib.Compensation

set_option autoImplicit false

namespace PaCopilot.change_service

open Remote Python

/-- The calls one request makes to TM1. -/
inductive Site
  | client
  | drift
  | existence
  | dimensions
  | snapshot
  | write
  | verify
  | restore
  | reread
  | errorLog
  deriving DecidableEq

/-- How each call ends. -/
abbrev Answers := Site → Answer

/-- A request over one row. -/
abbrev ChangeM := Program TM1Change Server DefiniteError String

/-- The answers of a guarded write. -/
def Answers.calls (answer : Answers) : Calls DefiniteError String :=
  ⟨answer .write, answer .verify, answer .restore, answer .reread⟩

/-- A guarded write that reads nothing back. -/
def Answers.callsUnread (answer : Answers) : Calls DefiniteError String :=
  { answer.calls with reread := .ok }

/-! ## What each type writes -/

/-- `update_rules`: TM1 checks the rules it has saved. -/
def rulesCompensation (tm1 : TM1) (target rules : String) (previous : Option String) :
    Compensation Server DefiniteError (Option (List String)) (Option String) where
  effect := cube_service.update_cube_rules target rules
  verify := cube_service.check_cube_rules tm1 target
  wrong errors := decide (errors.getD [] ≠ [])
  undo := cube_service.update_cube_rules target (previous.getD "")
  reread := cube_service.get_cube_rules target

/-- `create_process` and `update_process`: TM1 compiles what it has saved. -/
def processCompensation (tm1 : TM1) (target : String) (candidate : Process)
    (undo : Server → Except DefiniteError Server) :
    Compensation Server DefiniteError (List String) Process where
  effect := process_service.update_or_create_process candidate
  verify := process_service.compile_process_on_server tm1 target
  wrong errors := decide (errors ≠ [])
  undo := undo
  reread := process_service.get_process_body target

/-- The values that put saved cells back: an empty cell gets 0. -/
def savedValues (saved : List SavedCell) : List (List String × Value) :=
  saved.map fun c => (c.coordinates, c.value.getD (.num 0))

/-- The snapshot of some cells. -/
def savedCells (coordinates : List (List String)) (values : List (Option Value)) :
    List SavedCell :=
  (coordinates.zip values).map fun cell => ⟨cell.1, cell.2⟩

/-- The cells that do not hold what was written. -/
def wrongCells (writes : List (List String × Value)) (after : List (Option Value)) :
    List String :=
  (writes.zip after).filterMap fun ((c, v), a) =>
    if _same_value a (some v) then none
    else some (", ".intercalate c ++ s!": wrote {repr (some v)}, the server holds {repr a}")

/-- `write_cells`: the cells are read again. -/
def cellsCompensation (tm1 : TM1) (target : String) (writes : List (List String × Value))
    (saved : List SavedCell) :
    Compensation Server DefiniteError (List (Option Value)) Unit where
  effect := cell_service.write_cells tm1 target writes
  verify := _read_values tm1 target (writes.map Prod.fst)
  wrong after := decide (wrongCells writes after ≠ [])
  undo := cell_service.write_cells tm1 target (savedValues saved)
  reread _ := .ok ()

/-- The saved view is not the approved one. -/
def viewDiffers (mdx : String) (saved : View) : Bool :=
  saved.type ≠ "mdx" || _mdx_text saved.mdx ≠ _mdx_text (some mdx)

/-- `create_view`: the view is read again. -/
def viewCompensation (tm1 : TM1) (cube view_name mdx : String) :
    Compensation Server DefiniteError View Unit where
  effect := view_service.create_mdx_view tm1 cube view_name mdx
  verify := structure_service.get_view cube view_name
  wrong := viewDiffers mdx
  undo := view_service.delete_view cube view_name
  reread _ := .ok ()

/-! ## `_apply` -/

/-- `change.previous_content = ...`. -/
def remember (previous : PreviousContent) (change : TM1Change) : TM1Change :=
  { change with previous_content := some previous }

/-- The guarded write and its outcome: with findings the row fails with them,
without any it is executed and remembers what was left. -/
def conclude {V A : Type} (c : Compensation Server DefiniteError V A)
    (calls : Calls DefiniteError String) (seen : V → TM1Change → TM1Change)
    (errors : V → List String) (message : String) (left : V → A → PreviousContent) :
    ChangeM Unit := do
  let (v, found) ← c.run calls seen
  match found with
  | none => note fun change => { change with
      status := .failed, validation_errors := errors v, error_message := some message }
  | some x => note fun change => { remember (left v x) change with status := .executed }

/-- A server without a rule check: the row says which check ran. -/
def sayRuleCheck (errors : Option (List String)) (change : TM1Change) : TM1Change :=
  if errors = none then
    { change with checks := change.checks ++ [_check "Server rule check" "info"
        ("This TM1 version has no separate rule check; it validated the rule "
          ++ "syntax when it accepted the save") []] }
  else change

def applyRules (tm1 : TM1) (answer : Answers) (change : TM1Change) : ChangeM Unit := do
  let target := change.target_name
  let previous ← ask (answer .snapshot) (cube_service.get_cube_rules target)
  note (remember { rules := some previous })
  match change.new_content.bind NewContent.rules with
  | none => throw (PythonError "KeyError")
  | some rules =>
    conclude (rulesCompensation tm1 target rules previous) answer.calls sayRuleCheck
      (fun errors => errors.getD [])
      "Rule check failed after apply; previous rules restored."
      fun _ now => { rules := some previous, applied := some (.text (_rules_text now)) }

/-- A process of the name of a new one was created after the draft was made. -/
def createdSince (target : String) : AppException :=
  ConflictException (s!"A process named '{target}' was created after "
    ++ "this draft was made. Nothing was changed; draft an update " ++ "to it instead.")

def applyCreateProcess (tm1 : TM1) (answer : Answers) (change : TM1Change) : ChangeM Unit := do
  let target := change.target_name
  let there ← ask (answer .existence) (process_service.process_exists target)
  if there then throw (createdSince target)
  note (remember { existed := some false })
  match change.new_content with
  | none => throw (PythonError "AttributeError")
  | some content =>
    conclude (processCompensation tm1 target (_build_process tm1 target content none)
        (process_service.delete_process target)) answer.calls (fun _ c => c) id
      "Compile failed after create; process removed."
      fun _ now => { existed := some false, applied := some (.code (_code_of now)) }

def applyUpdateProcess (tm1 : TM1) (answer : Answers) (change : TM1Change) : ChangeM Unit := do
  let target := change.target_name
  let base ← ask (answer .snapshot) (process_service.get_process_body target)
  note (remember { process := some base })
  match change.new_content with
  | none => throw (PythonError "AttributeError")
  | some content =>
    conclude (processCompensation tm1 target (_build_process tm1 target content (some base))
        (process_service.update_or_create_process base)) answer.calls (fun _ c => c) id
      "Compile failed after update; previous version restored."
      fun _ now => { process := some base, applied := some (.code (_code_of now)) }

def applyDeleteProcess (answer : Answers) (change : TM1Change) : ChangeM Unit := do
  let target := change.target_name
  let base ← ask (answer .snapshot) (process_service.get_process_body target)
  note (remember { process := some base })
  send (answer .write) (process_service.delete_process target)
  note fun change => { change with status := .executed }

def applyCells (tm1 : TM1) (answer : Answers) (change : TM1Change) : ChangeM Unit := do
  let target := change.target_name
  let writes ← look fun _ => (_cell_writes change.new_content).mapError .definite
  let _cube ← ask (answer .dimensions) (cube_service.get_cube target)
  let before ← ask (answer .snapshot) (_read_values tm1 target (writes.map Prod.fst))
  let saved := savedCells (writes.map Prod.fst) before
  note (remember { cells := some saved })
  conclude (cellsCompensation tm1 target writes saved) answer.callsUnread (fun _ c => c)
    (wrongCells writes)
    ("The server did not hold the written values; the previous values were " ++ "written back.")
    fun after _ => { cells := some saved, applied := some (.values (after.map _normal)) }

/-- A public view of the name of a new one was created after the draft was made. -/
def viewCreatedSince (cube view_name : String) : AppException :=
  ConflictException (s!"A public view named '{view_name}' was created on '{cube}' after "
    ++ "this draft was made. Nothing was changed; draft the view under " ++ "another name.")

def applyView (tm1 : TM1) (answer : Answers) (change : TM1Change) : ChangeM Unit := do
  let cube := change.target_name
  let (view_name, mdx) ← look fun _ => (_view_content change.new_content).mapError .definite
  let there ← ask (answer .existence) (view_service.view_exists cube view_name)
  if there then throw (viewCreatedSince cube view_name)
  note fun change => { remember { existed := some false } change with
    execution_result := some (.view view_name cube) }
  conclude (viewCompensation tm1 cube view_name mdx) answer.callsUnread (fun _ c => c)
    (fun _ => ["The view TM1 saved does not hold the MDX that was approved."])
    "The view read back did not match the approved MDX; the view was deleted."
    fun saved _ => { existed := some false, applied := some (.text (_mdx_text saved.mdx)) }

/-! ### Each branch as one equation

What a branch reads decides whether it raises or goes on to its guarded write. -/

theorem exec_applyRules (tm1 : TM1) (answer : Answers) (change row : TM1Change) (s : Server) :
    exec (applyRules tm1 answer change) ⟨row, s⟩ =
      match (answer .snapshot).reply (cube_service.get_cube_rules change.target_name) s with
      | .error e => (.error e, ⟨row, s⟩)
      | .ok previous =>
        let row' := remember { rules := some previous } row
        match change.new_content.bind NewContent.rules with
        | none => (.error (PythonError "KeyError"), ⟨row', s⟩)
        | some rules =>
          exec (conclude (rulesCompensation tm1 change.target_name rules previous) answer.calls
              sayRuleCheck (fun errors => errors.getD [])
              "Rule check failed after apply; previous rules restored."
              fun _ now => { rules := some previous, applied := some (.text (_rules_text now)) })
            ⟨row', s⟩ := by
  rcases hr : (answer .snapshot).reply (cube_service.get_cube_rules change.target_name) s
    with e | previous
  · simp only [applyRules, exec_bind, exec_ask, hr]
  rcases hc : change.new_content.bind NewContent.rules with _ | rules
  · simp only [applyRules, exec_bind, exec_ask, hr, hc, exec_note, exec_throw]
  · simp only [applyRules, exec_bind, exec_ask, hr, hc, exec_note]

theorem exec_applyCreateProcess (tm1 : TM1) (answer : Answers) (change row : TM1Change)
    (s : Server) :
    exec (applyCreateProcess tm1 answer change) ⟨row, s⟩ =
      match (answer .existence).reply (process_service.process_exists change.target_name) s with
      | .error e => (.error e, ⟨row, s⟩)
      | .ok true => (.error (createdSince change.target_name), ⟨row, s⟩)
      | .ok false =>
        let row' := remember { existed := some false } row
        match change.new_content with
        | none => (.error (PythonError "AttributeError"), ⟨row', s⟩)
        | some content =>
          exec (conclude (processCompensation tm1 change.target_name
                (_build_process tm1 change.target_name content none)
                (process_service.delete_process change.target_name)) answer.calls (fun _ c => c) id
              "Compile failed after create; process removed."
              fun _ now => { existed := some false, applied := some (.code (_code_of now)) })
            ⟨row', s⟩ := by
  rcases hr : (answer .existence).reply (process_service.process_exists change.target_name) s
    with e | there
  · simp only [applyCreateProcess, exec_bind, exec_ask, hr]
  rcases there with _ | _
  · rcases hc : change.new_content with _ | content
    · simp [applyCreateProcess, exec_bind, hr, hc]
    · simp [applyCreateProcess, exec_bind, hr, hc]
  · simp [applyCreateProcess, exec_bind, hr]

theorem exec_applyUpdateProcess (tm1 : TM1) (answer : Answers) (change row : TM1Change)
    (s : Server) :
    exec (applyUpdateProcess tm1 answer change) ⟨row, s⟩ =
      match (answer .snapshot).reply (process_service.get_process_body change.target_name) s with
      | .error e => (.error e, ⟨row, s⟩)
      | .ok base =>
        let row' := remember { process := some base } row
        match change.new_content with
        | none => (.error (PythonError "AttributeError"), ⟨row', s⟩)
        | some content =>
          exec (conclude (processCompensation tm1 change.target_name
                (_build_process tm1 change.target_name content (some base))
                (process_service.update_or_create_process base)) answer.calls (fun _ c => c) id
              "Compile failed after update; previous version restored."
              fun _ now => { process := some base, applied := some (.code (_code_of now)) })
            ⟨row', s⟩ := by
  rcases hr : (answer .snapshot).reply (process_service.get_process_body change.target_name) s
    with e | base
  · simp only [applyUpdateProcess, exec_bind, exec_ask, hr]
  rcases hc : change.new_content with _ | content
  · simp only [applyUpdateProcess, exec_bind, exec_ask, hr, hc, exec_note, exec_throw]
  · simp only [applyUpdateProcess, exec_bind, exec_ask, hr, hc, exec_note]

theorem exec_applyDeleteProcess (answer : Answers) (change row : TM1Change) (s : Server) :
    exec (applyDeleteProcess answer change) ⟨row, s⟩ =
      match (answer .snapshot).reply (process_service.get_process_body change.target_name) s with
      | .error e => (.error e, ⟨row, s⟩)
      | .ok base =>
        let row' := remember { process := some base } row
        match (answer .write).result (process_service.delete_process change.target_name) s with
        | (.error e, s') => (.error e, ⟨row', s'⟩)
        | (.ok (), s') => (.ok (), ⟨{ row' with status := .executed }, s'⟩) := by
  rcases hr : (answer .snapshot).reply (process_service.get_process_body change.target_name) s
    with e | base
  · simp only [applyDeleteProcess, exec_bind, exec_ask, hr]
  · simp only [applyDeleteProcess, exec_bind, exec_ask, hr, exec_note, exec_send]
    rcases (answer .write).result (process_service.delete_process change.target_name) s
      with ⟨e | _, s'⟩ <;> rfl

theorem exec_applyCells (tm1 : TM1) (answer : Answers) (change row : TM1Change) (s : Server) :
    exec (applyCells tm1 answer change) ⟨row, s⟩ =
      match _cell_writes change.new_content with
      | .error r => (.error (.definite r), ⟨row, s⟩)
      | .ok writes =>
        match (answer .dimensions).reply (cube_service.get_cube change.target_name) s with
        | .error e => (.error e, ⟨row, s⟩)
        | .ok _ =>
          match (answer .snapshot).reply
              (_read_values tm1 change.target_name (writes.map Prod.fst)) s with
          | .error e => (.error e, ⟨row, s⟩)
          | .ok before =>
            let saved := savedCells (writes.map Prod.fst) before
            exec (conclude (cellsCompensation tm1 change.target_name writes saved)
                answer.callsUnread (fun _ c => c) (wrongCells writes)
                ("The server did not hold the written values; the previous values were "
                  ++ "written back.")
                fun after _ => {
                  cells := some saved
                  applied := some (.values (after.map _normal)) })
              ⟨remember { cells := some saved } row, s⟩ := by
  rcases hw : _cell_writes change.new_content with r | writes
  · simp [applyCells, exec_bind, hw, Except.mapError]
  rcases hd : (answer .dimensions).reply (cube_service.get_cube change.target_name) s with e | cube
  · simp [applyCells, exec_bind, hw, Except.mapError, hd]
  rcases hr : (answer .snapshot).reply
      (_read_values tm1 change.target_name (writes.map Prod.fst)) s with e | before
  · simp [applyCells, exec_bind, hw, Except.mapError, hd, hr]
  · simp only [applyCells, exec_bind, exec_look, hw, Except.mapError, exec_ask, hd, hr, exec_note]

theorem exec_applyView (tm1 : TM1) (answer : Answers) (change row : TM1Change) (s : Server) :
    exec (applyView tm1 answer change) ⟨row, s⟩ =
      match _view_content change.new_content with
      | .error r => (.error (.definite r), ⟨row, s⟩)
      | .ok (view_name, mdx) =>
        match (answer .existence).reply
            (view_service.view_exists change.target_name view_name) s with
        | .error e => (.error e, ⟨row, s⟩)
        | .ok true => (.error (viewCreatedSince change.target_name view_name), ⟨row, s⟩)
        | .ok false =>
          exec (conclude (viewCompensation tm1 change.target_name view_name mdx)
              answer.callsUnread (fun _ c => c)
              (fun _ => ["The view TM1 saved does not hold the MDX that was approved."])
              "The view read back did not match the approved MDX; the view was deleted."
              fun saved _ => {
                existed := some false
                applied := some (.text (_mdx_text saved.mdx)) })
            ⟨{ remember { existed := some false } row with
                execution_result := some (.view view_name change.target_name) }, s⟩ := by
  rcases hv : _view_content change.new_content with r | ⟨view_name, mdx⟩
  · simp [applyView, exec_bind, hv, Except.mapError]
  rcases hr : (answer .existence).reply
      (view_service.view_exists change.target_name view_name) s with e | there
  · simp [applyView, exec_bind, hv, Except.mapError, hr]
  rcases there with _ | _
  · simp [applyView, exec_bind, hv, Except.mapError, hr]
  · simp [applyView, exec_bind, hv, Except.mapError, hr]

/-! ## A run -/

/-- The names TM1py takes for its own arguments. -/
def RESERVED_RUN_KEYWORDS : List String :=
  ["process_name", "timeout", "cancel_at_timeout", "return_async_id", "retry_on_disconnect"]

/-- Characters of a failed run's error log kept on the change. -/
def RUN_LOG_EXCERPT_CHARS : ℕ := 4000

/-- `x or None`. -/
def orNone (s : String) : Option String := if s = "" then none else some s

/-- `process_service.execute_process`, as TM1 carries it out. -/
def executeProcess (tm1 : TM1) (name : String) (parameters : List (String × Scalar))
    (s : Server) : Except DefiniteError (RunResult × Server) :=
  match s.process name with
  | none => .error notFound
  | some _ =>
    let (s', success, status, error_log_file, error_detail, api) := tm1.runProcess s name parameters
    .ok ({
      success := success
      status := textOr (orNone status) (if success then "CompletedSuccessfully" else "Unknown")
      error_log_file := orNone error_log_file
      api := api
      error_detail := (error_detail.bind orNone).map fun d => String.ofList (d.toList.take 2000)
      error_log_excerpt := none }, s')

/-- `_run`. The run is sent once; whatever goes wrong is written on the row. -/
def _run (tm1 : TM1) (answer : Answers) (change : TM1Change) : ChangeM Unit := do
  -- TM1py takes parameters as keywords, and its own names are refused
  let parameters := (change.new_content.map NewContent.given).getD []
  let started : ChangeM (Option RunResult) := do
    if parameters.any fun (name, _) => name ∈ RESERVED_RUN_KEYWORDS then
      throw (PythonError "ValueError")
    let result ← perform (answer .write) (executeProcess tm1 change.target_name parameters)
    return some result
  let result ← tryCatch started fun e => do
    match e with
    -- no answer: the run may be going on
    | .unknown message => note fun change => { change with
        status := .unknown
        execution_result := some .noResponse
        error_message := some (s!"{message} TM1 was asked to cancel the run. It may have "
          ++ "written some data before stopping: check the message log "
          ++ "before running it again.") }
    | .definite error => note fun change => { change with
        status := .failed
        execution_result := some .notStarted
        error_message := some ("The run could not be started: " ++ s!"{error.message}.") }
    return none
  match result with
  | none => return ()
  | some result =>
    let result ← match result.success, result.error_log_file with
      | false, some file => do
        -- the log is an extra, and an error of reading it is not one of the run
        let excerpt ← tryCatch
          (do
            let log ← ask (answer .errorLog) (fun s => .ok (tm1.errorLog s file))
            return some (String.ofList (log.toList.take RUN_LOG_EXCERPT_CHARS)))
          fun _ => return none
        pure { result with error_log_excerpt := excerpt }
      | _, _ => pure result
    note fun change => { change with execution_result := some (.run result) }
    if result.success then note fun change => { change with status := .executed }
    else note fun change => { change with
      status := .failed
      error_message := some (s!"TM1 reported {result.status}."
        ++ (match result.error_detail with | some d => s!" {d}" | none => "")
        ++ (match result.error_log_file with | some f => s!" Error log: {f}." | none => "")) }

/-- `_apply`. -/
def _apply (tm1 : TM1) (answer : Answers) (change : TM1Change) : ChangeM Unit :=
  match change.change_type with
  | .update_rules => applyRules tm1 answer change
  | .create_process => applyCreateProcess tm1 answer change
  | .update_process => applyUpdateProcess tm1 answer change
  | .run_process => _run tm1 answer change
  | .write_cells => applyCells tm1 answer change
  | .create_view => applyView tm1 answer change
  | .delete_process => applyDeleteProcess answer change

/-! ## `execute_change` -/

/-- The checks before anything is done: the draft is open, valid and acknowledged,
TM1 can be reached, and the target is as it was when the draft was made. -/
def admitted (tm1 : TM1) (answer : Answers) (acknowledge_impact : Bool) (change : TM1Change)
    (s : Server) : Except AppException Unit := do
  refuse (change.status ≠ .draft)
    (ConflictException s!"Only draft changes can be executed (status: {change.status.text}).")
  refuse (change.validation_errors ≠ [])
    (ValidationException "This draft has validation errors and cannot be executed.")
  refuse (needs_acknowledgement change.impact && !acknowledge_impact)
    (ValidationException (s!"This change affects "
      ++ s!"{(change.impact.filter ImpactEntry.serious).length} critical or high-severity "
      ++ "object(s). Review its impact and confirm before applying it."))
  (answer .client).reply (fun _ => .ok ()) s
  match change.base_fingerprint with
  -- nothing to compare: no later edit could spoil the change
  | none => return ()
  | some base =>
    let current ← _server_fingerprint tm1 change.change_type change.target_name
      change.new_content (answer .drift) s
    refuse (current ≠ some base)
      (ConflictException (s!"'{change.target_name}' was changed on the TM1 server after "
        ++ "this draft was made. Applying it would overwrite that "
        ++ "change, so nothing was applied. Make a new draft from the " ++ "current version."))

/-- `change.executed_by = ...; change.executed_at = ...`. -/
def stamp (executed_by now : ℕ) (change : TM1Change) : TM1Change :=
  { change with executed_by := some executed_by, executed_at := some now }

/-- The row of a write that TM1 never confirmed. -/
def unconfirmed (message : String) (change : TM1Change) : TM1Change :=
  { change with
    status := .unknown
    error_message := some (s!"{message} TM1 did not confirm the change, so it may or may "
      ++ "not have been applied. Check the object on the server; then make "
      ++ "a new draft from what is there now.") }

/-- The handler around `_apply`. -/
def onUnknown : AppException → ChangeM Unit
  | .definite error => throw (.definite error)
  | .unknown message => do
    let change ← own
    match change.previous_content with
    -- the snapshot read failed: nothing was sent to TM1 yet
    | none => throw (.unknown message)
    | some _ => note (unconfirmed message)

/-- `execute_change`, of the row as it was locked and read. -/
def execute_change (tm1 : TM1) (answer : Answers) (executed_by now : ℕ)
    (acknowledge_impact : Bool) : ChangeM Unit := do
  let change ← own
  look (admitted tm1 answer acknowledge_impact change)
  note (stamp executed_by now)
  tryCatch (_apply tm1 answer change) onUnknown

/-- The guards let drafts through only. -/
theorem admitted_draft {tm1 : TM1} {answer : Answers} {acknowledge_impact : Bool}
    {change : TM1Change} {s : Server}
    (h : admitted tm1 answer acknowledge_impact change s = .ok ()) : change.status = .draft := by
  rw [admitted, bind_eq_ok_iff] at h
  obtain ⟨_, hstatus, -⟩ := h
  rw [refuse_eq_ok_iff, not_not] at hstatus
  exact hstatus

/-- An execution is refused by the guards, which touch nothing, or it applies
the change from the stamped row on. -/
theorem exec_execute_change {tm1 : TM1} {answer : Answers} {executed_by now : ℕ}
    {acknowledge_impact : Bool} {change : TM1Change} {s : Server} :
    exec (execute_change tm1 answer executed_by now acknowledge_impact) ⟨change, s⟩ =
      match admitted tm1 answer acknowledge_impact change s with
      | .error e => (.error e, ⟨change, s⟩)
      | .ok () => exec (tryCatch (_apply tm1 answer change) onUnknown)
          ⟨stamp executed_by now change, s⟩ := by
  rcases hadm : admitted tm1 answer acknowledge_impact change s with e | ⟨⟩
  · simp [execute_change, exec_bind, hadm]
  · simp only [execute_change, exec_bind, exec_own, exec_look, hadm, exec_note]

/-- A draft that replaces the rules of `Sales`. -/
def rulesDraft : TM1Change where
  id := 1
  connection_id := 1
  organization_id := 1
  created_by := 7
  created_at := 10
  change_type := .update_rules
  target_name := "Sales"
  new_content := some { rules := some "['Net'] = ['Gross'] * 0.9;" }
  base_fingerprint := some (.rules "['Net'] = ['Gross'] * 0.8;")

/-- TM1 answers every call and takes them: the draft is executed. -/
example : (exec (execute_change currentTM1 (fun _ => .ok) 8 20 false)
    ⟨rulesDraft, smallServer⟩).2.mine.status = .executed := by
  decide

end PaCopilot.change_service
