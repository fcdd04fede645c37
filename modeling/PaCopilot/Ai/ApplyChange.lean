/-
`apply_change`, the tool by which the assistant applies a draft of its own
(`ai/tools/tm1/changes.py`), and the registry that the draft tools stand in.

The tool takes a draft as its own by two marks: the content says `ai_generated`, and a
recorded call of a draft tool, by the user in the conversation, starts with the
draft's identifier. `Provenance.lean` says when the two agree with what happened.
-/
import PaCopilot.Ai.DraftTools

set_option autoImplicit false

namespace PaCopilot.ai

open Remote

/-! ## Where a draft comes from -/

namespace ai_tool_execution_repository

/-- `json.dumps({"draft_change_id": str(change_id)})[:-1]`. -/
def draftPrefix (change_id : ℕ) : List Char :=
  (Json.dumps (.object [("draft_change_id", .string (String.ofList (uuidText change_id)))])).dropLast

/-- A recorded call of one of the tools that returned the draft. -/
def returnedDraft (conversation_id user_id change_id : ℕ) (tool_names : List String)
    (row : AIToolExecution ToolInput) : Bool :=
  row.conversation_id = conversation_id ∧ row.user_id = user_id ∧ row.tool_name ∈ tool_names
    ∧ row.status = .success
    ∧ row.result_summary.any fun summary => decide (draftPrefix change_id <+: summary.toList)

def drafted_in_conversation (executions : List (AIToolExecution ToolInput))
    (conversation_id user_id change_id : ℕ) (tool_names : List String) : Bool :=
  executions.any (returnedDraft conversation_id user_id change_id tool_names)

end ai_tool_execution_repository

/-- `drafted_here`. -/
def drafted_here (db : AssistantDb) (change : TM1Change) (user_id : ℕ)
    (conversation_id : Option ℕ) : Bool :=
  match conversation_id with
  | none => false
  | some conversation_id =>
    (change.new_content.map NewContent.ai_generated).getD false
      && ai_tool_execution_repository.drafted_in_conversation db.executions conversation_id
        user_id change.id DRAFT_TOOLS

/-! ## `apply_change` -/

/-- What the checks come to: an answer that applies nothing, or a change to apply. -/
inductive Verdict
  | answered (error : String)
  | applies (connection : TM1Connection) (change : TM1Change)

def notApplied (error : String) : Json := .object [("applied", .bool false), ("error", .string error)]

section Apply

variable {Graph : Type} (around : Surroundings Graph)

/-- What `Tm1Mode` is spelled. -/
def modeText : governance.Tm1Mode → String
  | .governed => "governed"
  | .readwrite => "readwrite"
  | .readonly => "readonly"

/-- The checks of `apply_change` on the change, of a connection that it may apply to. -/
def checkChange (session : Session) (conversation_id : Option ℕ) (connection : TM1Connection)
    (change : TM1Change) (db : AssistantDb) : Except AppException Verdict :=
  if drafted_here db change session.user_id conversation_id = false then
    .ok (.answered ("Only a draft you proposed in this conversation can be applied; this one was "
      ++ "drafted elsewhere (the console, or another conversation). A person executes "
      ++ "it in Deployments."))
  else if change.status ≠ .draft then
    .ok (.answered s!"The change is already {change.status.text}.")
  else if change.validation_errors ≠ [] then
    .ok (.answered "The draft has validation errors; fix and re-propose it.")
  else do
    checkRun around.auth session.user_id change
    governance.check_can_apply around.auth session.user_id change connection .execute
    return .applies connection change

/-- The checks of `apply_change`. -/
def checkApply (session : Session) (conversation_id : Option ℕ) (input : ToolInput)
    (db : AssistantDb) : Except AppException Verdict :=
  if around.TM1_MODE ≠ .readwrite then
    .ok (.answered ("This deployment does not let the assistant apply changes (TM1_MODE is "
      ++ s!"{modeText around.TM1_MODE}). The draft waits for a person to execute it in Deployments."))
  else do
    let deploys ← auth_repository.user_has_permission around.auth session.user_id "tm1.deploy"
    refuse (deploys = false) (PermissionDeniedException "Missing permission: tm1.deploy")
    let connection_id ← input.connection_id
    let connection ← connection_service.get_connection around.auth (some session.user_id)
      around.connections connection_id session.organization_id .use
    if governance.assistant_may_apply around.TM1_MODE connection = false then
      .ok (.answered (s!"'{connection.name}' is a "
        ++ governance.upper (governance.environment_of connection) ++ " connection: "
        ++ "the assistant applies changes on DEV only. A person approves this one in Deployments."))
    else do
      let change_id ← input.change_id
      match tm1_change_repository.get_by_id db.changes change_id with
      | none => .ok (.answered "No such draft of yours on this connection.")
      | some change =>
        -- someone else's draft is answered like one that does not exist
        if change.connection_id ≠ connection.id ∨ change.organization_id ≠ session.organization_id
            ∨ change.created_by ≠ session.user_id then
          .ok (.answered "No such draft of yours on this connection.")
        else checkChange around session conversation_id connection change db

/-- The checks let through a change of the user's on a DEV connection, which the user may
apply. -/
theorem checkApply_applies {around : Surroundings Graph} {session : Session}
    {conversation_id : Option ℕ} {input : ToolInput} {db : AssistantDb}
    {connection : TM1Connection} {change : TM1Change}
    (h : checkApply around session conversation_id input db = .ok (.applies connection change)) :
    change ∈ db.changes.rows ∧ governance.environment_of connection = "dev" ∧
      governance.check_can_apply around.auth session.user_id change connection .execute
        = .ok () := by
  -- one refusal after the other is passed; three of them are what is asked here
  unfold checkApply at h
  by_cases hmode : around.TM1_MODE ≠ .readwrite
  · rw [if_pos hmode] at h
    cases h
  rw [if_neg hmode] at h
  obtain ⟨_, h⟩ := rest_of_bind h
  obtain ⟨_, h⟩ := rest_of_bind h
  obtain ⟨_, h⟩ := rest_of_bind h
  obtain ⟨found, h⟩ := rest_of_bind h
  by_cases hdev : governance.assistant_may_apply around.TM1_MODE found = false
  · rw [if_pos hdev] at h
    cases h
  rw [if_neg hdev] at h
  obtain ⟨change_id, h⟩ := rest_of_bind h
  rw [Bool.not_eq_false, governance.assistant_may_apply, Bool.and_eq_true] at hdev
  have hlabel := of_decide_eq_true hdev.2
  rcases hrow : tm1_change_repository.get_by_id db.changes change_id with _ | row
  · rw [hrow] at h
    cases h
  rw [hrow] at h
  dsimp only at h
  have hmem := tm1_change_repository.get_by_id_mem hrow
  split at h
  · cases h
  · unfold checkChange at h
    split at h
    · cases h
    split at h
    · cases h
    split at h
    · cases h
    obtain ⟨_, h⟩ := rest_of_bind h
    rw [bind_eq_ok_iff] at h
    obtain ⟨_, hcheck, h⟩ := h
    cases h
    exact ⟨hmem, hlabel, hcheck⟩

/-- The JSON of an applied change. -/
def appliedJson (connection : TM1Connection) (change : TM1Change)
    (report : change_service.ApplyReport) : Json :=
  let text (s : Option String) : Json := match s with
    | none => .null
    | some s => .string s
  .object
    [ ("applied", .bool report.applied),
      ("change_id", .string (String.ofList (uuidText change.id))),
      ("status", .string report.status.text),
      ("change_type", .string report.change_type.text),
      ("target", .string report.target),
      ("connection", .string connection.name),
      ("environment", .string (governance.environment_of connection)),
      ("error_message", text report.error_message),
      ("note", .string report.note) ]

/-- What an application leaves of the changes. -/
def Surroundings.applied (session : Session) (input : ToolInput) (change : TM1Change) : Amendment :=
  change_service.executed around.tm1 change (around.servers change.connection_id) .assistant
    around.applyAnswer session.user_id around.now input.acknowledge_impact

def ApplyChangeTool : Tool AssistantDb ToolInput where
  name := "apply_change"
  description := (around.described "apply_change").1
  input_schema := (around.described "apply_change").2
  needs_conversation := true
  execute session conversation_id input db :=
    match checkApply around session conversation_id input db with
    | .error e => (.error e, db)
    | .ok (.answered error) => (.ok (.json (notApplied error)), db)
    | .ok (.applies connection change) =>
      let applied := (exec (change_service.ApplyChangeTool around.tm1 around.applyAnswer
        session.user_id around.now input.acknowledge_impact)
          ⟨change, around.servers change.connection_id⟩).1
      (applied.map fun report => .json (appliedJson connection change report),
        { db with changes := db.changes.amend (around.applied session input change) })

end Apply

/-! ## The registry -/

/-- A tool that neither drafts nor applies: it leaves the changes and the calls as they
are. -/
structure OtherTool where
  tool : Tool AssistantDb ToolInput
  other : tool.name ∉ DRAFT_TOOLS ∧ tool.name ≠ "apply_change"
  keeps : ∀ session conversation_id input db,
    (tool.execute session conversation_id input db).2 = db

section Registry

variable {Graph : Type} (around : Surroundings Graph) (others : List OtherTool)

/-- The registered tools, and what the orchestrator does with a call of one. -/
def registry : Tools AssistantDb ToolInput where
  TOOLS := draftTools.map (·.registered around) ++ ApplyChangeTool around :: others.map OtherTool.tool
  requested_connection input := input.connection_id.toOption
  get_connection session connection_id _ :=
    (connection_service.get_connection around.auth (some session.user_id) around.connections
      connection_id session.organization_id .use).map fun _ => ()
  create row db :=
    match around.refusal row with
    | some e => .error e
    | none => .ok { db with executions := db.executions ++ [row] }
  _fold_into_task _ _ _ db := db

end Registry

end PaCopilot.ai
