/-
The messages of a conversation with the model (`ai/schemas.py`), and how a call of a
tool is answered (`_execute_tool_call` of `ai/orchestrator.py`).

The arguments of a call are of any type `ι`, and what a tool reads and writes is any
state `S`: the orchestrator looks at neither. A text that a tool returns is kept as
the JSON value it says where it says one, so that reading it back is no step.
-/
import PaCopilot.Change.Request
import PaCopilot.Lib.Json

set_option autoImplicit false

namespace PaCopilot.ai

/-! ## Messages -/

/-- A call that the model asks for. -/
structure ToolCall (ι : Type) where
  id : String
  name : String
  input : ι
  deriving DecidableEq

/-- The text of a tool's result. -/
inductive ToolText
  | json (value : Json)
  | text (s : String)

/-- `ToolResult`. -/
structure ToolResult where
  tool_call_id : String
  content : ToolText
  is_error : Bool := false

inductive Role
  | user
  | assistant
  deriving DecidableEq

inductive MediaType
  | jpeg
  | png
  | pdf
  deriving DecidableEq

structure Attachment where
  filename : String
  media_type : MediaType
  data : String
  deriving DecidableEq

structure ChatMessage (ι : Type) where
  role : Role
  content : String
  attachments : Option (List Attachment) := none
  tool_calls : Option (List (ToolCall ι)) := none
  tool_results : Option (List ToolResult) := none

structure ToolDefinition where
  name : String
  description : String
  input_schema : String
  deriving DecidableEq

structure ChatRequest (ι : Type) where
  messages : List (ChatMessage ι)
  system : Option String
  system_context : Option String
  model : String
  tools : List ToolDefinition

structure Usage where
  input_tokens : ℕ
  output_tokens : ℕ
  cache_creation_input_tokens : ℕ := 0
  cache_read_input_tokens : ℕ := 0
  deriving DecidableEq

/-- The four totals, each with what a round adds to it. -/
def Usage.add (total round : Usage) : Usage where
  input_tokens := total.input_tokens + round.input_tokens
  output_tokens := total.output_tokens + round.output_tokens
  cache_creation_input_tokens :=
    total.cache_creation_input_tokens + round.cache_creation_input_tokens
  cache_read_input_tokens := total.cache_read_input_tokens + round.cache_read_input_tokens

def Usage.zero : Usage := ⟨0, 0, 0, 0⟩

structure ChatResponse (ι : Type) where
  content : String
  stop_reason : Option String
  usage : Usage
  tool_calls : Option (List (ToolCall ι)) := none

/-! ## Tools -/

/-- What `ai_tool_executions` keeps of a call, but for its duration. -/
inductive ToolStatus
  | success
  | error
  | not_found
  deriving DecidableEq

structure AIToolExecution (ι : Type) where
  conversation_id : ℕ
  organization_id : ℕ
  user_id : ℕ
  tool_name : String
  arguments : ι
  status : ToolStatus
  result_summary : Option String
  error_message : Option String
  agent : Option String
  deriving DecidableEq

/-- Whose turn it is. -/
structure Session where
  organization_id : ℕ
  user_id : ℕ
  conversation_id : ℕ
  deriving DecidableEq

/-- A registered tool. What it raises is an exception of the application or one of
Python's. -/
structure Tool (S ι : Type) where
  name : String
  description : String
  input_schema : String
  needs_conversation : Bool := false
  execute : Session → Option ℕ → ι → S → Except AppException ToolText × S

def Tool.to_definition {S ι : Type} (tool : Tool S ι) : ToolDefinition :=
  ⟨tool.name, tool.description, tool.input_schema⟩

/-- What the orchestrator calls. `requested_connection` is the `connection_id` among the
arguments where it is an identifier, `get_connection` the check that the user may use
it; `create` stores a row of `ai_tool_executions`, `_fold_into_task` keeps what the call
touched for the task of the conversation, and never raises. -/
structure Tools (S ι : Type) where
  TOOLS : List (Tool S ι)
  requested_connection : ι → Option ℕ
  get_connection : Session → ℕ → S → Except AppException Unit
  create : AIToolExecution ι → S → Except AppException S
  _fold_into_task : Session → ToolCall ι → ToolText → S → S

namespace Tools

variable {S ι : Type}

def get_tool (tools : Tools S ι) (name : String) : Option (Tool S ι) :=
  tools.TOOLS.find? fun tool => tool.name = name

/-- A tool that was found is registered under the name. -/
theorem get_tool_some {tools : Tools S ι} {name : String} {tool : Tool S ι}
    (h : tools.get_tool name = some tool) : tool ∈ tools.TOOLS ∧ tool.name = name := by
  unfold get_tool at h
  have hname := List.find?_some h
  exact ⟨List.mem_of_find?_eq_some h, of_decide_eq_true hname⟩

end Tools

/-- The database, and the calls whose tool was run. -/
structure World (S ι : Type) where
  db : S
  ran : List (ToolCall ι) := []

/-! ## `_execute_tool_call` -/

/-- `_outcome_status`: that an object does not exist is an answer, no failure. -/
def _outcome_status (e : AppException) : ToolStatus :=
  match e with
  | .definite ⟨.NotFoundException, _⟩ | .definite ⟨.TM1NotFoundError, _⟩ => .not_found
  | _ => .error

/-- `_summarise_result`: the first part of a result. -/
def _summarise_result (result : ToolText) : String :=
  let readable := match result with
    | .json value => Json.dumps value
    | .text s => s.toList
  String.ofList (readable.take 500)

section Execute

variable {S ι : Type} (tools : Tools S ι) (session : Session) (allowed_tools : Option (List String))
  (agent : Option String)

/-- The row of a call. -/
def record (call : ToolCall ι) (status : ToolStatus) (result_summary error_message : Option String) :
    AIToolExecution ι where
  conversation_id := session.conversation_id
  organization_id := session.organization_id
  user_id := session.user_id
  tool_name := call.name
  arguments := call.input
  status := status
  result_summary := result_summary
  error_message := error_message
  agent := agent

/-- `_record_tool_execution`. -/
def _record_tool_execution (row : AIToolExecution ι) (w : World S ι) :
    Except AppException Unit × World S ι :=
  match tools.create row w.db with
  | .error e => (.error e, w)
  | .ok db => (.ok (), { w with db := db })

/-- A call that is answered with an error. -/
def failed (call : ToolCall ι) (status : ToolStatus) (error_message content : String)
    (w : World S ι) : Except AppException ToolResult × World S ι :=
  match _record_tool_execution tools (record session agent call status none (some error_message)) w
    with
  | (.error e, w) => (.error e, w)
  | (.ok (), w) => (.ok ⟨call.id, .text content, true⟩, w)

/-- A call whose tool, or the check before it, raised. -/
def raised (call : ToolCall ι) (e : AppException) (w : World S ι) :
    Except AppException ToolResult × World S ι :=
  failed tools session agent call (_outcome_status e) (AppException.message e)
    (change_service.toolError call.name e) w

/-- A call whose tool returned. -/
def succeeded (call : ToolCall ι) (result : ToolText) (w : World S ι) :
    Except AppException ToolResult × World S ι :=
  match _record_tool_execution tools
      (record session agent call .success (some (_summarise_result result)) none) w with
  | (.error e, w) => (.error e, w)
  | (.ok (), w) =>
    (.ok ⟨call.id, result, false⟩,
      { w with db := tools._fold_into_task session call result w.db })

/-- The connection that the model names has to be one the user may use. -/
def checkConnection (call : ToolCall ι) (db : S) : Except AppException Unit :=
  match tools.requested_connection call.input with
  | none => .ok ()
  | some connection_id => tools.get_connection session connection_id db

/-- `tool.execute`. -/
def run (tool : Tool S ι) (call : ToolCall ι) (w : World S ι) :
    Except AppException ToolText × World S ι :=
  let conversation_id := if tool.needs_conversation then some session.conversation_id else none
  let (result, db) := tool.execute session conversation_id call.input w.db
  (result, ⟨db, w.ran ++ [call]⟩)

def _execute_tool_call (call : ToolCall ι) (w : World S ι) :
    Except AppException ToolResult × World S ι :=
  if allowed_tools.any fun names => call.name ∉ names then
    let error_message := s!"Tool '{call.name}' is not available to this agent."
    failed tools session agent call .error error_message error_message w
  else
    match tools.get_tool call.name with
    | none =>
      let error_message := s!"Unknown tool: {call.name}"
      failed tools session agent call .error error_message error_message w
    | some tool =>
      match checkConnection tools session call w.db with
      | .error e => raised tools session agent call e w
      | .ok () =>
        match run session tool call w with
        | (.error e, w) => raised tools session agent call e w
        | (.ok result, w) => succeeded tools session agent call result w

/-- The calls of one response, one after the other. -/
def executeAll : List (ToolCall ι) → World S ι → Except AppException (List ToolResult) × World S ι
  | [], w => (.ok [], w)
  | call :: rest, w =>
    match _execute_tool_call tools session allowed_tools agent call w with
    | (.error e, w) => (.error e, w)
    | (.ok result, w) =>
      match executeAll rest w with
      | (.error e, w) => (.error e, w)
      | (.ok results, w) => (.ok (result :: results), w)

end Execute

/-! ## One result for each call -/

section Results

variable {S ι : Type} {tools : Tools S ι} {session : Session} {allowed_tools : Option (List String)}
  {agent : Option String} {call : ToolCall ι} {w w' : World S ι} {result : ToolResult}

/-- Recording a call runs nothing. -/
theorem record_ran {row : AIToolExecution ι} {answer : Except AppException Unit}
    (h : _record_tool_execution tools row w = (answer, w')) : w'.ran = w.ran := by
  unfold _record_tool_execution at h
  split at h
  · rw [Prod.mk.injEq] at h
    rw [← h.2]
  · rw [Prod.mk.injEq] at h
    rw [← h.2]

theorem failed_spec {status : ToolStatus} {error_message content : String}
    {answer : Except AppException ToolResult}
    (h : failed tools session agent call status error_message content w = (answer, w')) :
    w'.ran = w.ran ∧ ∀ result, answer = .ok result → result.tool_call_id = call.id := by
  unfold failed at h
  split at h
  · rename_i hrecord
    rw [Prod.mk.injEq] at h
    obtain ⟨rfl, rfl⟩ := h
    exact ⟨record_ran hrecord, fun _ hok => (nomatch hok)⟩
  · rename_i hrecord
    rw [Prod.mk.injEq] at h
    obtain ⟨rfl, rfl⟩ := h
    refine ⟨record_ran hrecord, fun result hok => ?_⟩
    rw [← Except.ok.inj hok]

theorem succeeded_spec {text : ToolText} {answer : Except AppException ToolResult}
    (h : succeeded tools session agent call text w = (answer, w')) :
    w'.ran = w.ran ∧ ∀ result, answer = .ok result → result.tool_call_id = call.id := by
  unfold succeeded at h
  split at h
  · rename_i hrecord
    rw [Prod.mk.injEq] at h
    obtain ⟨rfl, rfl⟩ := h
    exact ⟨record_ran hrecord, fun _ hok => (nomatch hok)⟩
  · rename_i hrecord
    rw [Prod.mk.injEq] at h
    obtain ⟨rfl, rfl⟩ := h
    have hran := record_ran hrecord
    refine ⟨hran, fun result hok => ?_⟩
    rw [← Except.ok.inj hok]

/-- The turn may use the tool of a call. -/
def Allowed (allowed_tools : Option (List String)) (call : ToolCall ι) : Prop :=
  ∀ names, allowed_tools = some names → call.name ∈ names

/-- Whatever becomes of a call, its answer carries its identifier, and its tool was run
at most once, and only where the turn may use it. -/
theorem _execute_tool_call_spec {answer : Except AppException ToolResult}
    (h : _execute_tool_call tools session allowed_tools agent call w = (answer, w')) :
    (w'.ran = w.ran ∨ w'.ran = w.ran ++ [call] ∧ Allowed allowed_tools call) ∧
      ∀ result, answer = .ok result → result.tool_call_id = call.id := by
  unfold _execute_tool_call at h
  by_cases hnot : (allowed_tools.any fun names => decide (call.name ∉ names)) = true
  · rw [if_pos hnot] at h
    obtain ⟨hran, hid⟩ := failed_spec h
    exact ⟨.inl hran, hid⟩
  · rw [if_neg hnot] at h
    have hallowed : Allowed allowed_tools call := by
      intro names hnames
      rw [hnames] at hnot
      simpa using hnot
    rcases htool : tools.get_tool call.name with _ | tool
    · rw [htool] at h
      obtain ⟨hran, hid⟩ := failed_spec h
      exact ⟨.inl hran, hid⟩
    · rw [htool] at h
      dsimp only at h
      rcases hcheck : checkConnection tools session call w.db with e | ⟨⟩
      · rw [hcheck] at h
        obtain ⟨hran, hid⟩ := failed_spec h
        exact ⟨.inl hran, hid⟩
      · rw [hcheck] at h
        dsimp only at h
        -- the refusals are before the run, so only here the tool was run
        have hrun : (run session tool call w).2.ran = w.ran ++ [call] := rfl
        rcases hresult : run session tool call w with ⟨e | text, w₁⟩
        · rw [hresult] at h hrun
          obtain ⟨hran, hid⟩ := failed_spec h
          exact ⟨.inr ⟨hran.trans hrun, hallowed⟩, hid⟩
        · rw [hresult] at h hrun
          obtain ⟨hran, hid⟩ := succeeded_spec h
          exact ⟨.inr ⟨hran.trans hrun, hallowed⟩, hid⟩

theorem outcome_ne_success (e : AppException) : _outcome_status e ≠ .success := by
  unfold _outcome_status
  split <;> simp

/-- A call that is answered with an error is recorded as one that did not succeed. -/
theorem failed_ok {status : ToolStatus} {error_message content : String}
    (h : failed tools session agent call status error_message content w = (.ok result, w')) :
    tools.create (record session agent call status none (some error_message)) w.db = .ok w'.db ∧
      result.is_error = true := by
  unfold failed _record_tool_execution at h
  rcases hcreate : tools.create (record session agent call status none (some error_message)) w.db
    with e | db
  · rw [hcreate] at h
    simp at h
  · rw [hcreate, Prod.mk.injEq, Except.ok.injEq] at h
    obtain ⟨rfl, rfl⟩ := h
    exact ⟨rfl, rfl⟩

/-- A call that was answered: an error, before its tool was run or by the tool, or what the
tool returned. Each is recorded. -/
theorem _execute_tool_call_ok
    (h : _execute_tool_call tools session allowed_tools agent call w = (.ok result, w')) :
    (∃ row, row.status ≠ .success ∧ tools.create row w.db = .ok w'.db ∧ result.is_error = true) ∨
      ∃ tool conversation_id answer db₁, tools.get_tool call.name = some tool ∧
        tool.execute session conversation_id call.input w.db = (answer, db₁) ∧
        ((∃ row, row.status ≠ .success ∧ tools.create row db₁ = .ok w'.db ∧
            result.is_error = true) ∨
          ∃ text db₂, answer = .ok text ∧ result = ⟨call.id, text, false⟩ ∧
            tools.create (record session agent call .success (some (_summarise_result text)) none)
              db₁ = .ok db₂ ∧
            w'.db = tools._fold_into_task session call text db₂) := by
  unfold _execute_tool_call at h
  -- the refusals in their order: a tool that is not offered, one that does not exist,
  -- a connection that may not be used
  by_cases hnot : (allowed_tools.any fun names => decide (call.name ∉ names)) = true
  · rw [if_pos hnot] at h
    obtain ⟨hcreate, herror⟩ := failed_ok h
    exact .inl ⟨_, ToolStatus.noConfusion, hcreate, herror⟩
  · rw [if_neg hnot] at h
    rcases htool : tools.get_tool call.name with _ | tool
    · rw [htool] at h
      obtain ⟨hcreate, herror⟩ := failed_ok h
      exact .inl ⟨_, ToolStatus.noConfusion, hcreate, herror⟩
    · rw [htool] at h
      dsimp only at h
      rcases hcheck : checkConnection tools session call w.db with e | ⟨⟩
      · rw [hcheck] at h
        obtain ⟨hcreate, herror⟩ := failed_ok h
        exact .inl ⟨_, outcome_ne_success e, hcreate, herror⟩
      · rw [hcheck] at h
        dsimp only at h
        obtain ⟨conversation_id, hconversation⟩ : ∃ conversation_id, conversation_id
            = if tool.needs_conversation then some session.conversation_id else none := ⟨_, rfl⟩
        -- from here on the tool has run, whatever becomes of its record
        have hrun : run session tool call w
            = ((tool.execute session conversation_id call.input w.db).1,
              ⟨(tool.execute session conversation_id call.input w.db).2, w.ran ++ [call]⟩) := by
          rw [hconversation]
          rfl
        rcases hexecute : tool.execute session conversation_id call.input w.db with ⟨answer, db₁⟩
        rw [hexecute] at hrun
        rw [hrun] at h
        refine .inr ⟨tool, conversation_id, answer, db₁, rfl, hexecute, ?_⟩
        rcases answer with e | text
        · obtain ⟨hcreate, herror⟩ := failed_ok h
          exact .inl ⟨_, outcome_ne_success e, hcreate, herror⟩
        · unfold succeeded _record_tool_execution at h
          rcases hcreate : tools.create
              (record session agent call .success (some (_summarise_result text)) none) db₁
            with e | db₂
          · simp [hcreate] at h
          · simp only [hcreate, Prod.mk.injEq, Except.ok.injEq] at h
            obtain ⟨rfl, rfl⟩ := h
            exact .inr ⟨text, db₂, rfl, rfl, hcreate, rfl⟩

/-- The results of a response's calls carry their identifiers, in their order. -/
theorem executeAll_spec {calls : List (ToolCall ι)} {answer : Except AppException (List ToolResult)}
    (h : executeAll tools session allowed_tools agent calls w = (answer, w')) :
    (∀ call ∈ w'.ran, call ∈ w.ran ∨ call ∈ calls ∧ Allowed allowed_tools call) ∧
      ∀ results, answer = .ok results →
        results.map ToolResult.tool_call_id = calls.map ToolCall.id := by
  induction calls generalizing w answer with
  | nil =>
    rw [executeAll, Prod.mk.injEq] at h
    obtain ⟨rfl, rfl⟩ := h
    exact ⟨fun call hcall => .inl hcall, fun results hok => by rw [← Except.ok.inj hok]; rfl⟩
  | cons call rest ih =>
    rw [executeAll] at h
    -- what the first call ran is what the turn may use
    have hfirst : ∀ {first : Except AppException ToolResult} {w₁ : World S ι},
        _execute_tool_call tools session allowed_tools agent call w = (first, w₁) →
        ∀ c ∈ w₁.ran, c ∈ w.ran ∨ c ∈ call :: rest ∧ Allowed allowed_tools c := by
      intro first w₁ hexecute c hc
      rcases (_execute_tool_call_spec hexecute).1 with hran | ⟨hran, hallowed⟩
      · rw [hran] at hc
        exact .inl hc
      · rw [hran, List.mem_append, List.mem_singleton] at hc
        rcases hc with hc | rfl
        · exact .inl hc
        · exact .inr ⟨List.mem_cons_self, hallowed⟩
    rcases hexecute : _execute_tool_call tools session allowed_tools agent call w
      with ⟨e | result, w₁⟩
    · rw [hexecute] at h
      rw [Prod.mk.injEq] at h
      obtain ⟨rfl, rfl⟩ := h
      exact ⟨hfirst hexecute, fun _ hok => (nomatch hok)⟩
    · rw [hexecute] at h
      dsimp only at h
      have hid := (_execute_tool_call_spec hexecute).2 result rfl
      rcases hrest : executeAll tools session allowed_tools agent rest w₁ with ⟨e | results, w₂⟩
      · rw [hrest, Prod.mk.injEq] at h
        obtain ⟨rfl, rfl⟩ := h
        refine ⟨fun c hc => ?_, fun _ hok => (nomatch hok)⟩
        rcases (ih hrest).1 c hc with hc | ⟨hc, hallowed⟩
        · exact hfirst hexecute c hc
        · exact .inr ⟨List.mem_cons_of_mem _ hc, hallowed⟩
      · rw [hrest, Prod.mk.injEq] at h
        obtain ⟨rfl, rfl⟩ := h
        refine ⟨fun c hc => ?_, fun results' hok => ?_⟩
        · rcases (ih hrest).1 c hc with hc | ⟨hc, hallowed⟩
          · exact hfirst hexecute c hc
          · exact .inr ⟨List.mem_cons_of_mem _ hc, hallowed⟩
        · rw [← Except.ok.inj hok, List.map_cons, List.map_cons, hid, (ih hrest).2 results rfl]

end Results

end PaCopilot.ai
