/-
One turn of the assistant, `_chat_turn` of `ai/orchestrator.py`: the history that is
replayed to the model, and the loop that runs the tools it asks for.

The provider is any function of the requests of the turn. What the loop sends it,
what it runs and what it adds up is kept in a record that it leaves also where the
turn fails, so that it can be said of every run. The invariant of the loop is on the
history: each message that carries calls is followed by their results
([`chat_requests_wellFormed`]).
-/
import PaCopilot.Ai.Chat
import PaCopilot.Tm1.Governance

set_option autoImplicit false

namespace PaCopilot.ai

/-! ## Agents and their tools -/

/-- `AgentPersona`, as far as the orchestrator reads it. -/
structure AgentPersona where
  name : String
  tool_names : Option (List String) := none
  max_tool_rounds : Option ℕ := none
  deriving DecidableEq

def PLAIN_CHAT_TOOL_NAMES : List String :=
  ["lookup_tm1_function", "check_tm1_code", "search_knowledge_base"]

def MAX_TOOL_ROUNDS : ℕ := 5

def MAX_TOOL_ROUNDS_CEILING : ℕ := 15

/-- `_resolve_allowed_tools`: `none` is every registered tool. -/
def _resolve_allowed_tools (persona : Option AgentPersona) (caller_requested_all_tools : Bool) :
    Option (List String) :=
  match persona with
  | some persona => persona.tool_names
  | none => if caller_requested_all_tools then none else some PLAIN_CHAT_TOOL_NAMES

def _resolve_max_tool_rounds (persona : Option AgentPersona) : ℕ :=
  match persona.bind AgentPersona.max_tool_rounds with
  | none | some 0 => MAX_TOOL_ROUNDS
  | some rounds => min rounds MAX_TOOL_ROUNDS_CEILING

/-- Tools the operator must switch on. -/
def MODE_GATED_TOOLS : List (String × governance.Tm1Mode) := [("apply_change", .readwrite)]

/-- A tool that the mode of the deployment allows. -/
def forMode {S ι : Type} (mode : governance.Tm1Mode) (tool : Tool S ι) : Bool :=
  (List.lookup tool.name MODE_GATED_TOOLS).getD mode = mode

def _tools_for_mode {S ι : Type} (mode : governance.Tm1Mode) (tools : List (Tool S ι)) :
    List (Tool S ι) :=
  tools.filter (forMode mode)

/-! ## What the model is sent -/

/-- A stored message. -/
structure AIMessage where
  role : Role
  content : String
  deriving DecidableEq

def HISTORY_LIMIT : ℕ := 40

/-- `_build_history`: the newest messages, from one of the user's on. -/
def _build_history {ι : Type} (messages : List AIMessage) : List (ChatMessage ι) :=
  ((messages.drop (messages.length - HISTORY_LIMIT)).dropWhile fun m => m.role ≠ .user).map
    fun m => { role := m.role, content := m.content }

def _TOOL_BUDGET_EXHAUSTED : String :=
  "You have used all the tool calls available for this turn. Do not "
    ++ "request any more. Give your complete answer now, using only what you "
    ++ "have already gathered. If you were part-way through verifying "
    ++ "something, say plainly which parts you confirmed and which you did "
    ++ "not, so the reader knows what still needs checking. Never present "
    ++ "unverified work as verified."

/-- `_STOP_REASON_NOTICES.get(stop_reason or "")`. -/
def _STOP_REASON_NOTICES (stop_reason : Option String) : Option String :=
  match stop_reason with
  | some "max_tokens" => some ("\n\n_This reply was cut off because it reached the response "
      ++ "size limit. Ask for the remainder, or narrow the question._")
  | some "refusal" => some ("_This request was declined by the model's safety system. "
      ++ "Rephrasing it, or splitting it into smaller steps, usually helps._")
  | _ => none

def _annotate_incomplete (content : String) (stop_reason : Option String) : String :=
  match _STOP_REASON_NOTICES stop_reason with
  | none => content
  | some notice => String.ofList (Python.rstrip content.toList) ++ notice

/-- What the provider says in a round: its text in the pieces it streams, and how it
ends. -/
structure Reply (ι : Type) where
  text : List String
  stop_reason : Option String
  usage : Usage
  tool_calls : Option (List (ToolCall ι)) := none

/-- The provider, from the requests of the turn so far. -/
abbrev Provider (ι : Type) := List (ChatRequest ι) → Except AppException (Reply ι)

/-- `provider.chat` answers with the whole text. -/
def Reply.response {ι : Type} (reply : Reply ι) : ChatResponse ι where
  content := String.join reply.text
  stop_reason := reply.stop_reason
  usage := reply.usage
  tool_calls := reply.tool_calls

/-- The round asks for tools. -/
def asks {ι : Type} (stop_reason : Option String) (tool_calls : Option (List (ToolCall ι))) : Bool :=
  stop_reason = some "tool_use" && !(tool_calls.getD []).isEmpty

/-! ## The loop -/

/-- What is fixed for a turn. -/
structure Turn where
  session : Session
  model : String
  system : Option String
  system_context : Option String
  allowed_tools : Option (List String)
  agent : Option String

/-- What the loop carries along. -/
structure Loop (S ι : Type) where
  world : World S ι
  history : List (ChatMessage ι)
  requests : List (ChatRequest ι) := []
  usage : Usage := Usage.zero
  /-- what the model wrote before it asked for tools -/
  earlier_text : List String := []

section Loop

variable {S ι : Type} (tools : Tools S ι) (provider : Provider ι) (turn : Turn)
  (definitions : List ToolDefinition)

/-- A request with the history as it is. -/
def Loop.send (σ : Loop S ι) (turn : Turn) (definitions : List ToolDefinition) : Loop S ι :=
  { σ with requests := σ.requests ++
      [⟨σ.history, turn.system, turn.system_context, turn.model, definitions⟩] }

/-- `total_… += response.usage.…`. -/
def Loop.charge (σ : Loop S ι) (usage : Usage) : Loop S ι := { σ with usage := σ.usage.add usage }

def Loop.say (σ : Loop S ι) (message : ChatMessage ι) : Loop S ι :=
  { σ with history := σ.history ++ [message] }

/-- A response that is not the last. -/
def Loop.keep (σ : Loop S ι) (content : String) : Loop S ι :=
  let text := Python.strip content.toList
  if text = [] then σ else { σ with earlier_text := σ.earlier_text ++ [String.ofList text] }

/-- The budget ran out: one more request, without tools. -/
def lastRequest (σ : Loop S ι) : Except AppException (ChatResponse ι) × Loop S ι :=
  let σ := (σ.say { role := .user, content := _TOOL_BUDGET_EXHAUSTED }).send turn []
  match provider σ.requests with
  | .error e => (.error e, σ)
  | .ok reply => (.ok reply.response, σ.charge reply.usage)

/-- The calls of a response, and their results, join the history. -/
def answerCalls (response : ChatResponse ι) (σ : Loop S ι) :
    Except AppException Unit × Loop S ι :=
  let calls := response.tool_calls.getD []
  let σ := σ.say { role := .assistant, content := response.content, tool_calls := some calls }
  match executeAll tools turn.session turn.allowed_tools turn.agent calls σ.world with
  | (.error e, world) => (.error e, { σ with world := world })
  | (.ok results, world) =>
    (.ok (), ({ σ with world := world } : Loop S ι).say
      { role := .user, content := "", tool_results := some results })

/-- `for _ in range(max_rounds)`, with its `else`. -/
def rounds : ℕ → Loop S ι → Except AppException (ChatResponse ι) × Loop S ι
  | 0, σ => lastRequest provider turn σ
  | n + 1, σ =>
    let σ := σ.send turn definitions
    match provider σ.requests with
    | .error e => (.error e, σ)
    | .ok reply =>
      let response := reply.response
      let σ := σ.charge response.usage
      -- the model asks for no tool, so this is the answer
      if asks response.stop_reason response.tool_calls = false then
        (.ok { response with
          content := _annotate_incomplete response.content response.stop_reason }, σ)
      else
        match answerCalls tools turn response (σ.keep response.content) with
        | (.error e, σ) => (.error e, σ)
        | (.ok (), σ) => rounds n σ

/-- `_run_tool_loop`. -/
def _run_tool_loop (max_rounds : ℕ) (σ : Loop S ι) :
    Except AppException (ChatResponse ι × Usage) × Loop S ι :=
  match rounds tools provider turn definitions max_rounds σ with
  | (.error e, σ) => (.error e, σ)
  | (.ok response, σ) =>
    let content := if σ.earlier_text = [] then response.content
      else String.ofList (Python.strip
        ("\n\n".intercalate (σ.earlier_text ++ [response.content])).toList)
    (.ok ({ response with content := content }, σ.usage), σ)

end Loop

/-! ## A turn -/

/-- A question to the assistant, with the text of its attachments folded in. -/
structure Question where
  content_for_ai : String
  native_attachments : List Attachment := []
  model : String
  enable_tools : Bool := false
  agent : Option String := none

/-- The rest of what a turn is made with: the mode of the deployment, the agents, the
messages of the conversation, and the system prompt in its two halves. `begin_turn` is
what a turn stores before its first request: the question, and its task. -/
structure Orchestrator (S ι : Type) where
  tools : Tools S ι
  TM1_MODE : governance.Tm1Mode
  get_agent : String → Option AgentPersona
  list_by_conversation : ℕ → S → List AIMessage
  begin_turn : Session → Question → S → S
  _build_tool_system_prompt : Session → Option AgentPersona → Bool → S →
    Option String × Option String

section Turn

variable {S ι : Type} (o : Orchestrator S ι) (provider : Provider ι) (session : Session)
  (question : Question)

/-- `get_agent(agent)`, of a question that names one. -/
def persona : Except AppException (Option AgentPersona) :=
  match question.agent with
  | none => .ok none
  | some agent =>
    match o.get_agent agent with
    | none => .error (ValidationException s!"Unknown agent: {agent}")
    | some found => .ok (some found)

/-- The turn of a persona. -/
def turnOf (persona : Option AgentPersona) (db : S) : Turn :=
  let system := o._build_tool_system_prompt session persona question.enable_tools db
  { session := session
    model := question.model
    system := system.1
    system_context := system.2
    allowed_tools := _resolve_allowed_tools persona question.enable_tools
    agent := persona.map AgentPersona.name }

/-- The history with the question. -/
def opened (db : S) : Loop S ι where
  world := { db := o.begin_turn session question db }
  history := _build_history (o.list_by_conversation session.conversation_id db)
    ++ [{ role := .user, content := question.content_for_ai,
          attachments := if question.native_attachments = [] then none
            else some question.native_attachments }]

/-- The tools of `_run_tool_loop`: those of the mode, and of them those of the turn. -/
def availableTools (turn : Turn) : List ToolDefinition :=
  let available := _tools_for_mode o.TM1_MODE o.tools.TOOLS
  (match turn.allowed_tools with
    | none => available
    | some names => available.filter fun tool => tool.name ∈ names).map Tool.to_definition

/-- `_chat_turn`, up to the answer. -/
def _chat_turn (db : S) : Except AppException (ChatResponse ι × Usage) × Loop S ι :=
  match persona o question with
  | .error e => (.error e, { world := { db := db }, history := [] })
  | .ok persona =>
    let σ := opened o session question db
    let turn := turnOf o session question persona σ.world.db
    _run_tool_loop o.tools provider turn (availableTools o turn)
      (_resolve_max_tool_rounds persona) σ

end Turn

/-! ## Well-formed requests -/

section WellFormed

variable {S ι : Type}

/-- A message of the user's with the results of some calls, in their order. -/
def AnswersCalls (reply : ChatMessage ι) (calls : List (ToolCall ι)) : Prop :=
  reply.role = .user ∧ ∃ results, reply.tool_results = some results ∧
    results.map ToolResult.tool_call_id = calls.map ToolCall.id

/-- Each message that carries calls is followed by their results. -/
def Answered : List (ChatMessage ι) → Prop
  | [] => True
  | [message] => message.tool_calls = none
  | message :: reply :: rest =>
    (∀ calls, message.tool_calls = some calls → AnswersCalls reply calls) ∧
      Answered (reply :: rest)

/-- What the model accepts for a conversation. -/
structure WellFormed (messages : List (ChatMessage ι)) : Prop where
  starts : messages.head?.map ChatMessage.role = some .user
  answered : Answered messages

theorem Answered.append {before after : List (ChatMessage ι)} (hbefore : Answered before)
    (hafter : Answered after) : Answered (before ++ after) := by
  induction before using Answered.induct with
  | case1 => exact hafter
  | case2 message =>
    -- the last message before carries no calls
    rw [Answered] at hbefore
    cases after with
    | nil => exact hbefore
    | cons next rest =>
      refine ⟨fun calls hcalls => ?_, hafter⟩
      rw [hbefore] at hcalls
      cases hcalls
  | case3 message reply rest ih =>
    rw [Answered] at hbefore
    exact ⟨hbefore.1, ih hbefore.2⟩

theorem WellFormed.append {before after : List (ChatMessage ι)} (hbefore : WellFormed before)
    (hafter : Answered after) : WellFormed (before ++ after) where
  starts := by
    cases before with
    | nil =>
      have hstarts := hbefore.starts
      cases hstarts
    | cons first rest => exact hbefore.starts
  answered := hbefore.answered.append hafter

/-- Messages without calls. -/
theorem answered_of_none {messages : List (ChatMessage ι)}
    (h : ∀ m ∈ messages, m.tool_calls = none) : Answered messages := by
  induction messages using Answered.induct with
  | case1 => trivial
  | case2 message => exact h message List.mem_cons_self
  | case3 message reply rest ih =>
    refine ⟨fun calls hcalls => ?_, ih fun m hm => h m (List.mem_cons_of_mem _ hm)⟩
    rw [h message List.mem_cons_self] at hcalls
    cases hcalls

/-- The history that is replayed is empty, or starts with a message of the user's. -/
theorem build_history_starts (messages : List AIMessage) :
    ((_build_history messages : List (ChatMessage ι)) = []) ∨
      (_build_history messages : List (ChatMessage ι)).head?.map ChatMessage.role = some .user := by
  unfold _build_history
  induction messages.drop (messages.length - HISTORY_LIMIT) with
  | nil => exact .inl rfl
  | cons first rest ih =>
    by_cases huser : first.role = .user
    · right
      rw [List.dropWhile_cons_of_neg (by simp [huser]), List.map_cons, List.head?_cons,
        Option.map_some, huser]
    · rw [List.dropWhile_cons_of_pos (by simp [huser])]
      exact ih

/-- The history with the question is well formed. -/
theorem opened_wellFormed (o : Orchestrator S ι) (session : Session) (question : Question) (db : S) :
    WellFormed (opened o session question db).history where
  starts := by
    rcases build_history_starts (ι := ι) (o.list_by_conversation session.conversation_id db)
      with hempty | hstarts
    · rw [opened, hempty]
      rfl
    · rw [opened]
      dsimp only
      rw [List.head?_append]
      rcases hhead : (_build_history (o.list_by_conversation session.conversation_id db) :
          List (ChatMessage ι)).head? with _ | first
      · rw [hhead] at hstarts
        cases hstarts
      · rw [hhead] at hstarts
        exact hstarts
  answered := by
    rw [opened]
    refine (answered_of_none fun m hm => ?_).append (answered_of_none fun m hm => ?_)
    · obtain ⟨stored, -, rfl⟩ := List.mem_map.mp hm
      rfl
    · rw [List.mem_singleton.mp hm]

variable {tools : Tools S ι} {provider : Provider ι} {turn : Turn}
  {definitions : List ToolDefinition} {σ : Loop S ι}

/-- What may be said of a turn at any time. -/
structure Loop.Sound (turn : Turn) (σ : Loop S ι) : Prop where
  requests : ∀ request ∈ σ.requests, WellFormed request.messages
  ran : ∀ call ∈ σ.world.ran, Allowed turn.allowed_tools call

/-- Between two rounds the history may be sent as it is. -/
structure Loop.Ready (turn : Turn) (σ : Loop S ι) : Prop extends Loop.Sound turn σ where
  history : WellFormed σ.history

theorem Loop.Ready.send (h : σ.Ready turn) (offered : List ToolDefinition) :
    (σ.send turn offered).Ready turn where
  requests := by
    intro request hrequest
    rw [Loop.send] at hrequest
    dsimp only at hrequest
    rw [List.mem_append, List.mem_singleton] at hrequest
    rcases hrequest with hrequest | rfl
    · exact h.requests request hrequest
    · exact h.history
  ran := h.ran
  history := h.history

theorem Loop.Ready.charge (h : σ.Ready turn) (usage : Usage) : (σ.charge usage).Ready turn :=
  ⟨⟨h.requests, h.ran⟩, h.history⟩

theorem Loop.Ready.keep (h : σ.Ready turn) (content : String) : (σ.keep content).Ready turn := by
  unfold Loop.keep
  dsimp only
  split
  · exact h
  · exact ⟨⟨h.requests, h.ran⟩, h.history⟩

theorem Loop.Ready.say (h : σ.Ready turn) {message : ChatMessage ι}
    (hmessage : message.tool_calls = none) : (σ.say message).Ready turn :=
  ⟨⟨h.requests, h.ran⟩, h.history.append hmessage⟩

theorem Loop.keep_requests (content : String) : (σ.keep content).requests = σ.requests := by
  unfold Loop.keep
  dsimp only
  split <;> rfl

theorem answerCalls_requests (tools : Tools S ι) (turn : Turn) (response : ChatResponse ι)
    (σ : Loop S ι) :
    (answerCalls tools turn response σ).2.requests = σ.requests := by
  unfold answerCalls
  dsimp only
  split <;> rfl

/-- Every call that has run is an allowed one. -/
theorem Loop.Sound.ran_executeAll {calls : List (ToolCall ι)}
    {answer : Except AppException (List ToolResult)} {world : World S ι} (h : σ.Sound turn)
    (hrun : executeAll tools turn.session turn.allowed_tools turn.agent calls σ.world
      = (answer, world)) : ∀ call ∈ world.ran, Allowed turn.allowed_tools call := by
  intro call hcall
  rcases (executeAll_spec hrun).1 call hcall with hbefore | ⟨-, hallowed⟩
  · exact h.ran call hbefore
  · exact hallowed

/-- Calls that are answered leave a history that may be sent. -/
theorem answerCalls_ready {response : ChatResponse ι} {answer : Except AppException Unit}
    {σ' : Loop S ι} (h : σ.Ready turn) (hrun : answerCalls tools turn response σ = (answer, σ')) :
    σ'.Sound turn ∧ σ'.requests = σ.requests ∧ (answer = .ok () → σ'.Ready turn) := by
  unfold answerCalls at hrun
  dsimp only [Loop.say] at hrun
  rcases hexecute : executeAll tools turn.session turn.allowed_tools turn.agent
      (response.tool_calls.getD []) σ.world with ⟨e | results, world⟩
  · have hran := h.ran_executeAll hexecute
    rw [hexecute] at hrun
    obtain ⟨rfl, rfl⟩ := Prod.mk.inj hrun
    exact ⟨⟨h.requests, hran⟩, rfl, fun hok => (nomatch hok)⟩
  · have hran := h.ran_executeAll hexecute
    have hids := (executeAll_spec hexecute).2 results rfl
    rw [hexecute] at hrun
    obtain ⟨rfl, rfl⟩ := Prod.mk.inj hrun
    refine ⟨⟨h.requests, hran⟩, rfl, fun _ => ⟨⟨h.requests, hran⟩, ?_⟩⟩
    -- the two messages go together
    show WellFormed ((σ.history ++ [_]) ++ [_])
    rw [List.append_assoc]
    refine h.history.append ⟨fun calls hcalls => ?_, rfl⟩
    rw [← Option.some.inj hcalls]
    exact ⟨rfl, results, rfl, hids⟩

theorem lastRequest_sound (h : σ.Ready turn) :
    (lastRequest provider turn σ).2.Sound turn ∧
      (lastRequest provider turn σ).2.requests.length = σ.requests.length + 1 := by
  have hsent : ((σ.say { role := .user, content := _TOOL_BUDGET_EXHAUSTED }).send turn []).Ready
      turn := (h.say rfl).send []
  have hcount : ((σ.say { role := .user, content := _TOOL_BUDGET_EXHAUSTED }).send turn
      []).requests.length = σ.requests.length + 1 := by
    rw [Loop.send, List.length_append]
    rfl
  unfold lastRequest
  dsimp only
  split
  · exact ⟨hsent.toSound, hcount⟩
  · exact ⟨(hsent.charge _).toSound, hcount⟩

/-- The rounds send only what is well formed and run only what is allowed, and send at
most one request more than there are rounds. -/
theorem rounds_sound {n : ℕ} (h : σ.Ready turn) :
    (rounds tools provider turn definitions n σ).2.Sound turn ∧
      (rounds tools provider turn definitions n σ).2.requests.length
        ≤ σ.requests.length + n + 1 := by
  induction n generalizing σ with
  | zero =>
    -- no rounds are left: one request without tools
    have hlast : (lastRequest provider turn σ).2.Sound turn ∧ _ := lastRequest_sound h
    exact ⟨hlast.1, Nat.le_of_eq hlast.2⟩
  | succ n ih =>
    have hsent := h.send definitions
    have hcount : (σ.send turn definitions).requests.length = σ.requests.length + 1 := by
      rw [Loop.send, List.length_append]
      rfl
    rw [rounds]
    dsimp only
    rcases provider (σ.send turn definitions).requests with e | reply
    · exact ⟨hsent.toSound, by dsimp only; omega⟩
    · dsimp only
      have hcharged := hsent.charge reply.response.usage
      have hcharge : ((σ.send turn definitions).charge reply.response.usage).requests.length
          = σ.requests.length + 1 := hcount
      by_cases hasks : asks reply.response.stop_reason reply.response.tool_calls = false
      · rw [if_pos hasks]
        exact ⟨hcharged.toSound, by dsimp only; omega⟩
      · rw [if_neg hasks]
        rcases hanswer : answerCalls tools turn reply.response
            (((σ.send turn definitions).charge reply.response.usage).keep reply.response.content)
          with ⟨e | ⟨⟩, σ'⟩
        · obtain ⟨hsound, hrequests, -⟩ := answerCalls_ready (hcharged.keep _) hanswer
          rw [Loop.keep_requests] at hrequests
          exact ⟨hsound, by dsimp only; rw [hrequests]; omega⟩
        -- every call has its answer, so the next round begins well formed
        · obtain ⟨-, hrequests, hready⟩ := answerCalls_ready (hcharged.keep _) hanswer
          rw [Loop.keep_requests] at hrequests
          obtain ⟨hsound, hlength⟩ := ih (hready rfl)
          rw [hrequests] at hlength
          exact ⟨hsound, by dsimp only; omega⟩

theorem run_tool_loop_state (max_rounds : ℕ) :
    (_run_tool_loop tools provider turn definitions max_rounds σ).2
      = (rounds tools provider turn definitions max_rounds σ).2 := by
  unfold _run_tool_loop
  split <;> simp only [*]

/-- **Every request is well formed.** Whatever the provider says, the tools do and the
conversation holds: what is sent starts with a message of the user's, each message with
calls is followed by one with their results in their order, no tool is run that the
turn may not use, and the provider is asked at most once more than there are rounds. -/
theorem chat_requests_wellFormed (o : Orchestrator S ι) (provider : Provider ι)
    (session : Session) (question : Question) (db : S) :
    (∀ request ∈ (_chat_turn o provider session question db).2.requests,
        WellFormed request.messages) ∧
      (∀ call ∈ (_chat_turn o provider session question db).2.world.ran,
        Allowed (_resolve_allowed_tools (question.agent.bind o.get_agent) question.enable_tools)
          call) ∧
      (_chat_turn o provider session question db).2.requests.length
        ≤ _resolve_max_tool_rounds (question.agent.bind o.get_agent) + 1 := by
  rcases hpersona : persona o question with e | found
  -- an agent that does not exist: the turn ends before anything is sent
  · rw [_chat_turn, hpersona]
    exact ⟨fun _ h => (nomatch h), fun _ h => (nomatch h), Nat.zero_le _⟩
  · have hfound : question.agent.bind o.get_agent = found := by
      unfold persona at hpersona
      rcases hagent : question.agent with _ | agent
      · rw [hagent] at hpersona
        exact Except.ok.inj hpersona
      · rw [hagent] at hpersona
        dsimp only at hpersona
        rcases hget : o.get_agent agent with _ | known
        · rw [hget] at hpersona
          cases hpersona
        · rw [hget] at hpersona
          rw [← Except.ok.inj hpersona]
          exact hget
    rw [_chat_turn, hpersona, hfound]
    dsimp only
    rw [run_tool_loop_state]
    -- nothing is sent yet, and the opening is well formed
    have hready : (opened o session question db).Ready
        (turnOf o session question found (opened o session question db).world.db) :=
      ⟨⟨fun _ h => (nomatch h), fun _ h => (nomatch h)⟩, opened_wellFormed o session question db⟩
    obtain ⟨hsound, hlength⟩ : (rounds o.tools provider _ (availableTools o
        (turnOf o session question found (opened o session question db).world.db))
        (_resolve_max_tool_rounds found) _).2.Sound _ ∧ _ := rounds_sound hready
    exact ⟨hsound.requests, hsound.ran, by
      have hnone : (opened o session question db).requests.length = 0 := rfl
      omega⟩

end WellFormed

end PaCopilot.ai
