/-
A turn whose answer is streamed, `_stream_turn` of `ai/orchestrator.py`, beside the one
that is not.

The loop is written a second time there, over the events of the provider's stream. It
ends where the other one ends, and also after the first round of a turn that has
neither an agent nor its tools switched on: such a turn is offered the tools of plain
chat, and when the model asks for one of them it is not run
([`stream_agrees_iff`]).
-/
import PaCopilot.Ai.Loop

set_option autoImplicit false

namespace PaCopilot.ai

/-! ## The events of a stream -/

/-- `StreamEvent`. -/
inductive StreamEvent (ι : Type)
  | text_delta (text : String)
  | message_stop (usage : Option Usage) (tool_calls : Option (List (ToolCall ι)))
    (stop_reason : Option String)

/-- `provider.stream_chat` says piece by piece what `provider.chat` says at once. -/
def Reply.events {ι : Type} (reply : Reply ι) : List (StreamEvent ι) :=
  reply.text.map .text_delta ++ [.message_stop (some reply.usage) reply.tool_calls reply.stop_reason]

/-- What the turn has read of a round. -/
structure Round (ι : Type) where
  content_parts : List String := []
  usage : Option Usage := none
  tool_calls : Option (List (ToolCall ι)) := none
  stop_reason : Option String := none

/-- `async for event in provider.stream_chat(request)`. -/
def consume {ι : Type} (round : Round ι) : List (StreamEvent ι) → Round ι
  | [] => round
  | .text_delta text :: rest =>
    consume { round with content_parts := round.content_parts ++ [text] } rest
  | .message_stop usage tool_calls stop_reason :: rest =>
    consume { round with usage := usage, tool_calls := tool_calls, stop_reason := stop_reason } rest

/-- The stream of a reply is read as the reply. -/
theorem consume_events {ι : Type} (reply : Reply ι) :
    consume {} reply.events
      = ⟨reply.text, some reply.usage, reply.tool_calls, reply.stop_reason⟩ := by
  have hparts : ∀ (text : List String) (round : Round ι) (rest : List (StreamEvent ι)),
      consume round (text.map .text_delta ++ rest)
        = consume { round with content_parts := round.content_parts ++ text } rest := by
    intro text
    induction text with
    | nil =>
      intro round rest
      rw [List.append_nil]
      rfl
    | cons piece text ih =>
      intro round rest
      rw [List.map_cons, List.cons_append, consume, ih, List.append_assoc]
      rfl
  rw [Reply.events, hparts]
  rfl

/-! ## The loop -/

/-- What the turn sends to the browser of a round. -/
inductive OrchestratedStreamEvent
  | text_delta (text : String)
  | tool_call (tool_name : String) (is_error : Bool)
  deriving DecidableEq

/-- What the streaming loop carries along. -/
structure StreamLoop (S ι : Type) where
  world : World S ι
  history : List (ChatMessage ι)
  requests : List (ChatRequest ι) := []
  usage : Usage := Usage.zero
  final_content_parts : List String := []
  yielded : List OrchestratedStreamEvent := []

section Loop

variable {S ι : Type} (tools : Tools S ι) (provider : Provider ι) (turn : Turn)
  (definitions : List ToolDefinition)

def StreamLoop.send (τ : StreamLoop S ι) (turn : Turn) (definitions : List ToolDefinition) :
    StreamLoop S ι :=
  { τ with requests := τ.requests ++
      [⟨τ.history, turn.system, turn.system_context, turn.model, definitions⟩] }

/-- A round that was read: its usage where it came with one, and its text. -/
def StreamLoop.read (τ : StreamLoop S ι) (round : Round ι) : StreamLoop S ι :=
  { τ with
    usage := match round.usage with
      | none => τ.usage
      | some usage => τ.usage.add usage
    final_content_parts := τ.final_content_parts ++ round.content_parts
    yielded := τ.yielded ++ round.content_parts.map .text_delta }

def StreamLoop.say (τ : StreamLoop S ι) (message : ChatMessage ι) : StreamLoop S ι :=
  { τ with history := τ.history ++ [message] }

/-- `for tool_call in round_tool_calls`. -/
def streamCalls (tool_results : List ToolResult) : List (ToolCall ι) → StreamLoop S ι →
    Except AppException (List ToolResult) × StreamLoop S ι
  | [], τ => (.ok tool_results, τ)
  | call :: rest, τ =>
    match _execute_tool_call tools turn.session turn.allowed_tools turn.agent call τ.world with
    | (.error e, world) => (.error e, { τ with world := world })
    | (.ok result, world) =>
      streamCalls (tool_results ++ [result]) rest
        { τ with world := world, yielded := τ.yielded ++ [.tool_call call.name result.is_error] }

/-- The calls of a round, and their results, join the history. -/
def streamAnswer (round : Round ι) (τ : StreamLoop S ι) :
    Except AppException Unit × StreamLoop S ι :=
  let calls := round.tool_calls.getD []
  let τ := τ.say
    { role := .assistant, content := String.join round.content_parts, tool_calls := some calls }
  match streamCalls tools turn [] calls τ with
  | (.error e, τ) => (.error e, τ)
  | (.ok tool_results, τ) =>
    (.ok (), τ.say { role := .user, content := "", tool_results := some tool_results })

/-- The budget ran out. -/
def streamLast (τ : StreamLoop S ι) : Except AppException Unit × StreamLoop S ι :=
  let τ := (τ.say { role := .user, content := _TOOL_BUDGET_EXHAUSTED }).send turn []
  match provider τ.requests with
  | .error e => (.error e, τ)
  | .ok reply => (.ok (), τ.read (consume {} reply.events))

/-- `for _ in range(max_rounds)`, with its `else`. -/
def streamRounds (enable_tools : Bool) : ℕ → StreamLoop S ι →
    Except AppException Unit × StreamLoop S ι
  | 0, τ => streamLast provider turn τ
  | n + 1, τ =>
    let τ := τ.send turn definitions
    match provider τ.requests with
    | .error e => (.error e, τ)
    | .ok reply =>
      let round := consume {} reply.events
      -- what is read is sent on at once, whatever the round comes to
      let τ := τ.read round
      if enable_tools = false ∨ asks round.stop_reason round.tool_calls = false then (.ok (), τ)
      else
        match streamAnswer tools turn round τ with
        | (.error e, τ) => (.error e, τ)
        | (.ok (), τ) => streamRounds enable_tools n τ

end Loop

/-! ## The turn -/

section Turn

variable {S ι : Type} (o : Orchestrator S ι) (provider : Provider ι) (session : Session)
  (question : Question)

/-- The tools of `_stream_turn`: those of the turn, and of them those of the mode. -/
def streamTools (turn : Turn) : List ToolDefinition :=
  (_tools_for_mode o.TM1_MODE
    (match turn.allowed_tools with
      | none => o.tools.TOOLS
      | some names => o.tools.TOOLS.filter fun tool => tool.name ∈ names)).map Tool.to_definition

/-- `_stream_turn`, up to the answer. -/
def _stream_turn (db : S) : Except AppException Unit × StreamLoop S ι :=
  match persona o question with
  | .error e => (.error e, { world := { db := db }, history := [] })
  | .ok persona =>
    let enable_tools := question.enable_tools || question.agent.isSome
    let σ := opened o session question db
    let turn := turnOf o session question persona σ.world.db
    streamRounds o.tools provider turn (streamTools o turn) enable_tools
      (_resolve_max_tool_rounds persona) { world := σ.world, history := σ.history }

end Turn

/-! ## Two loops side by side -/

section Agree

variable {S ι : Type} {tools : Tools S ι} {provider : Provider ι} {turn : Turn}
  {definitions : List ToolDefinition} {σ : Loop S ι} {τ : StreamLoop S ι}

/-- The two loops have run the same calls, sent the same requests and added up the same
usage. -/
structure Alike (σ : Loop S ι) (τ : StreamLoop S ι) : Prop where
  world : τ.world = σ.world
  requests : τ.requests = σ.requests
  usage : τ.usage = σ.usage

/-- And have the same history. -/
structure Abreast (σ : Loop S ι) (τ : StreamLoop S ι) : Prop extends Alike σ τ where
  history : τ.history = σ.history

/-- Two turns that both end, or fail alike. -/
def SameEnd {α β : Type} (x : Except AppException α) (y : Except AppException β) : Prop :=
  x.map (fun _ => ()) = y.map (fun _ => ())

theorem Abreast.send (h : Abreast σ τ) (turn : Turn) (offered : List ToolDefinition) :
    Abreast (σ.send turn offered) (τ.send turn offered) where
  world := h.world
  requests := by rw [Loop.send, StreamLoop.send, h.requests, h.history]
  usage := h.usage
  history := h.history

theorem Abreast.say (h : Abreast σ τ) (message : ChatMessage ι) :
    Abreast (σ.say message) (τ.say message) where
  world := h.world
  requests := h.requests
  usage := h.usage
  history := by rw [Loop.say, StreamLoop.say, h.history]

theorem Abreast.read (h : Abreast σ τ) (reply : Reply ι) :
    Abreast (σ.charge reply.response.usage) (τ.read (consume {} reply.events)) where
  world := h.world
  requests := h.requests
  usage := by
    rw [consume_events]
    show τ.usage.add reply.usage = σ.usage.add reply.usage
    rw [h.usage]
  history := h.history

theorem Abreast.keep (h : Abreast σ τ) (content : String) : Abreast (σ.keep content) τ := by
  unfold Loop.keep
  dsimp only
  split
  · exact h
  · exact ⟨⟨h.world, h.requests, h.usage⟩, h.history⟩

/-- The calls of a round are run as `executeAll` runs them. -/
theorem streamCalls_eq (calls : List (ToolCall ι)) (done : List ToolResult) (τ : StreamLoop S ι) :
    ∃ yielded, streamCalls tools turn done calls τ
      = (((executeAll tools turn.session turn.allowed_tools turn.agent calls τ.world).1.map
            (done ++ ·)),
        { τ with
          world :=
            (executeAll tools turn.session turn.allowed_tools turn.agent calls τ.world).2
          yielded := yielded }) := by
  induction calls generalizing done τ with
  | nil =>
    refine ⟨τ.yielded, ?_⟩
    rw [streamCalls, executeAll, Except.map, List.append_nil]
  | cons call rest ih =>
    rw [streamCalls, executeAll]
    rcases _execute_tool_call tools turn.session turn.allowed_tools turn.agent call τ.world
      with ⟨e | result, world⟩
    · exact ⟨τ.yielded, rfl⟩
    · dsimp only
      obtain ⟨yielded, hrest⟩ := ih (done ++ [result])
        { τ with world := world, yielded := τ.yielded ++ [.tool_call call.name result.is_error] }
      refine ⟨yielded, ?_⟩
      rw [hrest]
      dsimp only
      rcases executeAll tools turn.session turn.allowed_tools turn.agent rest world
        with ⟨e | results, world'⟩
      · rfl
      · dsimp only [Except.map]
        rw [List.append_assoc]
        rfl

/-- The calls of a reply are answered alike. -/
theorem streamAnswer_abreast (h : Abreast σ τ) (reply : Reply ι) :
    Alike (answerCalls tools turn reply.response σ).2
        (streamAnswer tools turn
          ⟨reply.text, some reply.usage, reply.tool_calls, reply.stop_reason⟩ τ).2 ∧
      SameEnd (answerCalls tools turn reply.response σ).1
        (streamAnswer tools turn
          ⟨reply.text, some reply.usage, reply.tool_calls, reply.stop_reason⟩ τ).1 ∧
      ((answerCalls tools turn reply.response σ).1 = .ok () →
        Abreast (answerCalls tools turn reply.response σ).2
          (streamAnswer tools turn
            ⟨reply.text, some reply.usage, reply.tool_calls, reply.stop_reason⟩ τ).2) := by
  have hasked : Abreast
      (σ.say { role := .assistant, content := String.join reply.text,
               tool_calls := some (reply.tool_calls.getD []) })
      (τ.say { role := .assistant, content := String.join reply.text,
               tool_calls := some (reply.tool_calls.getD []) }) := h.say _
  unfold answerCalls streamAnswer
  dsimp only [Reply.response]
  obtain ⟨yielded, hcalls⟩ := streamCalls_eq (reply.tool_calls.getD []) []
    (τ.say { role := .assistant, content := String.join reply.text,
             tool_calls := some (reply.tool_calls.getD []) })
  rw [hcalls, hasked.world]
  rcases executeAll tools turn.session turn.allowed_tools turn.agent (reply.tool_calls.getD [])
      (σ.say { role := .assistant, content := String.join reply.text,
               tool_calls := some (reply.tool_calls.getD []) }).world with ⟨e | results, world⟩
  · exact ⟨⟨rfl, hasked.requests, hasked.usage⟩, rfl, fun hok => (nomatch hok)⟩
  · dsimp only [Except.map]
    rw [List.nil_append]
    refine ⟨⟨rfl, hasked.requests, hasked.usage⟩, rfl, fun _ => ?_⟩
    refine ⟨⟨rfl, hasked.requests, hasked.usage⟩, ?_⟩
    rw [StreamLoop.say, Loop.say]
    dsimp only
    rw [hasked.history]

/-- With its tools switched on the streaming loop runs like the other one. -/
theorem streamRounds_alike {n : ℕ} (h : Abreast σ τ) :
    Alike (rounds tools provider turn definitions n σ).2
        (streamRounds tools provider turn definitions true n τ).2 ∧
      SameEnd (rounds tools provider turn definitions n σ).1
        (streamRounds tools provider turn definitions true n τ).1 := by
  induction n generalizing σ τ with
  | zero =>
    have hsent := (h.say { role := .user, content := _TOOL_BUDGET_EXHAUSTED }).send turn []
    rw [rounds, streamRounds, lastRequest, streamLast]
    rw [hsent.requests]
    rcases provider ((σ.say { role := .user, content := _TOOL_BUDGET_EXHAUSTED }).send turn
      []).requests with e | reply
    · exact ⟨hsent.toAlike, rfl⟩
    · exact ⟨(hsent.read reply).toAlike, rfl⟩
  | succ n ih =>
    have hsent := h.send turn definitions
    rw [rounds, streamRounds]
    dsimp only
    rw [hsent.requests]
    rcases provider (σ.send turn definitions).requests with e | reply
    · exact ⟨hsent.toAlike, rfl⟩
    · have hread := hsent.read reply
      dsimp only
      rw [consume_events] at hread ⊢
      dsimp only
      by_cases hasks : asks reply.stop_reason reply.tool_calls = false
      · rw [if_pos (show asks reply.response.stop_reason reply.response.tool_calls = false from hasks),
          if_pos (.inr hasks)]
        exact ⟨hread.toAlike, rfl⟩
      · rw [if_neg (show ¬ asks reply.response.stop_reason reply.response.tool_calls = false
            from hasks),
          if_neg (by rw [not_or]; exact ⟨Bool.true_eq_false_eq_False, hasks⟩)]
        -- the same calls are run in the same world, and their results said
        obtain ⟨halike, hend, habreast⟩ :=
          streamAnswer_abreast (hread.keep reply.response.content) reply
        revert halike hend habreast
        rcases answerCalls tools turn reply.response
          (((σ.send turn definitions).charge reply.response.usage).keep reply.response.content)
          with ⟨e | ⟨⟩, σ'⟩
        · rcases streamAnswer tools turn _ _ with ⟨e' | ⟨⟩, τ'⟩
          · exact fun halike hend _ => ⟨halike, hend⟩
          · intro _ hend _
            cases hend
        · rcases streamAnswer tools turn _ _ with ⟨e' | ⟨⟩, τ'⟩
          · intro _ hend _
            cases hend
          · exact fun _ _ habreast => ih (habreast rfl)

/-- The rounds send something. -/
theorem rounds_send (tools : Tools S ι) (provider : Provider ι) (turn : Turn)
    (definitions : List ToolDefinition) (n : ℕ) (σ : Loop S ι) :
    σ.requests.length < (rounds tools provider turn definitions n σ).2.requests.length := by
  induction n generalizing σ with
  | zero =>
    rw [rounds, lastRequest]
    -- the last round sends once, and without tools
    have hcount : ((σ.say { role := .user, content := _TOOL_BUDGET_EXHAUSTED }).send turn
        []).requests.length = σ.requests.length + 1 := by
      rw [Loop.send, List.length_append]
      rfl
    split
    · dsimp only
      omega
    · dsimp only [Loop.charge]
      omega
  | succ n ih =>
    have hcount : (σ.send turn definitions).requests.length = σ.requests.length + 1 := by
      rw [Loop.send, List.length_append]
      rfl
    rw [rounds]
    dsimp only
    rcases provider (σ.send turn definitions).requests with e | reply
    · dsimp only
      omega
    · dsimp only
      split
      · dsimp only [Loop.charge]
        omega
      -- answering calls sends nothing to the model
      · have hrequests := answerCalls_requests tools turn reply.response
          (((σ.send turn definitions).charge reply.response.usage).keep reply.response.content)
        rw [Loop.keep_requests] at hrequests
        rcases hanswer : answerCalls tools turn reply.response
            (((σ.send turn definitions).charge reply.response.usage).keep reply.response.content)
          with ⟨e | ⟨⟩, σ'⟩
        · rw [hanswer] at hrequests
          dsimp only at hrequests ⊢
          rw [hrequests]
          dsimp only [Loop.charge]
          omega
        · rw [hanswer] at hrequests
          have hmore := ih σ'
          dsimp only at hrequests ⊢
          rw [hrequests] at hmore
          dsimp only [Loop.charge] at hmore
          omega

/-- Without tools the streaming loop ends after its first round, and the other one only
if that asks for no tool. -/
theorem plain_alike_iff (tools : Tools S ι) (n : ℕ) (h : Abreast σ τ) :
    (Alike (rounds tools provider turn definitions (n + 1) σ).2
        (streamRounds tools provider turn definitions false (n + 1) τ).2 ∧
      SameEnd (rounds tools provider turn definitions (n + 1) σ).1
        (streamRounds tools provider turn definitions false (n + 1) τ).1) ↔
      ∀ reply, provider (σ.send turn definitions).requests = .ok reply →
        asks reply.stop_reason reply.tool_calls = false := by
  have hsent := h.send turn definitions
  rw [rounds, streamRounds]
  dsimp only
  rw [hsent.requests]
  rcases provider (σ.send turn definitions).requests with e | reply
  · refine ⟨fun _ _ hreply => ?_, fun _ => ⟨hsent.toAlike, rfl⟩⟩
    cases hreply
  · have hread := hsent.read reply
    dsimp only
    rw [if_pos (show false = false ∨ asks (consume {} reply.events).stop_reason
      (consume {} reply.events).tool_calls = false from .inl rfl)]
    by_cases hasks : asks reply.response.stop_reason reply.response.tool_calls = false
    · rw [if_pos hasks]
      refine ⟨fun _ other hother => ?_, fun _ => ⟨hread.toAlike, rfl⟩⟩
      rw [← Except.ok.inj hother]
      exact hasks
    · rw [if_neg hasks]
      refine ⟨fun hagree => ?_, fun hnone => absurd (hnone reply rfl) hasks⟩
      exfalso
      revert hagree
      have hrequests := answerCalls_requests tools turn reply.response
        (((σ.send turn definitions).charge reply.response.usage).keep reply.response.content)
      rw [Loop.keep_requests] at hrequests
      rcases hanswer : answerCalls tools turn reply.response
          (((σ.send turn definitions).charge reply.response.usage).keep reply.response.content)
        with ⟨e | ⟨⟩, σ'⟩
      · intro hagree
        cases hagree.2
      · rintro ⟨halike, -⟩
        rw [hanswer] at hrequests
        -- the next round sends a request that the streaming loop does not
        have hmore := rounds_send tools provider turn definitions n σ'
        have hsame := congrArg List.length halike.requests
        have hread' := congrArg List.length hread.requests
        dsimp only [Loop.charge] at hrequests hsame hread' hmore
        rw [hrequests] at hmore
        omega

theorem run_tool_loop_end (n : ℕ) (σ : Loop S ι) :
    SameEnd (_run_tool_loop tools provider turn definitions n σ).1
      (rounds tools provider turn definitions n σ).1 := by
  unfold _run_tool_loop
  rcases rounds tools provider turn definitions n σ with ⟨e | response, σ'⟩
  · rfl
  · rfl

end Agree

section Turns

variable {S ι : Type} (o : Orchestrator S ι) (provider : Provider ι) (session : Session)
  (question : Question)

/-- The two turns offer the same tools. -/
theorem streamTools_eq (turn : Turn) : streamTools o turn = availableTools o turn := by
  unfold streamTools availableTools _tools_for_mode
  rcases turn.allowed_tools with _ | names
  · rfl
  · dsimp only
    rw [List.filter_filter, List.filter_filter]
    congr 1
    apply List.filter_congr
    intro tool _
    rw [Bool.and_comm]

/-- The two turns run the same calls with the same arguments in the same order, send the
same requests, add up the same usage, and end alike. -/
structure TurnsAgree (db : S) : Prop where
  alike : Alike (_chat_turn o provider session question db).2
    (_stream_turn o provider session question db).2
  ends : SameEnd (_chat_turn o provider session question db).1
    (_stream_turn o provider session question db).1

/-- What a turn of plain chat asks the model first. -/
def firstRequest (db : S) : ChatRequest ι :=
  let σ := opened o session question db
  let turn := turnOf o session question none σ.world.db
  ⟨σ.history, turn.system, turn.system_context, turn.model, availableTools o turn⟩

variable {o} {provider} {session} {question} {db : S}

theorem opened_abreast :
    Abreast (opened o session question db)
      { world := (opened o session question db).world,
        history := (opened o session question db).history } :=
  ⟨⟨rfl, rfl, rfl⟩, rfl⟩

/-- With an agent, or its tools switched on, the streamed turn runs like the other. -/
theorem turnsAgree_of_tools (h : (question.enable_tools || question.agent.isSome) = true) :
    TurnsAgree o provider session question db := by
  rcases hpersona : persona o question with e | found
  · constructor
    · rw [_chat_turn, _stream_turn, hpersona]
      exact ⟨rfl, rfl, rfl⟩
    · rw [_chat_turn, _stream_turn, hpersona]
      rfl
  · obtain ⟨halike, hend⟩ : Alike (rounds o.tools provider
          (turnOf o session question found (opened o session question db).world.db) _
          (_resolve_max_tool_rounds found) (opened o session question db)).2
          (streamRounds o.tools provider _ (availableTools o
            (turnOf o session question found (opened o session question db).world.db)) true
            (_resolve_max_tool_rounds found) _).2 ∧ _ := streamRounds_alike opened_abreast
    constructor
    · rw [_chat_turn, _stream_turn, hpersona]
      dsimp only
      rw [run_tool_loop_state, h, streamTools_eq]
      exact halike
    · rw [_chat_turn, _stream_turn, hpersona]
      dsimp only
      rw [h, streamTools_eq]
      exact (run_tool_loop_end _ _).trans hend

/-- **When a streamed turn agrees with one that is not.** Exactly when the turn has an
agent or its tools switched on, or the model does not ask for a tool right away. -/
theorem stream_agrees_iff (o : Orchestrator S ι) (provider : Provider ι) (session : Session)
    (question : Question) (db : S) :
    TurnsAgree o provider session question db ↔
      question.enable_tools = true ∨ question.agent.isSome = true ∨
        ∀ reply, provider [firstRequest o session question db] = .ok reply →
          asks reply.stop_reason reply.tool_calls = false := by
  by_cases htools : (question.enable_tools || question.agent.isSome) = true
  · refine ⟨fun _ => ?_, fun _ => turnsAgree_of_tools htools⟩
    rw [Bool.or_eq_true] at htools
    exact htools.elim .inl fun h => .inr (.inl h)
  · rw [Bool.not_eq_true, Bool.or_eq_false_iff] at htools
    obtain ⟨hdisabled, hagent⟩ := htools
    rw [Option.isSome_eq_false_iff, Option.isNone_iff_eq_none] at hagent
    have hpersona : persona o question = .ok none := by
      rw [persona, hagent]
    -- plain chat has five rounds
    generalize hturn : turnOf o session question none (opened o session question db).world.db
      = turn
    have hchat : _chat_turn o provider session question db
        = _run_tool_loop o.tools provider turn (availableTools o turn) (4 + 1)
            (opened o session question db) := by
      rw [_chat_turn, hpersona, ← hturn]
      rfl
    have hstream : _stream_turn o provider session question db
        = streamRounds o.tools provider turn (availableTools o turn) false (4 + 1)
            { world := (opened o session question db).world,
              history := (opened o session question db).history } := by
      rw [_stream_turn, hpersona, hdisabled, hagent]
      dsimp only
      rw [streamTools_eq, ← hturn]
      rfl
    have hend : SameEnd (_run_tool_loop o.tools provider turn (availableTools o turn) (4 + 1)
        (opened o session question db)).1 _ := run_tool_loop_end (4 + 1) _
    have hloops : _ ↔ ∀ reply, provider ((opened o session question db).send turn
        (availableTools o turn)).requests = .ok reply → _ :=
      plain_alike_iff o.tools 4 opened_abreast
    have hfirst : ((opened o session question db).send turn (availableTools o turn)).requests
        = [firstRequest o session question db] := by
      rw [firstRequest, ← hturn]
      rfl
    rw [hfirst] at hloops
    rw [hdisabled, hagent]
    constructor
    · intro hagree
      have halike := hagree.alike
      have hends := hagree.ends
      rw [hchat, hstream, run_tool_loop_state] at halike
      rw [hchat, hstream] at hends
      exact .inr (.inr (hloops.mp ⟨halike, hend.symm.trans hends⟩))
    · rintro (hfalse | hfalse | hnone)
      · cases hfalse
      · cases hfalse
      · obtain ⟨halike, hends⟩ := hloops.mpr hnone
        constructor
        · rw [hchat, hstream, run_tool_loop_state]
          exact halike
        · rw [hchat, hstream]
          exact hend.trans hends

end Turns

/-! ## A function that is not looked up -/

/-- A tool of plain chat. -/
def lookupTool : Tool Unit Unit where
  name := "lookup_tm1_function"
  description := "Look up a TM1 function."
  input_schema := ""
  execute := fun _ _ _ db => (.ok (.text "CellGetN reads a numeric cell."), db)

/-- A deployment with that tool, and a conversation that begins. -/
def plainChat : Orchestrator Unit Unit where
  tools :=
    { TOOLS := [lookupTool]
      requested_connection := fun _ => none
      get_connection := fun _ _ _ => .ok ()
      create := fun _ db => .ok db
      _fold_into_task := fun _ _ _ db => db }
  TM1_MODE := .governed
  get_agent := fun _ => none
  list_by_conversation := fun _ _ => []
  begin_turn := fun _ _ db => db
  _build_tool_system_prompt := fun _ _ _ _ => (none, none)

/-- The model asks for the function, and answers when it has it. -/
def scripted : Provider Unit := fun requests =>
  if requests.length = 1 then
    .ok { text := ["Let me check."], stop_reason := some "tool_use", usage := ⟨10, 5, 0, 0⟩,
          tool_calls := some [⟨"call_1", "lookup_tm1_function", ()⟩] }
  else .ok { text := ["Use CellGetN."], stop_reason := some "end_turn", usage := ⟨20, 5, 0, 0⟩ }

/-- **A tool that is run in one turn and not in the other.** The same question to the
same model in plain chat. -/
theorem plain_stream_drops_call :
    (_chat_turn plainChat scripted ⟨1, 7, 1⟩ ⟨"How do I read a cell?", [], "m", false, none⟩
        ()).2.world.ran = [⟨"call_1", "lookup_tm1_function", ()⟩] ∧
      (_stream_turn plainChat scripted ⟨1, 7, 1⟩ ⟨"How do I read a cell?", [], "m", false, none⟩
        ()).2.world.ran = [] ∧
      (_chat_turn plainChat scripted ⟨1, 7, 1⟩ ⟨"How do I read a cell?", [], "m", false, none⟩
        ()).2.usage = ⟨30, 10, 0, 0⟩ ∧
      (_stream_turn plainChat scripted ⟨1, 7, 1⟩ ⟨"How do I read a cell?", [], "m", false, none⟩
        ()).2.usage = ⟨10, 5, 0, 0⟩ :=
  ⟨rfl, rfl, rfl, rfl⟩

end PaCopilot.ai
