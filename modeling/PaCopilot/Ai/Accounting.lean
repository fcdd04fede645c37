/-
What a streamed turn is charged, `_stream_turn` of `ai/orchestrator.py` with every point at
which it can be cut off.

A turn is suspended where it awaits or yields, and there it may be resumed, or end by an
exception: the browser is gone, the provider or a tool has failed. In the loop the `finally`
charges what was reported and an estimate for the round that was in flight, through a session
of its own. Behind the loop the turn is charged in the transaction of the request, which
commits at the very end. [`accounted_iff`] says at which points a cut leaves one row that is
large enough.
-/
import PaCopilot.Ai.Stream
import PaCopilot.Lib.Run

set_option autoImplicit false

namespace PaCopilot.stream_usage

open ai hiding run
open Run

/-! ## Rows -/

/-- A row of `ai_usage`, as far as it counts tokens. -/
structure AIUsage where
  prompt_tokens : ℕ
  completion_tokens : ℕ
  total_tokens : ℕ
  cache_creation_tokens : ℕ
  cache_read_tokens : ℕ
  deriving DecidableEq

/-- All the tokens of a usage. -/
def tokens (usage : Usage) : ℕ :=
  usage.input_tokens + usage.cache_creation_input_tokens + usage.cache_read_input_tokens
    + usage.output_tokens

def usageRow (usage : Usage) : AIUsage :=
  ⟨usage.input_tokens, usage.output_tokens, tokens usage, usage.cache_creation_input_tokens,
    usage.cache_read_input_tokens⟩

@[simp] theorem tokens_add (total round : Usage) :
    tokens (total.add round) = tokens total + tokens round := by
  simp only [tokens, Usage.add]
  omega

def _estimate_tokens (text : String) : ℕ := if text = "" then 0 else text.length / 4 + 1

/-! ## Where a turn is suspended -/

/-- Before the loop: what it awaits of the database, and the two events that it yields. -/
inductive Opening
  | conversation
  | history
  | message
  | task
  | start
  | route
  | prompt
  deriving DecidableEq

def Opening.next : Opening → Option Opening
  | conversation => some history
  | history => some message
  | message => some task
  | task => some start
  | start => some route
  | route => some prompt
  | prompt => none

/-- Behind the loop: the rows of the answer, of the usage and of the audit, the end of the
turn of the task, the last event, and the commit of the request. -/
inductive Closing
  | message
  | usage
  | audit
  | end_turn
  | done
  | commit
  deriving DecidableEq

def Closing.next : Closing → Option Closing
  | message => some usage
  | usage => some audit
  | audit => some end_turn
  | end_turn => some done
  | done => some commit
  | commit => none

/-- A point of the turn. In the loop it counts the rounds that are left with the one it is in;
at zero it makes the last request, that of the budget. A text that was read is yielded, and so
is the result of a call: a cut there finds the same as a cut at the await that follows. -/
inductive Phase (ι : Type)
  | opening (point : Opening)
  | releasing (left : ℕ)
  | streaming (left : ℕ) (round : Round ι) (stopped : Bool)
  | calling (left : ℕ) (calls : List (ToolCall ι)) (tool_results : List ToolResult)
  | closing (point : Closing)
  | ended

structure State (ι : Type) where
  phase : Phase ι
  history : List (ChatMessage ι)
  /-- `total_input_tokens` and the other totals -/
  total : Usage := Usage.zero
  final_content_parts : List String := []
  streamed_text : List String := []
  in_flight_text : List String := []
  last_round_usage : Option Usage := none
  round_in_flight : Bool := false
  completed : Bool := false
  /-- The row of the conversation is committed. -/
  visible : Bool
  /-- The usage rows in the transaction of the request. -/
  session : List AIUsage := []
  /-- The usage rows that are committed. -/
  stored : List AIUsage := []
  /-- What the provider has reported of the rounds that finished. -/
  reported : List Usage := []

/-- How a turn goes on. The stream of a round says its text, then how it stopped. -/
inductive Event (ι : Type)
  | resumed
  | event (e : StreamEvent ι)
  | exhausted
  | tool_result (result : ToolResult)

section Turn

variable {ι : Type}

/-- `total_… += usage.…`, and `last_round_usage`. -/
def State.charge (s : State ι) (usage : Option Usage) : State ι :=
  { s with
    total := (usage.map s.total.add).getD s.total
    last_round_usage := usage.or s.last_round_usage }

def State.say (s : State ι) (message : ChatMessage ι) : State ι :=
  { s with history := s.history ++ [message] }

/-- The next round, or the request of the budget. -/
def State.enter (s : State ι) : ℕ → State ι
  | 0 => { s.say { role := .user, content := _TOOL_BUDGET_EXHAUSTED } with phase := .releasing 0 }
  | left + 1 => { s with phase := .releasing (left + 1) }

/-- An event of the stream was read. The last request is charged at once, a round when its
stream is exhausted. -/
def State.read (s : State ι) (left : ℕ) (round : Round ι) (e : StreamEvent ι) : State ι :=
  match e with
  | .text_delta text => { s with
      phase := .streaming left (consume round [e]) false
      streamed_text := s.streamed_text ++ [text]
      in_flight_text := s.in_flight_text ++ [text] }
  | .message_stop usage _ _ =>
    -- at zero this is the request of the budget, which has no round to be added with
    let charged := if left = 0 then s.charge usage else s
    { charged with
      phase := .streaming left (consume round [e]) true
      reported := s.reported ++ usage.toList }

/-- The stream of a request is exhausted. -/
def State.finish (s : State ι) (enable_tools : Bool) (left : ℕ) (round : Round ι) : State ι :=
  let s := { s with
    round_in_flight := false
    final_content_parts := s.final_content_parts ++ round.content_parts }
  match left with
  | 0 =>
    -- `completed` is set here, and no row of the turn is there yet
    { s with phase := .closing .message, completed := true }
  | left + 1 =>
    let s := s.charge round.usage
    if enable_tools = false ∨ asks round.stop_reason round.tool_calls = false then
      { s with phase := .closing .message, completed := true }
    else
      let s := s.say {
        role := .assistant
        content := String.join round.content_parts
        tool_calls := some (round.tool_calls.getD []) }
      { s with phase := .calling left (round.tool_calls.getD []) [] }

/-- `_stream_turn`, from one point to the next. -/
def step (enable_tools : Bool) (max_rounds : ℕ) (s : State ι) : Event ι → Option (State ι)
  | .resumed =>
    match s.phase with
    | .opening point =>
      match point.next with
      | some next => some { s with phase := .opening next }
      | none => some (s.enter max_rounds)
    -- the commit that released the database has come through
    | .releasing left => some { s with
        phase := .streaming left {} false
        visible := true
        in_flight_text := []
        round_in_flight := true }
    | .closing point =>
      match point.next with
      | some next => some { s with
          phase := .closing next
          session := if point = .usage then s.session ++ [usageRow s.total] else s.session }
      | none => some { s with phase := .ended, stored := s.stored ++ s.session, session := [] }
    | .streaming _ _ _ | .calling _ _ _ | .ended => none
  | .event e =>
    match s.phase with
    | .streaming left round false => some (s.read left round e)
    | _ => none
  | .exhausted =>
    match s.phase with
    | .streaming left round true => some (s.finish enable_tools left round)
    | _ => none
  | .tool_result result =>
    match s.phase with
    | .calling left [_] tool_results =>
      let s := s.say { role := .user, content := "", tool_results := some (tool_results ++ [result]) }
      some (s.enter left)
    | .calling left (_ :: call :: rest) tool_results =>
      some { s with phase := .calling left (call :: rest) (tool_results ++ [result]) }
    | _ => none

/-- A turn that begins. The conversation is there already, or is made by the turn. -/
def State.start (history : List (ChatMessage ι)) (visible : Bool) : State ι where
  phase := .opening .conversation
  history := history
  visible := visible

/-! ## A cut -/

/-- How a cut goes. The request's own transaction may be committed nevertheless: a commit that
it awaits comes through, or the response has ended without an exception. And the write for the
turn that was interrupted may fail. -/
structure Cut where
  committed : Bool
  written : Bool
  deriving DecidableEq

/-- The point is in the `try`. -/
def Phase.inLoop : Phase ι → Bool
  | .releasing _ | .streaming _ _ _ | .calling _ _ _ => true
  | .opening _ | .closing _ | .ended => false

/-- It awaits a commit of the loop, `_release_db`. -/
def Phase.isReleasing : Phase ι → Bool
  | .releasing _ => true
  | _ => false

/-- The estimate for the round that is in flight. -/
def estimate (turn : Turn) (s : State ι) : Usage where
  input_tokens :=
    match s.last_round_usage with
    | some usage =>
      usage.input_tokens + usage.cache_creation_input_tokens + usage.cache_read_input_tokens
    | none =>
      _estimate_tokens (turn.system.getD "" ++ turn.system_context.getD ""
        ++ String.join (s.history.map ChatMessage.content))
  output_tokens := _estimate_tokens (String.join s.in_flight_text)

/-- The rows of the turn that are stored in the end when it is cut off here. The row of the
interrupted turn refers to the conversation, so the write fails while that is not committed. -/
def cutOff (turn : Turn) (cut : Cut) (s : State ι) : List AIUsage :=
  -- in the `try`: the `finally` writes the row of the interrupted turn
  if s.phase.inLoop && !s.completed then
    let usage := if s.round_in_flight then s.total.add (estimate turn s) else s.total
    -- a cut at `_release_db` may come before or after its commit
    let visible := s.visible || (s.phase.isReleasing && cut.committed)
    if visible && cut.written then s.stored ++ [usageRow usage] else s.stored
  else if cut.committed then s.stored ++ s.session
  else s.stored

/-- One row, of no fewer tokens than were reported. -/
def Accounted (reported : List Usage) (rows : List AIUsage) : Prop :=
  ∃ row, rows = [row] ∧ (reported.map tokens).sum ≤ row.total_tokens

/-- The cut is one that the code provides for. A round whose usage is reported, but whose
stream was not exhausted yet, is charged by the estimate. -/
def provided (turn : Turn) (cut : Cut) (s : State ι) : Bool :=
  match s.phase with
  | .opening _ => false
  | .releasing _ => (s.visible || cut.committed) && cut.written
  | .streaming 0 _ _ => cut.written
  | .streaming (_ + 1) round _ =>
    cut.written && round.usage.all fun usage => tokens usage ≤ tokens (estimate turn s)
  | .calling _ _ _ => cut.written
  | .closing .message | .closing .usage => false
  | .closing _ => cut.committed
  | .ended => true

/-! ## What a turn keeps -/

/-- A stream is being read. -/
def Phase.isStreaming : Phase ι → Bool
  | .streaming _ _ _ => true
  | _ => false

/-- The loop has ended. -/
def Phase.isBehind : Phase ι → Bool
  | .closing _ | .ended => true
  | _ => false

/-- The usage row is in the transaction of the request. -/
def Phase.isCharged : Phase ι → Bool
  | .closing .audit | .closing .end_turn | .closing .done | .closing .commit => true
  | _ => false

def Phase.isOver : Phase ι → Bool
  | .ended => true
  | _ => false

/-- The tokens that a round has reported and that are not in the totals yet. -/
def Phase.unadded : Phase ι → ℕ
  | .streaming (_ + 1) round _ => (round.usage.map tokens).getD 0
  | _ => 0

/-- The totals are what was reported, and the rows are where the point says. -/
structure Kept (s : State ι) : Prop where
  sum : (s.reported.map tokens).sum = tokens s.total + s.phase.unadded
  unread : ∀ left round, s.phase = .streaming left round false → round.usage = none
  round_in_flight : s.round_in_flight = s.phase.isStreaming
  completed : s.completed = s.phase.isBehind
  visible : s.phase.isReleasing = false → s.phase.inLoop = true → s.visible = true
  session : s.session = if s.phase.isCharged then [usageRow s.total] else []
  stored : s.stored = if s.phase.isOver then [usageRow s.total] else []

section Steps

variable {s s' : State ι} {e : Event ι} {enable_tools : Bool} {max_rounds left : ℕ}
  {round : Round ι}

theorem Kept.start (history : List (ChatMessage ι)) (visible : Bool) :
    Kept (State.start history visible) :=
  ⟨rfl, nofun, rfl, rfl, nofun, rfl, rfl⟩

/-- From a point before a request or between two of them the next one can be entered. -/
theorem Kept.enter (h : Kept s) (hsum : s.phase.unadded = 0) (hflight : s.phase.isStreaming = false)
    (hbehind : s.phase.isBehind = false) (hcharged : s.phase.isCharged = false) :
    Kept (s.enter left) := by
  have hover : s.phase.isOver = false := by
    rcases hphase : s.phase with _ | _ | _ | _ | _ | _ <;> simp_all [Phase.isOver, Phase.isBehind]
  have hsum' := h.sum
  rw [hsum] at hsum'
  have hsession := h.session
  rw [hcharged] at hsession
  have hstored := h.stored
  rw [hover] at hstored
  -- both phases await the commit of `_release_db`
  cases left with
  | zero =>
    exact ⟨hsum', nofun, h.round_in_flight.trans hflight, h.completed.trans hbehind, nofun,
      hsession, hstored⟩
  | succ left =>
    exact ⟨hsum', nofun, h.round_in_flight.trans hflight, h.completed.trans hbehind, nofun,
      hsession, hstored⟩

theorem Kept.say (h : Kept s) (message : ChatMessage ι) : Kept (s.say message) :=
  ⟨h.sum, h.unread, h.round_in_flight, h.completed, h.visible, h.session, h.stored⟩

theorem tokens_charge (usage : Option Usage) :
    tokens (s.charge usage).total = tokens s.total + (usage.map tokens).getD 0 := by
  cases usage with
  | none => rfl
  | some usage => exact tokens_add s.total usage

theorem Kept.read (h : Kept s) (hphase : s.phase = .streaming left round false)
    (ev : StreamEvent ι) : Kept (s.read left round ev) := by
  obtain ⟨hsum, hunread, hflight, hcompleted, hvisible, hsession, hstored⟩ := h
  have hnone := hunread left round hphase
  rw [hphase] at hsum hflight hcompleted hvisible hsession hstored
  have hadded : (s.reported.map tokens).sum = tokens s.total := by
    rw [hsum]
    cases left with
    | zero => rfl
    | succ left => rw [Phase.unadded, hnone, Option.map_none, Option.getD_none, Nat.add_zero]
  cases ev with
  | text_delta text =>
    refine ⟨?_, ?_, hflight, hcompleted, hvisible, hsession, hstored⟩
    · cases left with
      | zero => exact hadded
      | succ left => simpa [State.read, Phase.unadded, consume, hnone] using hadded
    · intro left' round' heq
      simp only [State.read, Phase.streaming.injEq] at heq
      rw [← heq.2.1]
      exact hnone
  | message_stop usage tool_calls stop_reason =>
    have hreported : ((s.reported ++ usage.toList).map tokens).sum
        = tokens s.total + (usage.map tokens).getD 0 := by
      rw [List.map_append, List.sum_append, hadded]
      cases usage <;> simp
    cases left with
    | zero =>
      -- the last request goes to the totals at once
      refine ⟨?_, ?_, hflight, hcompleted, hvisible, hsession, hstored⟩
      · exact hreported.trans (tokens_charge usage).symm
      · intro left' round' heq
        simp [State.read] at heq
    | succ left =>
      refine ⟨?_, ?_, hflight, hcompleted, hvisible, hsession, hstored⟩
      · simpa [State.read, Phase.unadded, consume] using hreported
      · intro left' round' heq
        simp [State.read] at heq

theorem Kept.finish (h : Kept s) (hphase : s.phase = .streaming left round true) :
    Kept (s.finish enable_tools left round) := by
  obtain ⟨hsum, -, -, hcompleted, hvisible, hsession, hstored⟩ := h
  rw [hphase] at hsum hcompleted hvisible hsession hstored
  cases left with
  | zero => exact ⟨hsum, nofun, rfl, rfl, nofun, hsession, hstored⟩
  | succ left =>
    -- what the round has reported joins the totals
    have hcharged : (s.reported.map tokens).sum = tokens (s.charge round.usage).total := by
      rw [hsum, tokens_charge]
      rfl
    unfold State.finish
    dsimp only
    split
    · exact ⟨hcharged, nofun, rfl, rfl, nofun, hsession, hstored⟩
    · exact ⟨hcharged, nofun, rfl, hcompleted, hvisible, hsession, hstored⟩

/-- A point that awaits something is left when that is there. -/
theorem Kept.resumed (h : Kept s) (hstep : step enable_tools max_rounds s .resumed = some s') :
    Kept s' := by
  simp only [stream_usage.step] at hstep
  split at hstep
  · rename_i point hphase
    have hopen := h
    obtain ⟨hsum, -, hflight, hcompleted, -, hsession, hstored⟩ := h
    rw [hphase] at hsum hflight hcompleted hsession hstored
    split at hstep
    · rw [← Option.some.inj hstep]
      exact ⟨hsum, nofun, hflight, hcompleted, nofun, hsession, hstored⟩
    · rw [← Option.some.inj hstep]
      apply hopen.enter
      all_goals rw [hphase]; rfl
  · rename_i left hphase
    obtain ⟨hsum, -, -, hcompleted, -, hsession, hstored⟩ := h
    rw [hphase] at hsum hcompleted hsession hstored
    rw [← Option.some.inj hstep]
    refine ⟨?_, ?_, rfl, hcompleted, fun _ _ => rfl, hsession, hstored⟩
    · cases left <;> exact hsum
    · intro left' round' heq
      rw [Phase.streaming.injEq] at heq
      rw [← heq.2.1]
  · rename_i point hphase
    obtain ⟨hsum, -, hflight, hcompleted, -, hsession, hstored⟩ := h
    rw [hphase] at hsum hflight hcompleted hsession hstored
    split at hstep
    · -- the usage row comes into the transaction when the insert of the usage is left
      rename_i next hnext
      rw [← Option.some.inj hstep]
      refine ⟨hsum, nofun, hflight, hcompleted, nofun, ?_, hstored⟩
      cases point <;> cases hnext <;> simp [hsession, Phase.isCharged]
    · -- the transaction is committed
      rename_i hnone
      rw [← Option.some.inj hstep]
      refine ⟨hsum, nofun, hflight, hcompleted, nofun, rfl, ?_⟩
      cases point <;> cases hnone
      simp [hsession, hstored, Phase.isCharged, Phase.isOver]
  all_goals simp at hstep

theorem Kept.step (h : Kept s) (hstep : step enable_tools max_rounds s e = some s') : Kept s' := by
  cases e with
  | resumed => exact h.resumed hstep
  | event ev =>
    simp only [stream_usage.step] at hstep
    split at hstep
    · rename_i left round hphase
      rw [← Option.some.inj hstep]
      exact h.read hphase ev
    · simp at hstep
  | exhausted =>
    simp only [stream_usage.step] at hstep
    split at hstep
    · rename_i left round hphase
      rw [← Option.some.inj hstep]
      exact h.finish hphase
    · simp at hstep
  | tool_result result =>
    simp only [stream_usage.step] at hstep
    split at hstep
    · rename_i left call tool_results hphase
      rw [← Option.some.inj hstep]
      -- the last result of a round: the next round begins
      apply (h.say _).enter
      all_goals
        rw [State.say]
        dsimp only
        rw [hphase]
        rfl
    · rename_i left called call rest tool_results hphase
      rw [← Option.some.inj hstep]
      obtain ⟨hsum, -, hflight, hcompleted, hvisible, hsession, hstored⟩ := h
      rw [hphase] at hsum hflight hcompleted hvisible hsession hstored
      exact ⟨hsum, nofun, hflight, hcompleted, hvisible, hsession, hstored⟩
    · simp at hstep

theorem accounted_singleton_iff {reported : List Usage} {usage : Usage} :
    Accounted reported [usageRow usage] ↔ (reported.map tokens).sum ≤ tokens usage := by
  constructor
  · rintro ⟨row, hrow, hle⟩
    rw [List.singleton_inj] at hrow
    rwa [← hrow] at hle
  · intro hle
    exact ⟨usageRow usage, rfl, hle⟩

theorem not_accounted_nil {reported : List Usage} : ¬ Accounted reported [] := by
  rintro ⟨row, hrow, -⟩
  simp at hrow

/-- In the loop there is nothing in the tables yet. -/
theorem Kept.in_loop (h : Kept s) (hin : s.phase.inLoop = true) :
    s.stored = [] ∧ s.completed = false := by
  have hstored := h.stored
  have hcompleted := h.completed
  rcases hphase : s.phase with _ | _ | _ | _ | _ | _
  all_goals rw [hphase] at hin hstored hcompleted
  all_goals first
    | exact ⟨hstored, hcompleted⟩
    | simp [Phase.inLoop] at hin

/-- **A cut leaves one row that is large enough exactly where the code provides for it.** -/
theorem Kept.cutOff_iff (turn : Turn) (cut : Cut) (h : Kept s) :
    Accounted s.reported (cutOff turn cut s) ↔ provided turn cut s = true := by
  have hloop := h.in_loop
  obtain ⟨hsum, hunread, hflight, hcompleted, hvisible, hsession, hstored⟩ := h
  unfold cutOff provided
  -- one case for each place where a turn can be cut
  rcases hphase : s.phase with point | left | ⟨left, round, stopped⟩ | ⟨left, calls, results⟩ | point | _
  all_goals rw [hphase] at hsum hflight hcompleted hvisible hsession hstored hloop
  case opening =>
    rw [hsession, hstored]
    simp [Phase.inLoop, Phase.isCharged, Phase.isOver, not_accounted_nil]
  case releasing =>
    obtain ⟨hrows, hopen⟩ := hloop rfl
    rw [hflight, hrows, hopen]
    have hle : (s.reported.map tokens).sum ≤ tokens s.total := le_of_eq hsum
    simp only [Phase.inLoop, Phase.isReleasing, Phase.isStreaming, Bool.not_false, Bool.and_self,
      if_true, Bool.true_and, Bool.false_eq_true, if_false, List.nil_append]
    split
    · rename_i hall
      exact iff_of_true (accounted_singleton_iff.mpr hle) hall
    · rename_i hall
      exact iff_of_false not_accounted_nil hall
  case streaming =>
    obtain ⟨hrows, hopen⟩ := hloop rfl
    rw [hflight, hrows, hopen, hvisible rfl rfl]
    simp only [Phase.inLoop, Phase.isStreaming, Bool.not_false, Bool.and_self, if_true,
      Bool.true_or, Bool.true_and, List.nil_append]
    rcases hwritten : cut.written with _ | _
    · rw [if_neg Bool.false_ne_true]
      cases left <;> exact iff_of_false not_accounted_nil (by simp)
    · -- the totals and the estimate against what was reported
      rw [if_pos rfl, accounted_singleton_iff, hsum, tokens_add]
      cases left with
      | zero => simp [Phase.unadded]
      | succ left =>
        rw [Phase.unadded]
        rcases husage : round.usage with _ | usage
        · simp [husage]
        · simp [husage]
  case calling =>
    obtain ⟨hrows, hopen⟩ := hloop rfl
    rw [hflight, hrows, hopen, hvisible rfl rfl]
    have hle : (s.reported.map tokens).sum ≤ tokens s.total := le_of_eq hsum
    simp only [Phase.inLoop, Phase.isStreaming, Bool.not_false, Bool.and_self, if_true,
      Bool.true_or, Bool.true_and, Bool.false_eq_true, if_false, List.nil_append]
    rcases hwritten : cut.written with _ | _
    · rw [if_neg Bool.false_ne_true]
      exact iff_of_false not_accounted_nil Bool.false_ne_true
    · rw [if_pos rfl]
      exact iff_of_true (accounted_singleton_iff.mpr hle) rfl
  case closing =>
    have hle : (s.reported.map tokens).sum ≤ tokens s.total := le_of_eq hsum
    rw [hsession, hstored]
    rcases hcommitted : cut.committed with _ | _
    · cases point <;> simp [Phase.inLoop, Phase.isOver, not_accounted_nil]
    · cases point <;> simp [Phase.inLoop, Phase.isCharged, Phase.isOver, not_accounted_nil,
        accounted_singleton_iff, hle]
  case ended =>
    have hle : (s.reported.map tokens).sum ≤ tokens s.total := le_of_eq hsum
    rw [hsession, hstored]
    simp [Phase.inLoop, Phase.isCharged, Phase.isOver, accounted_singleton_iff, hle]

end Steps

/-! ## A turn that is not cut off -/

section Whole

variable {S : Type} {tools : Tools S ι} {provider : Provider ι} {turn : Turn}
  {definitions : List ToolDefinition} {τ τ' : StreamLoop S ι} {s : State ι} {enable_tools : Bool}
  {max_rounds left : ℕ} {round : Round ι}

/-- The point and the loop have the same history, usage and text. -/
structure Follows (τ : StreamLoop S ι) (s : State ι) : Prop where
  history : s.history = τ.history
  total : s.total = τ.usage
  final_content_parts : s.final_content_parts = τ.final_content_parts

/-- The events of the request that a reply answers. -/
def replyEvents (reply : Reply ι) : List (Event ι) :=
  .resumed :: (reply.events.map .event ++ [.exhausted])

variable (enable_tools max_rounds) in
theorem run_texts (texts : List String) (hphase : s.phase = .streaming left round false) :
    run (step enable_tools max_rounds) s (texts.map fun text => .event (.text_delta text))
      = some { s with
          phase := .streaming left { round with content_parts := round.content_parts ++ texts } false
          streamed_text := s.streamed_text ++ texts
          in_flight_text := s.in_flight_text ++ texts } := by
  induction texts generalizing s round with
  | nil => simp [← hphase]
  | cons text texts ih =>
    have hread : step enable_tools max_rounds s (.event (.text_delta text))
        = some (s.read left round (.text_delta text)) := by
      rw [step, hphase]
    rw [List.map_cons, run, hread, Option.bind_some, ih rfl]
    simp [State.read, consume]

variable (enable_tools max_rounds) in
/-- A request that was answered: the answer is read, and the round finished. -/
theorem run_reply (reply : Reply ι) (hphase : s.phase = .releasing left) : ∃ read : State ι,
    run (step enable_tools max_rounds) s (replyEvents reply)
      = some (read.finish enable_tools left (consume {} reply.events)) ∧
    read.history = s.history ∧ read.final_content_parts = s.final_content_parts ∧
    read.total = if left = 0 then s.total.add reply.usage else s.total := by
  have hrelease : ∃ released : State ι, step enable_tools max_rounds s .resumed = some released ∧
      released.phase = .streaming left {} false ∧ released.history = s.history ∧
      released.final_content_parts = s.final_content_parts ∧ released.total = s.total := by
    rw [step, hphase]
    exact ⟨_, rfl, rfl, rfl, rfl, rfl⟩
  obtain ⟨released, hstep, hreleased, hhistory, hparts, htotal⟩ := hrelease
  have htexts := run_texts enable_tools max_rounds reply.text hreleased
  -- the text was read, and the last event is how the round stopped
  generalize htold : ({ released with
    phase := .streaming left ({ content_parts := ([] : List String) ++ reply.text }) false
    streamed_text := released.streamed_text ++ reply.text
    in_flight_text := released.in_flight_text ++ reply.text } : State ι) = told at htexts
  refine ⟨told.read left { content_parts := reply.text }
    (.message_stop (some reply.usage) reply.tool_calls reply.stop_reason), ?_, ?_⟩
  · rw [replyEvents, run_cons_eq_some_iff]
    refine ⟨released, hstep, ?_⟩
    rw [Reply.events, List.map_append, List.map_map, List.append_assoc, run_append]
    refine ⟨told, htexts, ?_⟩
    rw [List.map_singleton, List.singleton_append, run_cons_eq_some_iff]
    refine ⟨_, by rw [← htold]; rfl, ?_⟩
    rw [run_cons_eq_some_iff]
    refine ⟨_, ?_, run_nil _⟩
    rw [← Reply.events, consume_events, ← htold]
    rfl
  · rw [← htold, ← hhistory, ← hparts, ← htotal]
    cases left <;> exact ⟨rfl, rfl, rfl⟩

/-- A round that asks for tools is followed by its calls. -/
theorem finish_calling (left : ℕ) (round : Round ι) (read : State ι)
    (hasks : ¬ (enable_tools = false ∨ asks round.stop_reason round.tool_calls = false)) :
    let calling := read.finish enable_tools (left + 1) round
    calling.phase = .calling left (round.tool_calls.getD []) [] ∧
      calling.history = read.history ++ [{ role := .assistant
                                           content := String.join round.content_parts
                                           tool_calls := some (round.tool_calls.getD []) }] ∧
      calling.total = (read.charge round.usage).total ∧
      calling.final_content_parts = read.final_content_parts ++ round.content_parts := by
  rw [State.finish, if_neg hasks]
  exact ⟨rfl, rfl, rfl, rfl⟩

variable (enable_tools max_rounds) in
/-- The results of the calls of a round. -/
theorem run_calls {calls : List (ToolCall ι)} {done results : List ToolResult}
    (hphase : s.phase = .calling left calls done) (hcalls : calls ≠ [])
    (hrun : streamCalls tools turn done calls τ = (.ok results, τ')) : ∃ events,
    run (step enable_tools max_rounds) s events = some (State.enter
      (s.say { role := .user, content := "", tool_results := some results }) left) ∧
    τ'.history = τ.history ∧ τ'.usage = τ.usage ∧
      τ'.final_content_parts = τ.final_content_parts := by
  induction calls generalizing done s τ with
  | nil => exact absurd rfl hcalls
  | cons call rest ih =>
    rw [streamCalls] at hrun
    split at hrun
    · simp at hrun
    · rename_i result world _
      -- the last result ends the round
      cases rest with
      | nil =>
        rw [streamCalls, Prod.mk.injEq, Except.ok.injEq] at hrun
        obtain ⟨hresults, hτ⟩ := hrun
        refine ⟨[.tool_result result], ?_, ?_⟩
        · rw [run_cons_eq_some_iff]
          refine ⟨_, ?_, run_nil _⟩
          rw [step, hphase, ← hresults]
        · rw [← hτ]
          exact ⟨rfl, rfl, rfl⟩
      | cons next rest =>
        obtain ⟨events, hevents, hkept⟩ := ih (s := { s with
          phase := .calling left (next :: rest) (done ++ [result]) }) rfl (by simp) hrun
        refine ⟨.tool_result result :: events, ?_, hkept⟩
        rw [run_cons_eq_some_iff]
        refine ⟨_, by rw [step, hphase], ?_⟩
        rw [hevents]
        cases left <;> rfl

variable (enable_tools max_rounds left round) in
/-- A round that asks for tools, from its end to the next one. -/
theorem run_answer {read : State ι}
    (hasks : ¬ (enable_tools = false ∨ asks round.stop_reason round.tool_calls = false))
    (hrun : streamAnswer tools turn round τ = (.ok (), τ'))
    (hhistory : read.history = τ.history) (htotal : (read.charge round.usage).total = τ.usage)
    (hparts : read.final_content_parts ++ round.content_parts = τ.final_content_parts) :
    ∃ events next, run (step enable_tools max_rounds) (read.finish enable_tools (left + 1) round) events
      = some (State.enter next left) ∧ Follows τ' next := by
  obtain ⟨hcalling, hsaid, hcharged, htext⟩ := finish_calling left round read hasks
  have hcalls : round.tool_calls.getD [] ≠ [] := by
    intro hnil
    apply hasks
    rw [asks, hnil]
    simp
  rw [streamAnswer] at hrun
  split at hrun
  · simp at hrun
  · rename_i results τ₁ hresults
    rw [Prod.mk.injEq] at hrun
    obtain ⟨events, hevents, hhistory₁, husage₁, hparts₁⟩ := run_calls
      enable_tools max_rounds hcalling hcalls hresults
    refine ⟨events, _, hevents, ?_⟩
    rw [← hrun.2]
    refine ⟨?_, ?_, ?_⟩
    · rw [State.say, StreamLoop.say]
      dsimp only
      rw [hsaid, hhistory₁, hhistory]
      rfl
    · exact hcharged.trans (htotal.trans husage₁.symm)
    · exact htext.trans (hparts.trans hparts₁.symm)

/-- **A streamed turn that comes to its answer passes through these points**, with the same
usage and the same text. -/
theorem run_rounds {n : ℕ} (h : Follows τ s)
    (hrun : streamRounds tools provider turn definitions enable_tools n τ = (.ok (), τ')) :
    ∃ events s', run (step enable_tools max_rounds) (s.enter n) events = some s' ∧
      s'.phase = .closing .message ∧ s'.total = τ'.usage ∧
        s'.final_content_parts = τ'.final_content_parts := by
  induction n generalizing τ s with
  | zero =>
    rw [streamRounds, streamLast] at hrun
    split at hrun
    · simp at hrun
    · rename_i reply _
      rw [Prod.mk.injEq] at hrun
      obtain ⟨read, hread, hhistory, hparts, htotal⟩ := run_reply enable_tools
        max_rounds (s := s.enter 0) reply rfl
      refine ⟨replyEvents reply, _, hread, rfl, ?_, ?_⟩
      · rw [← hrun.2, consume_events]
        exact htotal.trans (congrArg (·.add reply.usage) h.total)
      · rw [← hrun.2, consume_events]
        exact congrArg (· ++ reply.text) (hparts.trans h.final_content_parts)
  | succ n ih =>
    rw [streamRounds] at hrun
    split at hrun
    · simp at hrun
    · rename_i reply _
      obtain ⟨read, hread, hhistory, hparts, htotal⟩ := run_reply enable_tools
        max_rounds (s := s.enter (n + 1)) reply rfl
      rw [consume_events] at hread
      rw [if_neg (Nat.succ_ne_zero n)] at htotal
      dsimp only at hrun
      rw [consume_events] at hrun
      dsimp only at hrun
      have hadded : read.total.add reply.usage = τ.usage.add reply.usage := by
        rw [htotal, ← h.total]
        rfl
      have htext : read.final_content_parts ++ reply.text = τ.final_content_parts ++ reply.text :=
        congrArg (· ++ reply.text) (hparts.trans h.final_content_parts)
      by_cases hend : enable_tools = false ∨ asks reply.stop_reason reply.tool_calls = false
      · rw [if_pos hend, Prod.mk.injEq] at hrun
        rw [State.finish, if_pos hend] at hread
        refine ⟨replyEvents reply, _, hread, rfl, ?_, ?_⟩
        · rw [← hrun.2]
          exact hadded
        · rw [← hrun.2]
          exact htext
      · rw [if_neg hend] at hrun
        split at hrun
        · simp at hrun
        · rename_i τ₁ hanswered
          -- the calls are answered, and the next round follows
          obtain ⟨answers, next, hanswers, hfollows⟩ := run_answer enable_tools max_rounds n
            ⟨reply.text, some reply.usage, reply.tool_calls, reply.stop_reason⟩ hend
            hanswered (hhistory.trans h.history) hadded htext
          obtain ⟨rest, s', hrest, hphase, htotal', hparts'⟩ := ih hfollows hrun
          refine ⟨replyEvents reply ++ (answers ++ rest), s', ?_, hphase, htotal', hparts'⟩
          rw [run_append]
          refine ⟨_, hread, ?_⟩
          rw [run_append]
          exact ⟨_, hanswers, hrest⟩

end Whole

/-- **Wherever a streamed turn is cut off, it has one row in the end, of no fewer tokens than
the rounds that finished have reported, exactly where the code provides for the cut.** That is
in its loop, if the write for the interrupted turn succeeds, and behind the loop only when the
usage row is there and the transaction of the request is committed. -/
theorem accounted_iff (turn : Turn) (enable_tools : Bool) (max_rounds : ℕ)
    (history : List (ChatMessage ι)) (visible : Bool) (events : List (Event ι)) (s : State ι)
    (hrun : run (step enable_tools max_rounds) (State.start history visible) events = some s)
    (cut : Cut) :
    Accounted s.reported (cutOff turn cut s) ↔ provided turn cut s = true :=
  (invariant_of_step (fun _ _ _ h hstep => Kept.step h hstep) (Kept.start history visible)
    hrun).cutOff_iff turn cut

end Turn

/-- A turn of plain chat, up to its first words. -/
def firstWords : List (Event Unit) :=
  List.replicate 8 .resumed ++ [.event (.text_delta "Hello")]

def plainTurn : Turn := ⟨⟨1, 1, 1⟩, "m", none, none, none, none⟩

theorem firstWords_accounted : ∃ s, run (step false 5) (State.start [] false) firstWords = some s ∧
    Accounted s.reported (cutOff plainTurn ⟨true, true⟩ s) :=
  ⟨_, rfl, (accounted_iff plainTurn false 5 [] false firstWords _ rfl ⟨true, true⟩).mpr rfl⟩

/-- Its only round has finished, and the answer is being stored. -/
def answered : List (Event Unit) :=
  firstWords ++ [.event (.message_stop (some ⟨10, 5, 0, 0⟩) none (some "end_turn")), .exhausted]

theorem answered_uncharged : ∃ s, run (step false 5) (State.start [] false) answered = some s ∧
    s.reported = [⟨10, 5, 0, 0⟩] ∧ ∀ cut, cutOff plainTurn cut s = [] := by
  refine ⟨_, rfl, rfl, ?_⟩
  rintro ⟨_ | _, written⟩
  · rfl
  · rfl

end PaCopilot.stream_usage
