/-
Which models answer a turn: `ai/routing.py`, beneath the loop of `ai/orchestrator.py`.

The model is decided once, and a turn makes its requests through a provider of its own: where
the model cannot answer, and has said nothing yet, the provider goes over to the neighbouring
tier and stays there. The provider that is wrapped is any function of the requests that have
reached it, so a retry may be answered otherwise than the request it repeats.

What reaches the models is the list of requests of the turn with at most one of them twice, and
the second of the two is the first that names the other model ([`turn_models`]).
-/
import PaCopilot.Ai.Stream
import PaCopilot.Tm1.Ti.Format

set_option autoImplicit false

namespace PaCopilot.routing

open ai

/-! ## Tiers -/

inductive Tier
  | fast
  | balanced
  | best
  deriving DecidableEq

def Tier.value : Tier → String
  | fast => "fast"
  | balanced => "balanced"
  | best => "best"

def TIER_MODELS : Tier → String
  | .fast => "claude-haiku-4-5"
  | .balanced => "claude-sonnet-5"
  | .best => "claude-opus-5"

theorem TIER_MODELS_inj {s t : Tier} : TIER_MODELS s = TIER_MODELS t ↔ s = t := by
  cases s <;> cases t <;> decide

def TIERS : List Tier := [.fast, .balanced, .best]

def CHOICES : List String := "auto" :: TIERS.map Tier.value

/-- The neighbouring tier to retry on. -/
def FALLBACK : Tier → Tier
  | .best => .balanced
  | .balanced => .best
  | .fast => .balanced

def TOOL_AGENTS : List String :=
  ["developer", "ti", "troubleshooter", "administrator", "analyst", "performance"]

def BEST_AGENTS : List String := ["architect", "reviewer"]

def FAST_AGENTS : List String := ["documentation"]

def LARGE_ATTACHMENT_CHARS : ℕ := 40000

structure RouteDecision where
  model : String
  /-- none for a model that was named, and for the default of the deployment -/
  tier : Option Tier
  requested : String
  reason : String
  fallback_model : Option String
  deriving DecidableEq

/-- What the deployment sets. -/
structure Settings where
  AI_ALLOWED_MODELS : List String
  AI_DEFAULT_MODEL : String

/-- The rules of AUTO, in their order. -/
def auto_tier (agent environment : Option String) (attachment_chars : ℕ) : Tier × String :=
  if environment = some "prod" then (.best, "the selected TM1 server is production")
  else match agent with
    | some agent =>
      if agent ∈ BEST_AGENTS then (.best, s!"the {agent} agent needs the most careful reasoning")
      else if LARGE_ATTACHMENT_CHARS < attachment_chars then
        (.balanced, "a large attachment to reason over")
      else if agent ∈ TOOL_AGENTS then (.balanced, s!"the {agent} agent works through TM1 tools")
      else if agent ∈ FAST_AGENTS then (.fast, "documentation")
      else (.balanced, s!"the {agent} agent")
    | none =>
      if LARGE_ATTACHMENT_CHARS < attachment_chars then
        (.balanced, "a large attachment to reason over")
      else (.fast, "a plain question with no specialist agent")

section Decide

variable (settings : Settings)

/-- The tier, or the next one up that this deployment allows. -/
def _allowed (tier : Tier) : Option Tier :=
  (TIERS.drop (TIERS.idxOf tier)).find? fun candidate =>
    TIER_MODELS candidate ∈ settings.AI_ALLOWED_MODELS

/-- `(requested or "auto").strip()`. -/
def choiceOf (requested : Option String) : String :=
  match requested with
  | none | some "" => String.ofList (Python.strip "auto".toList)
  | some requested => String.ofList (Python.strip requested.toList)

/-- The tier that is asked for, and why. -/
def tierOf (choice : String) (agent environment : Option String) (attachment_chars : ℕ) :
    Tier × String :=
  match TIERS.find? fun tier => tier.value = choice with
  | some tier => (tier, s!"{choice.toUpper} chosen")
  | none =>
    let auto := auto_tier agent environment attachment_chars
    (auto.1, s!"AUTO: {auto.2}")

/-- The model of a turn. -/
def decide (requested agent environment : Option String) (attachment_chars : ℕ) :
    Except AppException RouteDecision :=
  let choice := choiceOf requested
  if choice ∉ CHOICES then
    if choice ∉ settings.AI_ALLOWED_MODELS then
      .error (ValidationException
        s!"Model not available: {choice}. Choose auto, fast, balanced or best.")
    else .ok ⟨choice, none, choice, "chosen by name", none⟩
  else
    let (tier, reason) := tierOf choice agent environment attachment_chars
    match _allowed settings tier with
    | none => .ok ⟨settings.AI_DEFAULT_MODEL, none, choice,
        reason ++ "; deployment default model", none⟩
    | some allowed =>
      let reason := if allowed ≠ tier then
          reason ++ s!"; {tier.value.toUpper} is not enabled here, so {allowed.value.toUpper}"
        else reason
      let fallback := (_allowed settings (FALLBACK allowed)).bind fun fallback_tier =>
        if fallback_tier ≠ allowed then some (TIER_MODELS fallback_tier) else none
      .ok ⟨TIER_MODELS allowed, some allowed, choice, reason, fallback⟩

end Decide

/-! ## Errors that another model may not have -/

/-- What a call of the provider raises: the classes of `ai/exceptions.py`, or anything else. A
turn that is cancelled is among the others. -/
inductive Raised
  | AIProviderError (message : String)
  | AIProviderRateLimitError (message : String)
  | AIProviderAuthenticationError (message : String)
  | other (e : AppException)
  deriving DecidableEq

/-- `error code:\s*(5\d\d)`. -/
def serverError (text : List Char) : Bool :=
  match Python.afterWord "error code:".toList text with
  | none => false
  | some rest =>
    match rest.dropWhile Python.isspace with
    | '5' :: tens :: ones :: _ => ti.format.isdecimal tens && ti.format.isdecimal ones
    | _ => false

/-- `_RETRYABLE.search(message)`. -/
def _RETRYABLE (message : String) : Bool :=
  message.toList.tails.any fun text =>
    serverError text ||
      ["overloaded", "connection error", "timed out", "timeout"].any fun word =>
        (Python.afterWord word.toList text).isSome

def is_retryable : Raised → Bool
  | .AIProviderAuthenticationError _ => false
  | .AIProviderRateLimitError _ => true
  | .AIProviderError message => _RETRYABLE message
  | .other _ => false

/-! ## `FallbackProvider` -/

variable {S ι : Type}

/-- What a streamed request says, and what it raises in the end. -/
structure Streamed (ι : Type) where
  events : List (StreamEvent ι)
  raised : Option Raised

/-- The provider that is wrapped, from the requests that have reached it. -/
structure Inner (ι : Type) where
  chat : List (ChatRequest ι) → Except Raised (Reply ι)
  stream_chat : List (ChatRequest ι) → Streamed ι

/-- A provider for one turn, with the requests that have reached the one it wraps. -/
structure FallbackProvider (ι : Type) where
  primary : String
  fallback : Option String
  fell_back : Bool := false
  sent : List (ChatRequest ι) := []

/-- `request.model_copy(update={"model": model})`. -/
def withModel (request : ChatRequest ι) (model : String) : ChatRequest ι :=
  { request with model := model }

namespace FallbackProvider

def model_used (p : FallbackProvider ι) : Option String :=
  if p.fell_back then p.fallback else some p.primary

def _switch (p : FallbackProvider ι) (request : ChatRequest ι) : ChatRequest ι :=
  if p.fell_back then withModel request (p.fallback.getD request.model) else request

def post (p : FallbackProvider ι) (request : ChatRequest ι) : FallbackProvider ι :=
  { p with sent := p.sent ++ [p._switch request] }

/-- `self.fell_back = True`. -/
def fallBack (p : FallbackProvider ι) : FallbackProvider ι := { p with fell_back := true }

/-- `self.fell_back or not self._fallback or not is_retryable(exc)`. -/
def stands (p : FallbackProvider ι) (e : Raised) : Bool :=
  p.fell_back || (p.fallback = none || p.fallback = some "") || !is_retryable e

variable (inner : Inner ι)

def chat (p : FallbackProvider ι) (request : ChatRequest ι) :
    Except Raised (Reply ι) × FallbackProvider ι :=
  let first := p.post request
  match inner.chat first.sent with
  | .ok reply => (.ok reply, first)
  | .error e =>
    if p.stands e then (.error e, first)
    else
      let second := first.fallBack.post request
      (inner.chat second.sent, second)

def stream_chat (p : FallbackProvider ι) (request : ChatRequest ι) :
    Streamed ι × FallbackProvider ι :=
  let first := p.post request
  let heard := inner.stream_chat first.sent
  match heard.raised with
  | none => (heard, first)
  | some e =>
    -- `started`: an event has been passed on
    if heard.events ≠ [] ∨ p.stands e then (heard, first)
    else
      let second := first.fallBack.post request
      (inner.stream_chat second.sent, second)

end FallbackProvider

/-! ## The calls of a turn -/

/-- A call of the provider of the turn. -/
inductive Call (ι : Type)
  | chat (request : ChatRequest ι)
  | stream_chat (request : ChatRequest ι)

def Call.request : Call ι → ChatRequest ι
  | chat request | stream_chat request => request

/-- The same call of another model. -/
def Call.onModel (model : String) : Call ι → Call ι
  | chat request => chat (withModel request model)
  | stream_chat request => stream_chat (withModel request model)

/-- What is heard of a call. -/
inductive Heard (ι : Type)
  | chat (answer : Except Raised (Reply ι))
  | stream_chat (streamed : Streamed ι)

/-- The call failed before it said anything, with an error that another model may not have. -/
def Heard.unsaid : Heard ι → Bool
  | chat (.error e) => is_retryable e
  | stream_chat ⟨[], some e⟩ => is_retryable e
  | _ => false

/-- What the wrapped provider says to the call that sent it the last of its requests. -/
def Inner.hear (inner : Inner ι) (sent : List (ChatRequest ι)) : Call ι → Heard ι
  | .chat _ => .chat (inner.chat sent)
  | .stream_chat _ => .stream_chat (inner.stream_chat sent)

/-- What it says to calls that come one after the other. -/
def Inner.hears (inner : Inner ι) : List (ChatRequest ι) → List (Call ι) → List (Heard ι)
  | _, [] => []
  | sent, c :: cs => inner.hear (sent ++ [c.request]) c :: inner.hears (sent ++ [c.request]) cs

namespace FallbackProvider

def call (inner : Inner ι) (p : FallbackProvider ι) : Call ι → Heard ι × FallbackProvider ι
  | .chat request => ((p.chat inner request).map .chat id)
  | .stream_chat request => ((p.stream_chat inner request).map .stream_chat id)

/-- The calls of a turn, one after the other. -/
def calls (inner : Inner ι) :
    FallbackProvider ι → List (Call ι) → List (Heard ι) × FallbackProvider ι
  | p, [] => ([], p)
  | p, c :: cs =>
    let (heard, p) := p.call inner c
    let (rest, p) := p.calls inner cs
    (heard :: rest, p)

/-- The model to which the provider may still go over. -/
def spare (p : FallbackProvider ι) : Option String :=
  if p.fell_back then none else p.fallback.filter fun model => model ≠ ""

variable {inner : Inner ι} {p : FallbackProvider ι}

theorem stands_eq (e : Raised) : p.stands e = (p.spare.isNone || !is_retryable e) := by
  unfold stands spare
  rcases p.fell_back with _ | _
  · rcases p.fallback with _ | model
    · rfl
    · by_cases hmodel : model = ""
      · subst hmodel
        rfl
      · simp [hmodel]
  · rfl

/-- **A call goes out once, or twice.** -/
theorem call_eq (c : Call ι) :
    p.call inner c =
      if p.spare.isSome && (inner.hear (p.post c.request).sent c).unsaid then
        (inner.hear ((p.post c.request).fallBack.post c.request).sent c,
          (p.post c.request).fallBack.post c.request)
      else (inner.hear (p.post c.request).sent c, p.post c.request) := by
  cases c with
  | chat request =>
    rcases hanswer : inner.chat (p.post request).sent with e | reply
    · have hheard : inner.hear (p.post request).sent (.chat request) = .chat (.error e) := by
        rw [Inner.hear, hanswer]
      rw [call, chat, Call.request, hheard]
      dsimp only
      rw [hanswer]
      dsimp only
      rw [stands_eq, Heard.unsaid]
      rcases p.spare with _ | model <;> rcases is_retryable e with _ | _ <;> rfl
    · have hheard : inner.hear (p.post request).sent (.chat request) = .chat (.ok reply) := by
        rw [Inner.hear, hanswer]
      rw [call, chat, Call.request, hheard]
      dsimp only
      rw [hanswer, Heard.unsaid, Bool.and_false]
      rfl
      all_goals simp
  | stream_chat request =>
    have hheard : inner.hear (p.post request).sent (.stream_chat request)
        = .stream_chat (inner.stream_chat (p.post request).sent) := rfl
    rw [call, stream_chat, Call.request, hheard]
    dsimp only
    rcases inner.stream_chat (p.post request).sent with ⟨_ | ⟨event, events⟩, _ | e⟩
    · simp [Heard.unsaid]
    · rcases hspare : p.spare with _ | model <;> rcases hretry : is_retryable e with _ | _ <;>
        simp [stands_eq, Heard.unsaid, hspare, hretry, Inner.hear]
    · simp [Heard.unsaid]
    · simp [Heard.unsaid]

end FallbackProvider

@[simp] theorem Call.onModel_request (model : String) (c : Call ι) :
    (c.onModel model).request = withModel c.request model := by
  cases c <;> rfl

theorem Call.map_onModel_request (model : String) (cs : List (Call ι)) :
    (cs.map (Call.onModel model)).map Call.request
      = (cs.map Call.request).map (withModel · model) := by
  rw [List.map_map, List.map_map]
  exact List.map_congr_left fun c _ => c.onModel_request model

theorem Inner.hear_onModel (inner : Inner ι) (sent : List (ChatRequest ι)) (model : String)
    (c : Call ι) : inner.hear sent (c.onModel model) = inner.hear sent c := by
  cases c <;> rfl

namespace FallbackProvider

variable {inner : Inner ι} {p : FallbackProvider ι} {f : String}

theorem post_of_fell_back (hp : p.fell_back = true) (hf : p.fallback = some f)
    (request : ChatRequest ι) :
    p.post request = { p with sent := p.sent ++ [withModel request f] } := by
  rw [post, _switch, if_pos hp, hf]
  rfl

theorem post_of_stays (hp : p.fell_back = false) (request : ChatRequest ι) :
    p.post request = { p with sent := p.sent ++ [request] } := by
  rw [post, _switch, hp]
  rfl

theorem spare_eq (hp : p.fell_back = false) (hf : p.fallback = some f) (hnamed : f ≠ "") :
    p.spare = some f := by
  simp [spare, hp, hf, hnamed]

theorem spare_eq_some (h : p.spare = some f) :
    p.fell_back = false ∧ p.fallback = some f ∧ f ≠ "" := by
  unfold spare at h
  split at h
  · cases h
  · rename_i hfell
    obtain ⟨hfallback, hnamed⟩ := Option.filter_eq_some_iff.mp h
    exact ⟨Bool.eq_false_iff.mpr hfell, hfallback, of_decide_eq_true hnamed⟩

/-- Behind the switch every call goes to the other model. -/
theorem calls_of_fell_back (hp : p.fell_back = true) (hf : p.fallback = some f)
    (cs : List (Call ι)) :
    p.calls inner cs = (inner.hears p.sent (cs.map (Call.onModel f)),
      { p with sent := p.sent ++ (cs.map (Call.onModel f)).map Call.request }) := by
  induction cs generalizing p with
  | nil => simp [calls, Inner.hears]
  | cons c cs ih =>
    have hspare : p.spare = none := by
      rw [spare, if_pos hp]
    have hcall : p.call inner c = (inner.hear (p.post c.request).sent c, p.post c.request) := by
      rw [call_eq, hspare]
      rfl
    rw [calls, hcall]
    dsimp only
    rw [post_of_fell_back hp hf,
      ih (p := { p with sent := p.sent ++ [withModel c.request f] }) hp hf]
    dsimp only
    rw [List.map_cons, Inner.hears, Inner.hear_onModel, Call.onModel_request, List.map_cons,
      Call.onModel_request, List.append_assoc]
    rfl

/-- The provider has not gone over: no call has failed silently, or there was no other model. -/
structure Stayed (inner : Inner ι) (p : FallbackProvider ι) (cs : List (Call ι))
    (out : List (Heard ι) × FallbackProvider ι) : Prop where
  heard : out.1 = inner.hears p.sent cs
  provider : out.2 = { p with sent := p.sent ++ cs.map Call.request }
  settled : p.spare.isSome = true → ∀ heard ∈ out.1, heard.unsaid = false

/-- The provider has gone over at the first call that failed silently, and made it again. -/
structure Fell (inner : Inner ι) (p : FallbackProvider ι) (f : String) (before : List (Call ι))
    (c : Call ι) (after : List (Call ι)) (out : List (Heard ι) × FallbackProvider ι) : Prop where
  spare : p.spare = some f
  settled : ∀ heard ∈ inner.hears p.sent before, heard.unsaid = false
  unsaid : (inner.hear (p.sent ++ (before ++ [c]).map Call.request) c).unsaid = true
  heard : out.1 = inner.hears p.sent before
    ++ inner.hears (p.sent ++ (before ++ [c]).map Call.request) ((c :: after).map (Call.onModel f))
  provider : out.2 =
    { p with
      fell_back := true
      sent := p.sent ++ (before ++ [c]).map Call.request
        ++ ((c :: after).map (Call.onModel f)).map Call.request }

/-- **The calls of a turn.** -/
theorem calls_cases (hp : p.fell_back = false) (cs : List (Call ι)) :
    Stayed inner p cs (p.calls inner cs) ∨
      ∃ f before c after, cs = before ++ c :: after ∧
        Fell inner p f before c after (p.calls inner cs) := by
  induction cs generalizing p with
  | nil => exact .inl ⟨rfl, by simp [calls], fun _ _ h => (nomatch h)⟩
  | cons c cs ih =>
    have hpost := post_of_stays hp c.request
    by_cases hfalls : (p.spare.isSome && (inner.hear (p.post c.request).sent c).unsaid) = true
    -- this is the call that goes out twice
    · have hcall : p.call inner c = _ := call_eq c
      rw [if_pos hfalls] at hcall
      rw [Bool.and_eq_true, Option.isSome_iff_exists] at hfalls
      obtain ⟨⟨f, hspare⟩, hunsaid⟩ := hfalls
      have hfallback := (spare_eq_some hspare).2.1
      rw [hpost] at hcall hunsaid
      have hagain : ({ p with sent := p.sent ++ [c.request] } : FallbackProvider ι).fallBack.post
          c.request = { p with
            fell_back := true
            sent := p.sent ++ [c.request] ++ [withModel c.request f] } :=
        post_of_fell_back (p := fallBack { p with sent := p.sent ++ [c.request] }) rfl hfallback
          c.request
      rw [hagain] at hcall
      have hrest : calls inner _ cs = _ := calls_of_fell_back
        (p := ⟨p.primary, p.fallback, true, p.sent ++ [c.request] ++ [withModel c.request f]⟩)
        rfl hfallback cs
      rw [calls, hcall]
      dsimp only
      rw [hrest]
      refine .inr ⟨f, [], c, cs, rfl, hspare, fun _ h => (nomatch h), hunsaid, ?_, ?_⟩
      · dsimp only
        rw [Inner.hears, List.map_cons, Inner.hears, Inner.hear_onModel, Call.onModel_request]
        rfl
      · simp
    · have hcall : p.call inner c = _ := call_eq c
      rw [if_neg hfalls, hpost] at hcall
      rw [hpost, Bool.and_eq_true, not_and, Bool.not_eq_true] at hfalls
      have hcalls : p.calls inner (c :: cs)
          = (inner.hear (p.sent ++ [c.request]) c ::
              (({ p with sent := p.sent ++ [c.request] } : FallbackProvider ι).calls inner cs).1,
           (({ p with sent := p.sent ++ [c.request] } : FallbackProvider ι).calls inner cs).2) := by
        rw [calls, hcall]
      rw [hcalls]
      rcases ih (p := { p with sent := p.sent ++ [c.request] }) hp
        with h | ⟨f, before, again, after, rfl, h⟩
      · refine .inl ⟨?_, ?_, fun hspare heard hmem => ?_⟩
        · rw [h.heard]
          rfl
        · rw [h.provider]
          simp
        · rcases List.mem_cons.mp hmem with rfl | hmem
          · exact hfalls hspare
          · exact h.settled hspare heard hmem
      · refine .inr ⟨f, c :: before, again, after, rfl, h.spare, fun heard hmem => ?_, ?_, ?_, ?_⟩
        · rcases List.mem_cons.mp hmem with rfl | hmem
          · exact hfalls (Option.isSome_iff_exists.mpr ⟨f, h.spare⟩)
          · exact h.settled heard hmem
        · simpa using h.unsaid
        · rw [h.heard]
          simp [Inner.hears]
        · rw [h.provider]
          simp

end FallbackProvider

/-! ## The decision -/

section Decide

variable {settings : Settings} {tier t : Tier}

/-- A question that FAST may answer: FAST was asked for, or AUTO was and found nothing that speaks
against it. -/
def FastAsked (choice : String) (agent environment : Option String) (attachment_chars : ℕ) : Prop :=
  choice = "fast" ∨
    choice = "auto" ∧ environment ≠ some "prod" ∧ attachment_chars ≤ LARGE_ATTACHMENT_CHARS ∧
      ∀ name, agent = some name → name ∈ FAST_AGENTS

theorem auto_tier_fast {agent environment : Option String} {attachment_chars : ℕ}
    (h : (auto_tier agent environment attachment_chars).1 = .fast) :
    environment ≠ some "prod" ∧ attachment_chars ≤ LARGE_ATTACHMENT_CHARS ∧
      ∀ name, agent = some name → name ∈ FAST_AGENTS := by
  unfold auto_tier at h
  split at h
  · cases h
  · rename_i henvironment
    refine ⟨henvironment, ?_⟩
    rcases agent with _ | agent
    · dsimp only at h
      split at h
      · cases h
      · rename_i hsmall
        exact ⟨Nat.not_lt.mp hsmall, fun _ hnone => (nomatch hnone)⟩
    · dsimp only at h
      split at h
      · cases h
      · split at h
        · cases h
        · rename_i hsmall
          refine ⟨Nat.not_lt.mp hsmall, fun name hname => ?_⟩
          rw [← Option.some.inj hname]
          split at h
          · cases h
          · split at h
            · assumption
            · cases h

theorem tierOf_fast {choice : String} {agent environment : Option String} {attachment_chars : ℕ}
    (hchoice : choice ∈ CHOICES)
    (h : (tierOf choice agent environment attachment_chars).1 = .fast) :
    FastAsked choice agent environment attachment_chars := by
  unfold tierOf at h
  split at h
  · rename_i found hfound
    have hvalue : found.value = choice := by simpa using List.find?_some hfound
    rw [← hvalue, show found = .fast from h]
    exact .inl rfl
  · rename_i hnone
    rcases List.mem_cons.mp hchoice with hauto | htier
    · exact .inr ⟨hauto, auto_tier_fast h⟩
    · obtain ⟨found, hfound, hvalue⟩ := List.mem_map.mp htier
      exact absurd (decide_eq_true hvalue) (List.find?_eq_none.mp hnone found hfound)

/-- The tier that is found is allowed, and not FAST unless FAST was looked for. -/
theorem allowed_spec (h : _allowed settings tier = some t) :
    TIER_MODELS t ∈ settings.AI_ALLOWED_MODELS ∧ (t = .fast → tier = .fast) := by
  have hallowed := List.find?_some h
  rw [decide_eq_true_eq] at hallowed
  refine ⟨hallowed, ?_⟩
  have hmem := List.mem_of_find?_eq_some h
  rintro rfl
  cases tier <;> revert hmem <;> decide

/-- What holds of every decision. -/
structure Decided (settings : Settings) (fast : Prop) (route : RouteDecision) : Prop where
  model : route.model ∈ settings.AI_ALLOWED_MODELS ∨
    route.tier = none ∧ route.model = settings.AI_DEFAULT_MODEL
  fallback : ∀ f, route.fallback_model = some f →
    f ∈ settings.AI_ALLOWED_MODELS ∧ f ≠ TIER_MODELS .fast ∧ f ≠ route.model ∧ f ≠ ""
  fast : route.tier.isSome = true → route.model = TIER_MODELS .fast → fast

theorem decide_spec {requested agent environment : Option String} {attachment_chars : ℕ}
    {route : RouteDecision}
    (h : decide settings requested agent environment attachment_chars = .ok route) :
    Decided settings (FastAsked (choiceOf requested) agent environment attachment_chars) route := by
  unfold decide at h
  dsimp only at h
  split at h
  · split at h
    · cases h
    -- a model that was named
    · rename_i hallowed
      rw [← Except.ok.inj h]
      exact ⟨.inl (not_not.mp hallowed), fun _ hf => (nomatch hf), fun hf => (nomatch hf)⟩
  · rename_i hchoice
    rw [not_not] at hchoice
    split at h
    · rw [← Except.ok.inj h]
      exact ⟨.inr ⟨rfl, rfl⟩, fun _ hf => (nomatch hf), fun hf => (nomatch hf)⟩
    · rename_i allowed hallowed
      have hfound := allowed_spec hallowed
      rw [← Except.ok.inj h]
      refine ⟨.inl hfound.1, fun f hf => ?_, fun _ hmodel => ?_⟩
      · obtain ⟨next, hnext, hother⟩ := Option.bind_eq_some_iff.mp hf
        have hspare := allowed_spec hnext
        rw [Option.ite_none_right_eq_some] at hother
        obtain ⟨hne, hf⟩ := hother
        rw [← Option.some.inj hf]
        refine ⟨hspare.1, ?_, fun hsame => hne (TIER_MODELS_inj.mp hsame), ?_⟩
        · intro hfast
          have hfallback := hspare.2 (TIER_MODELS_inj.mp hfast)
          cases allowed <;> cases hfallback
        · cases next <;> decide
      · exact tierOf_fast hchoice (hfound.2 (TIER_MODELS_inj.mp hmodel))

end Decide

/-! ## The turns -/

def RouteDecision.provider (route : RouteDecision) : FallbackProvider ι where
  primary := route.model
  fallback := route.fallback_model

/-- The question to the model that was decided. -/
def RouteDecision.ask (route : RouteDecision) (question : Question) : Question :=
  { question with model := route.model }

/-- The provider of the turn as the loop sees it. The exceptions of `ai/exceptions.py` reach the
loop as they are, and it looks at none of them. -/
def FallbackProvider.chats (inner : Inner ι) (raising : Raised → AppException)
    (p : FallbackProvider ι) : Provider ι := fun requests =>
  match (p.calls inner (requests.map .chat)).1.getLast? with
  | some (.chat (.ok reply)) => .ok reply
  | some (.chat (.error e)) => .error (raising e)
  | _ => .error (PythonError "no request")

/-- What was read of a stream, as a reply. -/
def Round.reply (round : Round ι) : Reply ι where
  text := round.content_parts
  stop_reason := round.stop_reason
  usage := round.usage.getD Usage.zero
  tool_calls := round.tool_calls

/-- And as the streaming loop sees it. A stream that breaks off ends the turn. -/
def FallbackProvider.streams (inner : Inner ι) (raising : Raised → AppException)
    (p : FallbackProvider ι) : Provider ι := fun requests =>
  match (p.calls inner (requests.map .stream_chat)).1.getLast? with
  | some (.stream_chat ⟨events, none⟩) => .ok (Round.reply (consume {} events))
  | some (.stream_chat ⟨_, some e⟩) => .error (raising e)
  | _ => .error (PythonError "no request")

section Turns

variable {tools : Tools S ι} {provider : Provider ι} (turn : Turn)
  {definitions : List ToolDefinition}

/-- Every request names the model of the turn. -/
def Names (model : String) (requests : List (ChatRequest ι)) : Prop :=
  ∀ request ∈ requests, request.model = model

theorem Names.send {model : String} {requests : List (ChatRequest ι)} (h : Names model requests)
    {request : ChatRequest ι} (hrequest : request.model = model) :
    Names model (requests ++ [request]) := by
  intro r hr
  rcases List.mem_append.mp hr with hr | hr
  · exact h r hr
  · rw [List.mem_singleton.mp hr]
    exact hrequest

theorem rounds_names {n : ℕ} {σ : Loop S ι} (h : Names turn.model σ.requests) :
    Names turn.model (rounds tools provider turn definitions n σ).2.requests := by
  induction n generalizing σ with
  | zero =>
    rw [rounds, lastRequest]
    split <;> exact h.send rfl
  | succ n ih =>
    have hsent : Names turn.model (σ.send turn definitions).requests := h.send rfl
    rw [rounds]
    dsimp only
    rcases provider (σ.send turn definitions).requests with e | reply
    · exact hsent
    · dsimp only
      split
      · exact hsent
      · have hanswered := answerCalls_requests tools turn reply.response
          (((σ.send turn definitions).charge reply.response.usage).keep reply.response.content)
        rw [Loop.keep_requests] at hanswered
        split
        · rename_i hanswer
          rw [hanswer] at hanswered
          rw [hanswered]
          exact hsent
        · rename_i hanswer
          rw [hanswer] at hanswered
          exact ih (hanswered ▸ hsent)

variable (tools) in
theorem streamCalls_requests (calls : List (ToolCall ι)) (done : List ToolResult)
    (τ : StreamLoop S ι) : (streamCalls tools turn done calls τ).2.requests = τ.requests := by
  obtain ⟨yielded, hcalls⟩ : ∃ yielded, streamCalls tools turn done calls τ
    = (_, { τ with world := _, yielded := yielded }) := streamCalls_eq calls done τ
  rw [hcalls]

variable (tools) in
theorem streamAnswer_requests (round : Round ι) (τ : StreamLoop S ι) :
    (streamAnswer tools turn round τ).2.requests = τ.requests := by
  have hcalls := streamCalls_requests tools turn (round.tool_calls.getD []) []
    (τ.say { role := .assistant, content := String.join round.content_parts,
             tool_calls := some (round.tool_calls.getD []) })
  unfold streamAnswer
  dsimp only
  split <;> rename_i hanswer <;> rw [hanswer] at hcalls <;> exact hcalls

theorem streamRounds_names {enable_tools : Bool} {n : ℕ} {τ : StreamLoop S ι}
    (h : Names turn.model τ.requests) :
    Names turn.model
      (streamRounds tools provider turn definitions enable_tools n τ).2.requests := by
  induction n generalizing τ with
  | zero =>
    rw [streamRounds, streamLast]
    split <;> exact h.send rfl
  | succ n ih =>
    have hsent : Names turn.model (τ.send turn definitions).requests := h.send rfl
    rw [streamRounds]
    dsimp only
    rcases provider (τ.send turn definitions).requests with e | reply
    · exact hsent
    · dsimp only
      split
      · exact hsent
      · have hanswered := streamAnswer_requests tools turn (consume {} reply.events)
          ((τ.send turn definitions).read (consume {} reply.events))
        split
        · rename_i hanswer
          rw [hanswer] at hanswered
          rw [hanswered]
          exact hsent
        · rename_i hanswer
          rw [hanswer] at hanswered
          exact ih (hanswered ▸ hsent)

variable (o : Orchestrator S ι) (session : Session) (question : Question) (db : S)

theorem chat_turn_names (provider : Provider ι) :
    Names question.model (_chat_turn o provider session question db).2.requests := by
  unfold _chat_turn
  split
  · exact fun _ h => (nomatch h)
  · dsimp only
    rw [run_tool_loop_state]
    exact rounds_names (turnOf o session question _ _) fun _ h => (nomatch h)

theorem stream_turn_names (provider : Provider ι) :
    Names question.model (_stream_turn o provider session question db).2.requests := by
  unfold _stream_turn
  split
  · exact fun _ h => (nomatch h)
  · exact streamRounds_names (turnOf o session question _ _) fun _ h => (nomatch h)

end Turns

/-! ## What reaches the models -/

/-- The provider of a turn behind its requests, which are calls of one kind. -/
def RouteDecision.behind (route : RouteDecision) (inner : Inner ι) (kind : ChatRequest ι → Call ι)
    (requests : List (ChatRequest ι)) : FallbackProvider ι :=
  (route.provider.calls inner (requests.map kind)).2

/-- And what the turn has heard. -/
def RouteDecision.heard (route : RouteDecision) (inner : Inner ι) (kind : ChatRequest ι → Call ι)
    (requests : List (ChatRequest ι)) : List (Heard ι) :=
  (route.provider.calls inner (requests.map kind)).1

/-- The requests have reached the model that was decided as they are, and it has answered them. -/
structure StayedOn (inner : Inner ι) (route : RouteDecision) (kind : ChatRequest ι → Call ι)
    (requests : List (ChatRequest ι)) : Prop where
  fell_back : (route.behind inner kind requests).fell_back = false
  sent : (route.behind inner kind requests).sent = requests
  heard : route.heard inner kind requests = inner.hears [] (requests.map kind)
  settled : route.fallback_model.isSome = true →
    ∀ heard ∈ route.heard inner kind requests, heard.unsaid = false

/-- One of them was the first to fail before anything was said. It was made again, and it and
those behind it have reached the other model, whose answers the turn has heard. -/
structure HandedOver (inner : Inner ι) (route : RouteDecision) (kind : ChatRequest ι → Call ι)
    (f : String) (before : List (ChatRequest ι)) (again : ChatRequest ι)
    (after : List (ChatRequest ι)) : Prop where
  fell_back : (route.behind inner kind (before ++ again :: after)).fell_back = true
  sent : (route.behind inner kind (before ++ again :: after)).sent
    = before ++ again :: (again :: after).map (withModel · f)
  heard : route.heard inner kind (before ++ again :: after)
    = inner.hears [] (before.map kind)
      ++ inner.hears (before ++ [again]) (((again :: after).map kind).map (Call.onModel f))
  settled : ∀ heard ∈ inner.hears [] (before.map kind), heard.unsaid = false
  unsaid : (inner.hear (before ++ [again]) (kind again)).unsaid = true

/-- The requests of a turn as they reach the models. -/
structure Served (settings : Settings) (fast : Prop) (inner : Inner ι) (route : RouteDecision)
    (kind : ChatRequest ι → Call ι) (requests : List (ChatRequest ι)) : Prop where
  names : Names route.model requests
  once : StayedOn inner route kind requests ∨
    ∃ f before again after, route.fallback_model = some f ∧ f ≠ route.model ∧
      f ≠ TIER_MODELS .fast ∧ requests = before ++ again :: after ∧
        HandedOver inner route kind f before again after
  /-- the provider's `model_used`, under which the usage of the turn is booked -/
  booked : ∀ request, (route.behind inner kind requests).sent.getLast? = some request →
    (route.behind inner kind requests).model_used = some request.model
  allowed : ∀ request ∈ (route.behind inner kind requests).sent,
    request.model ∈ settings.AI_ALLOWED_MODELS ∨ request.model = settings.AI_DEFAULT_MODEL
  fast : ∀ request ∈ (route.behind inner kind requests).sent,
    route.tier.isSome = true → request.model = TIER_MODELS .fast → fast

section Served

variable {settings : Settings} {fast : Prop} {inner : Inner ι} {route : RouteDecision}
  {requests : List (ChatRequest ι)}

variable {kind : ChatRequest ι → Call ι}

theorem map_request (hkind : ∀ request, (kind request).request = request)
    (requests : List (ChatRequest ι)) : (requests.map kind).map Call.request = requests := by
  rw [List.map_map]
  exact List.map_id'' hkind requests

theorem stayedOn (hroute : Decided settings fast route)
    (hkind : ∀ request, (kind request).request = request)
    (h : FallbackProvider.Stayed inner route.provider (requests.map kind)
      (route.provider.calls inner (requests.map kind))) :
    StayedOn inner route kind requests where
  fell_back := by
    rw [RouteDecision.behind, h.provider]
    rfl
  sent := by
    rw [RouteDecision.behind, h.provider]
    exact map_request hkind requests
  heard := h.heard
  settled := by
    intro hspare
    obtain ⟨f, hf⟩ := Option.isSome_iff_exists.mp hspare
    exact h.settled (Option.isSome_iff_exists.mpr
      ⟨f, FallbackProvider.spare_eq rfl hf (hroute.fallback f hf).2.2.2⟩)

variable {f : String} {before after : List (ChatRequest ι)} {again : ChatRequest ι}

theorem handedOver (hkind : ∀ request, (kind request).request = request)
    (h : FallbackProvider.Fell inner route.provider f (before.map kind) (kind again)
      (after.map kind) (route.provider.calls inner ((before ++ again :: after).map kind))) :
    HandedOver inner route kind f before again after where
  fell_back := by
    rw [RouteDecision.behind, h.provider]
  sent := by
    rw [RouteDecision.behind, h.provider]
    dsimp only [RouteDecision.provider]
    rw [Call.map_onModel_request, ← List.map_singleton, ← List.map_append, ← List.map_cons,
      map_request hkind, map_request hkind, List.nil_append, List.append_assoc]
    rfl
  heard := by
    rw [RouteDecision.heard, h.heard, ← List.map_singleton, ← List.map_append, map_request hkind]
    rfl
  settled := h.settled
  unsaid := by
    have hunsaid := h.unsaid
    rw [← List.map_singleton, ← List.map_append, map_request hkind] at hunsaid
    exact hunsaid

/-- A request that came through is one of the turn's, or names the other model. -/
theorem handed_models {model : String} (hnames : Names model (before ++ again :: after)) :
    ∀ request ∈ before ++ again :: (again :: after).map (withModel · f),
      request.model = model ∨ request.model = f := by
  intro request hmem
  rw [List.append_cons, List.mem_append, List.mem_map] at hmem
  rcases hmem with hmem | ⟨asked, -, rfl⟩
  · refine .inl (hnames request ?_)
    rw [List.append_cons]
    exact List.mem_append_left _ hmem
  · exact .inr rfl

theorem served (hroute : Decided settings fast route) (kind : ChatRequest ι → Call ι)
    (hkind : ∀ request, (kind request).request = request) (hnames : Names route.model requests) :
    Served settings fast inner route kind requests := by
  have hcases : FallbackProvider.Stayed inner route.provider (requests.map kind) _ ∨ _ :=
    FallbackProvider.calls_cases rfl (requests.map kind)
  rcases hcases with h | ⟨f, first, failed, others, hsplit, h⟩
  · have hstayed := stayedOn hroute hkind h
    refine ⟨hnames, .inl hstayed, fun request hlast => ?_, ?_, ?_⟩
    · rw [hstayed.sent] at hlast
      rw [FallbackProvider.model_used, hstayed.fell_back,
        hnames request (List.mem_of_getLast? hlast), RouteDecision.behind, h.provider]
      rfl
    · rw [hstayed.sent]
      intro request hmem
      rw [hnames request hmem]
      exact hroute.model.imp id And.right
    · rw [hstayed.sent]
      intro request hmem htier hfast
      exact hroute.fast htier ((hnames request hmem).symm.trans hfast)
  · obtain ⟨before, others, rfl, rfl, hothers⟩ := List.map_eq_append_iff.mp hsplit
    obtain ⟨again, after, rfl, rfl, rfl⟩ := List.map_eq_cons_iff.mp hothers
    obtain ⟨hfallback, -⟩ := (FallbackProvider.spare_eq_some h.spare).2
    obtain ⟨hallowed, hslow, hother, -⟩ := hroute.fallback f hfallback
    have hhanded := handedOver hkind h
    have hmodels := handed_models (f := f) hnames
    refine ⟨hnames, .inr ⟨f, before, again, after, hfallback, hother, hslow, rfl, hhanded⟩,
      fun request hlast => ?_, ?_, ?_⟩
    · rw [hhanded.sent, List.append_cons, List.map_cons, List.getLast?_append_cons] at hlast
      have hmem : request ∈ (again :: after).map (withModel · f) := List.mem_of_getLast? hlast
      obtain ⟨asked, -, rfl⟩ := List.mem_map.mp hmem
      rw [FallbackProvider.model_used, if_pos hhanded.fell_back, RouteDecision.behind, h.provider]
      exact hfallback
    · rw [hhanded.sent]
      intro request hmem
      rcases hmodels request hmem with hmodel | hmodel
      · rw [hmodel]
        exact hroute.model.imp id And.right
      · rw [hmodel]
        exact .inl hallowed
    · rw [hhanded.sent]
      intro request hmem htier hfast
      rcases hmodels request hmem with hmodel | hmodel
      · exact hroute.fast htier (hmodel.symm.trans hfast)
      · exact absurd (hmodel.symm.trans hfast) hslow

/-- **Which models a turn is sent to.** Whatever they answer and the tools do, the requests of a
turn name the model that was decided, and reach it in their order. At most once one of them fails
before anything was said, with an error that another model may not have: it is made again, and it
and all that follow name the neighbouring tier's model, another one and never FAST. All the models
are ones that the deployment allows, or its default; of a tier that was routed to, FAST is among
them only for a question that it may answer; and the turn is booked under the model that was asked
last. -/
theorem turn_models {requested agent environment : Option String} {attachment_chars : ℕ}
    (raising : Raised → AppException) (o : Orchestrator S ι) (session : Session)
    (question : Question) (db : S)
    (hroute : decide settings requested agent environment attachment_chars = .ok route) :
    Served settings (FastAsked (choiceOf requested) agent environment attachment_chars) inner route
        .chat (_chat_turn o (route.provider.chats inner raising) session (route.ask question)
          db).2.requests ∧
      Served settings (FastAsked (choiceOf requested) agent environment attachment_chars) inner
        route .stream_chat (_stream_turn o (route.provider.streams inner raising) session
          (route.ask question) db).2.requests :=
  ⟨served (decide_spec hroute) .chat (fun _ => rfl)
      (chat_turn_names o session (route.ask question) db _),
    served (decide_spec hroute) .stream_chat (fun _ => rfl)
      (stream_turn_names o session (route.ask question) db _)⟩

/-! ## An overloaded model -/

def tiers : Settings := ⟨TIERS.map TIER_MODELS, TIER_MODELS .best⟩

/-- The second request finds the model overloaded, and so does the first that repeats it. -/
def overloaded : Inner Unit where
  chat sent :=
    if sent.length = 2 then .error (.AIProviderError "Error code: 529 - Overloaded")
    else if sent.length = 1 then
      .ok { text := ["Let me check."], stop_reason := some "tool_use", usage := ⟨10, 5, 0, 0⟩,
            tool_calls := some [⟨"call_1", "lookup_tm1_function", ()⟩] }
    else .ok { text := ["Use CellGetN."], stop_reason := some "end_turn", usage := ⟨20, 5, 0, 0⟩ }
  stream_chat _ := ⟨[], some (.AIProviderRateLimitError "rate limited")⟩

def cellQuestion : Question := ⟨"How do I read a cell?", [], "", true, none⟩

/-- A plain question goes to FAST, and from its second round on to the tier above. -/
theorem turn_models_overloaded : ∃ route,
    decide tiers none none none 0 = .ok route ∧
      ((route.behind overloaded .chat (_chat_turn plainChat
        (route.provider.chats overloaded fun _ => PythonError "overloaded") ⟨1, 7, 1⟩
        (route.ask cellQuestion) ()).2.requests).sent.map ChatRequest.model
          = ["claude-haiku-4-5", "claude-haiku-4-5", "claude-sonnet-5"]) ∧
      Served tiers (FastAsked (choiceOf none) none none 0) overloaded route .stream_chat
        (_stream_turn plainChat
          (route.provider.streams overloaded fun _ => PythonError "overloaded") ⟨1, 7, 1⟩
          (route.ask cellQuestion) ()).2.requests :=
  ⟨_, rfl, by decide +kernel, (turn_models _ plainChat ⟨1, 7, 1⟩ cellQuestion () rfl).2⟩

end Served

end PaCopilot.routing
