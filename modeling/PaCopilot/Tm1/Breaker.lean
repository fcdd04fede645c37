/-
The circuit breakers of `tm1/resilience.py` under calls that overlap.

A call looks its breaker up when it begins, keeps that object, and touches it once
more, when it ends. Between the two other calls begin and end, so a call may record a
success on a breaker that has opened meanwhile, or a failure on one that was closed
again. Still the three states of the breaker say nothing that the records since the
last success do not say ([`Agrees`]): it is open or half open exactly when they are
as many as the threshold, and half open only once the cooldown after the last of them
is over. So whom it refuses is a plain function of what was recorded ([`Refuses`]).

Time is counted in whole numbers, without the rounding of the code's floats; it is looked at in
one comparison only, that of the cooldown.

`_breakers` holds objects. One that is removed stays the breaker of the calls that have
it, so an object is named here by its connection and by how many that connection had
before.
-/
import PaCopilot.Tm1.Resilience
import PaCopilot.Lib.Run
import Mathlib.Logic.Function.Basic

set_option autoImplicit false

namespace PaCopilot.Resilience

open Run

/-! ## The registry -/

/-- The settings that a breaker is made with. -/
structure BreakerSettings where
  TM1_CIRCUIT_BREAKER_THRESHOLD : ℕ
  TM1_CIRCUIT_BREAKER_COOLDOWN_SECONDS : ℕ

/-- `_breakers`, and the breakers that were ever made. -/
structure Breakers (Conn : Type) where
  _breakers : Conn → Option ℕ
  made : Conn → ℕ
  object : Conn → ℕ → CircuitBreaker

section Registry

variable {Conn : Type} [DecidableEq Conn] (settings : BreakerSettings)

/-- `CircuitBreaker(...)`. -/
def newBreaker : CircuitBreaker where
  failure_threshold := settings.TM1_CIRCUIT_BREAKER_THRESHOLD
  cooldown_seconds := settings.TM1_CIRCUIT_BREAKER_COOLDOWN_SECONDS
  state := .CLOSED
  failure_count := 0
  opened_at := none

/-- The object changes. -/
def Breakers.set (b : Breakers Conn) (connection_id : Conn) (n : ℕ) (new : CircuitBreaker) :
    Breakers Conn :=
  { b with
    object := Function.update b.object connection_id
      (Function.update (b.object connection_id) n new) }

/-- `get_circuit_breaker`. -/
def get_circuit_breaker (connection_id : Conn) (b : Breakers Conn) : ℕ × Breakers Conn :=
  match b._breakers connection_id with
  | some n => (n, b)
  | none =>
    let n := b.made connection_id
    (n, { b.set connection_id n (newBreaker settings) with
            _breakers := Function.update b._breakers connection_id (some n)
            made := Function.update b.made connection_id (n + 1) })

/-- `remove_circuit_breaker`. -/
def remove_circuit_breaker (connection_id : Conn) (b : Breakers Conn) : Breakers Conn :=
  { b with _breakers := Function.update b._breakers connection_id none }

end Registry

/-! ## Calls that overlap -/

/-- How a call that was let through ends, by what it records. -/
inductive Ending
  | success
  | failure
  | definite
  deriving DecidableEq

/-- Where a call is: refused by the breaker, about to invoke its function, waiting for what
it invoked, or over. -/
inductive Stage
  | rejected
  | ready
  | invoked
  | over (ending : Ending)
  deriving DecidableEq

/-- A call of `call_with_resilience`, and how often it has invoked its function. -/
structure Call (Conn : Type) where
  connection_id : Conn
  breaker : ℕ
  max_retries : ℕ
  sent : ℕ
  stage : Stage

/-- What a call has recorded on a breaker. -/
inductive Recorded
  | success
  | failure (now : ℕ)
  deriving DecidableEq

def Recorded.failed : Recorded → Bool
  | .success => false
  | .failure _ => true

def Recorded.failureTime : Recorded → Option ℕ
  | .success => none
  | .failure now => some now

/-- The breakers, the calls, the time of the last step, and what was recorded for each
connection, the latest first. -/
structure State (Id Conn : Type) where
  breakers : Breakers Conn
  calls : Id → Option (Call Conn)
  clock : ℕ
  records : Conn → List Recorded

inductive Event (Id Conn : Type)
  | call (i : Id) (connection_id : Conn) (max_retries now : ℕ)
  | invoke (i : Id) (now : ℕ)
  | answer (i : Id) (a : Attempt) (now : ℕ)
  | remove (connection_id : Conn) (now : ℕ)

def Event.now {Id Conn : Type} : Event Id Conn → ℕ
  | .call _ _ _ now | .invoke _ now | .answer _ _ now | .remove _ now => now

/-- What an attempt makes of its call, after so many: an ending, or another attempt. -/
def endingOf (max_retries sent : ℕ) : Attempt → Option Ending
  | .returned => some .success
  -- not retried: the gateway already tried TM1 itself
  | .gateway _ _ => some .failure
  | .rest _ code _ =>
    -- TM1 answered, which says nothing of the connection
    if code < TRANSIENT_STATUS_THRESHOLD then some .definite
    else if sent ≤ max_retries then none
    else some .failure
  | .disrupted _ _ => if sent ≤ max_retries then none else some .failure

/-- What an ending does to the breaker. -/
def CircuitBreaker.record (b : CircuitBreaker) (now : ℕ) : Ending → CircuitBreaker
  | .success => b.record_success
  | .failure => b.record_failure now
  | .definite => b

/-- What an ending records. -/
def Ending.records (now : ℕ) : Ending → List Recorded
  | .success => [.success]
  | .failure => [.failure now]
  | .definite => []

section Steps

variable {Id Conn : Type} [DecidableEq Id] [DecidableEq Conn] (settings : BreakerSettings)

/-- No breaker has been made. -/
def State.start : State Id Conn :=
  ⟨⟨fun _ => none, fun _ => 0, fun _ _ => newBreaker settings⟩, fun _ => none, 0, fun _ => []⟩

def State.put (s : State Id Conn) (i : Id) (call : Call Conn) : State Id Conn :=
  { s with calls := Function.update s.calls i (some call) }

/-- `get_circuit_breaker` and `before_call`. -/
def begin (s : State Id Conn) (i : Id) (connection_id : Conn) (max_retries now : ℕ) :
    State Id Conn :=
  let (n, breakers) := get_circuit_breaker settings connection_id s.breakers
  match (breakers.object connection_id n).before_call now with
  | .error _ =>
    -- raised before anything is sent
    State.put { s with breakers := breakers } i ⟨connection_id, n, max_retries, 0, .rejected⟩
  | .ok b =>
    State.put { s with breakers := breakers.set connection_id n b } i
      ⟨connection_id, n, max_retries, 0, .ready⟩

/-- What an ending does, on the breaker of its call and in the records. -/
def recorded (s : State Id Conn) (call : Call Conn) (ending : Ending) (now : ℕ) :
    State Id Conn :=
  { s with
    breakers := s.breakers.set call.connection_id call.breaker
      ((s.breakers.object call.connection_id call.breaker).record now ending)
    records := Function.update s.records call.connection_id
      (ending.records now ++ s.records call.connection_id) }

/-- The end of an attempt. -/
def answered (s : State Id Conn) (i : Id) (call : Call Conn) (a : Attempt) (now : ℕ) :
    State Id Conn :=
  match endingOf call.max_retries call.sent a with
  | none => s.put i { call with stage := .ready }
  | some ending => (recorded s call ending now).put i { call with stage := .over ending }

/-- What an event does, where it can happen. -/
def act (s : State Id Conn) : Event Id Conn → Option (State Id Conn)
  | .call i connection_id max_retries now =>
    match s.calls i with
    | none => some (begin settings s i connection_id max_retries now)
    | some _ => none
  | .invoke i _ =>
    match s.calls i with
    | some call =>
      if call.stage = .ready then
        some (s.put i { call with sent := call.sent + 1, stage := .invoked })
      else none
    | none => none
  | .answer i a now =>
    match s.calls i with
    | some call => if call.stage = .invoked then some (answered s i call a now) else none
    | none => none
  | .remove connection_id _ =>
    some { s with breakers := remove_circuit_breaker connection_id s.breakers }

/-- An event, no earlier than those before it. -/
def step (s : State Id Conn) (e : Event Id Conn) : Option (State Id Conn) :=
  if s.clock ≤ e.now then (act settings s e).map fun s' => { s' with clock := e.now } else none

end Steps

section Answers

variable {Id Conn : Type} [DecidableEq Id] [DecidableEq Conn] (s : State Id Conn) (i : Id)
  {call : Call Conn} {a : Attempt} (now : ℕ)

theorem answered_next (h : endingOf call.max_retries call.sent a = none) :
    answered s i call a now = s.put i { call with stage := .ready } := by
  unfold answered
  rw [h]

theorem answered_ending {ending : Ending}
    (h : endingOf call.max_retries call.sent a = some ending) :
    answered s i call a now
      = (recorded s call ending now).put i { call with stage := .over ending } := by
  unfold answered
  rw [h]

end Answers

/-! ## Whom the breaker refuses -/

/-- How many failures have been recorded since the last success. -/
def failuresSince (records : List Recorded) : ℕ := (records.takeWhile Recorded.failed).length

/-- When the last failure was recorded. -/
def lastFailure (records : List Recorded) : Option ℕ := records.findSome? Recorded.failureTime

/-- The breaker says of the records what there is to say: how many failures, whether they are
as many as the threshold, when the last one was, and whether its cooldown is over. -/
structure Agrees (settings : BreakerSettings) (records : List Recorded) (clock : ℕ)
    (b : CircuitBreaker) : Prop where
  threshold : b.failure_threshold = settings.TM1_CIRCUIT_BREAKER_THRESHOLD
  cooldown : b.cooldown_seconds = settings.TM1_CIRCUIT_BREAKER_COOLDOWN_SECONDS
  count : b.failure_count = failuresSince records
  closed : b.state = .CLOSED ↔ failuresSince records < settings.TM1_CIRCUIT_BREAKER_THRESHOLD
  opened : b.state ≠ .CLOSED → ∃ t, b.opened_at = some t ∧ lastFailure records = some t
  half_open : b.state = .HALF_OPEN → ∀ t ∈ lastFailure records,
    t + settings.TM1_CIRCUIT_BREAKER_COOLDOWN_SECONDS ≤ clock

section Breaker

variable {settings : BreakerSettings} {records : List Recorded} {clock now : ℕ}
  {b b' : CircuitBreaker}

theorem Agrees.later (h : Agrees settings records clock b) (hle : clock ≤ now) :
    Agrees settings records now b :=
  { h with half_open := fun hhalf t ht => Nat.le_trans (h.half_open hhalf t ht) hle }

/-- A call that is let through leaves the breaker in agreement. -/
theorem Agrees.before_call (h : Agrees settings records clock b) (hle : clock ≤ now)
    (hok : b.before_call now = .ok b') : Agrees settings records now b' := by
  have hlater := h.later hle
  unfold CircuitBreaker.before_call at hok
  by_cases hstate : b.state = .OPEN
  · have hne : b.state ≠ .CLOSED := by rw [hstate]; exact nofun
    obtain ⟨t, hopened, hlast⟩ := h.opened hne
    rw [if_neg (not_not.mpr hstate), hopened, h.cooldown] at hok
    by_cases hcooled : t + settings.TM1_CIRCUIT_BREAKER_COOLDOWN_SECONDS ≤ now
    · rw [if_pos (by simpa using hcooled)] at hok
      cases hok
      constructor
      case threshold => exact h.threshold
      case cooldown => rfl
      case count => exact h.count
      case closed => exact iff_of_false nofun fun hfew => hne (h.closed.mpr hfew)
      case opened => exact fun _ => ⟨t, rfl, hlast⟩
      case half_open =>
        intro _ t' ht'
        rw [hlast, Option.mem_some_iff] at ht'
        omega
    · rw [if_neg (by simpa using hcooled)] at hok
      cases hok
  · rw [if_pos hstate] at hok
    cases hok
    exact hlater

/-- A success closes the breaker, whatever it was. -/
theorem Agrees.record_success (h : Agrees settings records clock b)
    (hthreshold : 1 ≤ settings.TM1_CIRCUIT_BREAKER_THRESHOLD) :
    Agrees settings (.success :: records) now b.record_success where
  threshold := h.threshold
  cooldown := h.cooldown
  count := rfl
  closed := iff_of_true rfl hthreshold
  opened hne := absurd rfl hne
  half_open hhalf := by cases hhalf

/-- A failure opens the breaker, or opens it again, once there are as many as the threshold. -/
theorem Agrees.record_failure (h : Agrees settings records clock b) :
    Agrees settings (.failure now :: records) now (b.record_failure now) := by
  have hcount : failuresSince (.failure now :: records) = failuresSince records + 1 := rfl
  have hlast : lastFailure (.failure now :: records) = some now := rfl
  unfold CircuitBreaker.record_failure
  dsimp only
  rw [h.threshold, h.count]
  by_cases hopens : b.state = .HALF_OPEN
      ∨ settings.TM1_CIRCUIT_BREAKER_THRESHOLD ≤ failuresSince records + 1
  · -- it opens: half open, the failures were as many as the threshold before
    have hmany : settings.TM1_CIRCUIT_BREAKER_THRESHOLD ≤ failuresSince records + 1 := by
      rcases hopens with hhalf | hmany
      · have hnot : ¬ failuresSince records < settings.TM1_CIRCUIT_BREAKER_THRESHOLD := by
          rw [← h.closed, hhalf]
          exact nofun
        omega
      · exact hmany
    rw [if_pos hopens]
    constructor
    case threshold => rfl
    case cooldown => exact h.cooldown
    case count => exact hcount.symm
    case closed =>
      refine iff_of_false nofun ?_
      rw [hcount]
      exact Nat.not_lt.mpr hmany
    case opened => exact fun _ => ⟨now, rfl, hlast⟩
    case half_open => exact fun hhalf => by cases hhalf
  · -- it was closed, and stays so
    rw [not_or, Nat.not_le] at hopens
    have hclosed : b.state = .CLOSED := h.closed.mpr (by omega)
    rw [if_neg (not_or.mpr ⟨hopens.1, Nat.not_le.mpr hopens.2⟩)]
    constructor
    case threshold => rfl
    case cooldown => exact h.cooldown
    case count => exact hcount.symm
    case closed =>
      refine iff_of_true hclosed ?_
      rw [hcount]
      exact hopens.2
    case opened => exact fun hne => absurd hclosed hne
    case half_open => exact fun hhalf => absurd hhalf hopens.1

/-- What a call records, it records on the breaker and in the records alike. -/
theorem Agrees.record (h : Agrees settings records clock b) (hle : clock ≤ now)
    (hthreshold : 1 ≤ settings.TM1_CIRCUIT_BREAKER_THRESHOLD) (ending : Ending) :
    Agrees settings (ending.records now ++ records) now (b.record now ending) := by
  cases ending with
  | success => exact h.record_success hthreshold
  | failure => exact h.record_failure
  | definite => exact h.later hle

end Breaker

/-! ## Runs -/

section Runs

variable {Id Conn : Type} {settings : BreakerSettings} {s s' : State Id Conn} {c d : Conn} {n : ℕ}

/-- The breaker of a connection that keeps it agrees with what was recorded, and its calls
have that breaker. -/
structure Tracks (settings : BreakerSettings) (c : Conn) (s : State Id Conn) : Prop where
  calls : ∀ i call, s.calls i = some call → call.connection_id = c →
    s.breakers._breakers c = some call.breaker
  absent : s.breakers._breakers c = none → s.records c = []
  present : ∀ n, s.breakers._breakers c = some n →
    Agrees settings (s.records c) s.clock (s.breakers.object c n)

/-- Time passes. -/
theorem Tracks.later {now : ℕ} (h : Tracks settings c s) (hle : s.clock ≤ now) :
    Tracks settings c { s with clock := now } where
  calls := h.calls
  absent := h.absent
  present := fun n hn => (h.present n hn).later hle

/-- Nothing that concerns the connection changes. -/
theorem Tracks.same (h : Tracks settings c s) (hcalls : s'.calls = s.calls)
    (hbreaker : s'.breakers._breakers c = s.breakers._breakers c)
    (hobject : s'.breakers.object c = s.breakers.object c)
    (hrecords : s'.records c = s.records c) (hclock : s'.clock = s.clock) :
    Tracks settings c s' := by
  constructor
  · rw [hcalls, hbreaker]
    exact h.calls
  · rw [hbreaker, hrecords]
    exact h.absent
  · rw [hbreaker, hobject, hrecords, hclock]
    exact h.present

section Lookups

variable [DecidableEq Conn] {b bs : Breakers Conn}

theorem Breakers.set_object_self (b : Breakers Conn) (c : Conn) (n : ℕ) (new : CircuitBreaker) :
    (b.set c n new).object c n = new := by
  dsimp only [Breakers.set]
  rw [Function.update_self, Function.update_self]

end Lookups

variable [DecidableEq Id] {e : Event Id Conn} {i : Id} {r now : ℕ}

theorem State.put_self (s : State Id Conn) (i : Id) (call : Call Conn) :
    (s.put i call).calls i = some call :=
  Function.update_self _ _ _

theorem State.put_of_ne {j : Id} {call : Call Conn} (hne : j ≠ i) :
    (s.put i call).calls j = s.calls j :=
  Function.update_of_ne hne _ _

/-- One call more, or one that is further on. -/
theorem Tracks.put (h : Tracks settings c s) (call : Call Conn)
    (hcall : call.connection_id = c → s.breakers._breakers c = some call.breaker) :
    Tracks settings c (s.put i call) := by
  constructor
  · intro j other hother hc
    by_cases hj : j = i
    · rw [hj, State.put_self, Option.some.injEq] at hother
      rw [← hother] at hc ⊢
      exact hcall hc
    · rw [State.put_of_ne hj] at hother
      exact h.calls j other hother hc
  · exact h.absent
  · exact h.present

variable [DecidableEq Conn]

/-- **What a call does when it begins.** -/
theorem begin_cases {bs : Breakers Conn} (i : Id) (r now : ℕ)
    (hget : get_circuit_breaker settings d s.breakers = (n, bs)) :
    (∃ e, (bs.object d n).before_call now = .error e ∧
      begin settings s i d r now = State.put { s with breakers := bs } i ⟨d, n, r, 0, .rejected⟩) ∨
    (∃ b, (bs.object d n).before_call now = .ok b ∧
      begin settings s i d r now
        = State.put { s with breakers := bs.set d n b } i ⟨d, n, r, 0, .ready⟩) := by
  unfold begin
  rw [hget]
  dsimp only
  rcases hadmit : (bs.object d n).before_call now with e | b
  · exact .inl ⟨e, rfl, rfl⟩
  · exact .inr ⟨b, rfl, rfl⟩

theorem step_eq_some_iff : step settings s e = some s' ↔
    s.clock ≤ e.now ∧ ∃ t, act settings s e = some t ∧ s' = { t with clock := e.now } := by
  unfold step
  by_cases hle : s.clock ≤ e.now
  · rw [if_pos hle, Option.map_eq_some_iff]
    simp only [hle, true_and, eq_comm]
  · rw [if_neg hle]
    exact iff_of_false nofun fun h => hle h.1

/-- A call invokes its function once more than it may retry, at most, and is ready to invoke
it only if it may. -/
def Call.Within (call : Call Conn) : Prop :=
  call.sent ≤ call.max_retries + 1 ∧ (call.stage = .ready → call.sent ≤ call.max_retries)

/-- After its last attempt a call is over. -/
theorem endingOf_eq_none {max_retries sent : ℕ} {a : Attempt}
    (h : endingOf max_retries sent a = none) : sent ≤ max_retries := by
  by_contra hlast
  cases a with
  | returned => cases h
  | gateway applied message => cases h
  | disrupted applied d =>
    rw [endingOf, if_neg hlast] at h
    cases h
  | rest applied code reason =>
    rw [endingOf, if_neg hlast] at h
    by_cases hdefinite : code < TRANSIENT_STATUS_THRESHOLD
    · rw [if_pos hdefinite] at h
      cases h
    · rw [if_neg hdefinite] at h
      cases h

/-- The events of the attempts that are left, until one ends the call. -/
def attemptsOf (i : Id) (now max_retries : ℕ) (attempts : ℕ → Attempt) :
    (left sent : ℕ) → List (Event Id Conn)
  | 0, _ => []
  | left + 1, sent =>
    .invoke i now :: .answer i (attempts sent) now ::
      match endingOf max_retries (sent + 1) (attempts sent) with
      | some _ => []
      | none => attemptsOf i now max_retries attempts left (sent + 1)

/-- The events of a call that meets the breaker `b`. -/
def eventsOf (b : CircuitBreaker) (i : Id) (connection_id : Conn) (started now max_retries : ℕ)
    (attempts : ℕ → Attempt) : List (Event Id Conn) :=
  .call i connection_id max_retries started ::
    match b.before_call started with
    | .error _ => []
    | .ok _ => attemptsOf i now max_retries attempts (max_retries + 1) 0

variable {b : CircuitBreaker} {attempts : ℕ → Attempt} {left sent : ℕ} {before : Bool}
  {last : Attempt}

/-- An attempt ends the loop as it ends the call. -/
theorem retryLoop_ending {ending : Ending} (b : CircuitBreaker) (now tries : ℕ) (before : Bool)
    (last : Attempt) (hleft : sent + left = r)
    (h : endingOf r (sent + 1) (attempts sent) = some ending) :
    (retryLoop b now tries attempts (left + 1) sent before last).breaker = b.record now ending ∧
      (retryLoop b now tries attempts (left + 1) sent before last).sent = sent + 1 := by
  -- an attempt that the call would retry is its last
  have hlast : ∀ last', ¬ sent + 1 ≤ r → ending = .failure → ∀ before',
      (retryLoop b now tries attempts left (sent + 1) before' last').breaker
          = b.record now ending ∧
        (retryLoop b now tries attempts left (sent + 1) before' last').sent = sent + 1 := by
    intro last' hover hfailure before'
    have hzero : left = 0 := by omega
    rw [hzero, hfailure, retryLoop]
    exact ⟨rfl, rfl⟩
  rw [retryLoop]
  rcases ha : attempts sent with _ | ⟨applied, message⟩ | ⟨applied, d⟩ | ⟨applied, code, reason⟩
  · rw [ha] at h
    cases h
    exact ⟨rfl, rfl⟩
  · rw [ha] at h
    cases h
    exact ⟨rfl, rfl⟩
  · rw [ha, endingOf] at h
    by_cases hmore : sent + 1 ≤ r
    · rw [if_pos hmore] at h
      cases h
    · rw [if_neg hmore, Option.some.injEq] at h
      exact hlast _ hmore h.symm _
  · rw [ha, endingOf] at h
    dsimp only
    by_cases hdefinite : code < TRANSIENT_STATUS_THRESHOLD
    · rw [if_pos hdefinite, Option.some.injEq] at h
      rw [if_pos hdefinite, ← h]
      exact ⟨rfl, rfl⟩
    · rw [if_neg hdefinite] at h
      rw [if_neg hdefinite]
      by_cases hmore : sent + 1 ≤ r
      · rw [if_pos hmore] at h
        cases h
      · rw [if_neg hmore, Option.some.injEq] at h
        exact hlast _ hmore h.symm _

/-- The loop goes on as the call does. -/
theorem retryLoop_next (tries : ℕ) (h : endingOf r (sent + 1) (attempts sent) = none) :
    retryLoop b now tries attempts (left + 1) sent before last
      = retryLoop b now tries attempts left (sent + 1) (before || (attempts sent).applied)
        (attempts sent) := by
  rw [retryLoop]
  rcases ha : attempts sent with _ | ⟨applied, message⟩ | ⟨applied, d⟩ | ⟨applied, code, reason⟩
  · rw [ha] at h
    cases h
  · rw [ha] at h
    cases h
  · rfl
  · rw [ha, endingOf] at h
    dsimp only
    by_cases hdefinite : code < TRANSIENT_STATUS_THRESHOLD
    · rw [if_pos hdefinite] at h
      cases h
    · rw [if_neg hdefinite]

/-- One attempt. -/
theorem run_attempt {call : Call Conn} {es : List (Event Id Conn)} (a : Attempt)
    (hcall : s.calls i = some call) (hready : call.stage = .ready) (hclock : s.clock ≤ now) :
    run (step settings) s (.invoke i now :: .answer i a now :: es)
      = run (step settings) { answered (State.put { s with clock := now } i
            { call with sent := call.sent + 1, stage := .invoked }) i
          { call with sent := call.sent + 1, stage := .invoked } a now with clock := now } es := by
  have hinvoke : step settings s (.invoke i now) = some (State.put { s with clock := now } i
      { call with sent := call.sent + 1, stage := .invoked }) := by
    rw [step_eq_some_iff]
    refine ⟨hclock, s.put i { call with sent := call.sent + 1, stage := .invoked }, ?_, rfl⟩
    simp only [act, hcall, if_pos hready]
  have hanswer : ∀ t : State Id Conn, t.clock ≤ now →
      t.calls i = some { call with sent := call.sent + 1, stage := .invoked } →
      step settings t (.answer i a now) = some { answered t i
        { call with sent := call.sent + 1, stage := .invoked } a now with clock := now } := by
    intro t ht hcalled
    rw [step_eq_some_iff]
    refine ⟨ht, _, ?_, rfl⟩
    simp only [act, hcalled, if_true]
  rw [run, hinvoke, Option.bind_some, run, hanswer _ (Nat.le_refl _) (State.put_self _ _ _),
    Option.bind_some]

/-- **A call's attempts are the retry loop.** -/
theorem run_attemptsOf (call : Call Conn) (last : Attempt) (hretries : call.max_retries = r)
    (hsent : call.sent + left = r + 1) (hpos : 0 < left) (hcall : s.calls i = some call)
    (hready : call.stage = .ready) (hclock : s.clock ≤ now)
    (hbreaker : s.breakers.object call.connection_id call.breaker = b) :
    ∃ s' done, run (step settings) s (attemptsOf i now r attempts left call.sent) = some s' ∧
      s'.calls i = some done ∧
      s'.breakers.object call.connection_id call.breaker
        = (retryLoop b now (r + 1) attempts left call.sent before last).breaker ∧
      done.sent = (retryLoop b now (r + 1) attempts left call.sent before last).sent := by
  induction left generalizing s call before last with
  | zero => exact absurd hpos (Nat.lt_irrefl 0)
  | succ left ih =>
    rw [attemptsOf, run_attempt _ hcall hready hclock]
    have hends : ∀ x, endingOf r (call.sent + 1) (attempts call.sent) = x →
        endingOf call.max_retries (call.sent + 1) (attempts call.sent) = x := by
      rw [hretries]
      exact fun _ h => h
    rcases hending : endingOf r (call.sent + 1) (attempts call.sent) with _ | ending
    · -- another attempt is left
      have hmore := endingOf_eq_none hending
      rw [retryLoop_next (r + 1) hending, answered_next _ i now (hends _ hending)]
      refine ih { call with sent := call.sent + 1, stage := .ready } _ hretries ?_ ?_
        (State.put_self _ _ _) rfl (Nat.le_refl _) hbreaker
      · show call.sent + 1 + left = r + 1
        omega
      · omega
    · -- this one was the last
      have hlast : call.sent + left = r := by omega
      have hloop := retryLoop_ending b now (r + 1) before last hlast hending
      rw [hloop.1, hloop.2, answered_ending _ i now (hends _ hending), ← hbreaker]
      refine ⟨_, _, rfl, State.put_self _ _ _, ?_, rfl⟩
      exact Breakers.set_object_self _ _ _ _

/-- **A call that no other overlaps is `call_with_resilience`**: it leaves the breaker that
this leaves, and has reached for TM1 as often. -/
theorem run_eventsOf (hpresent : s.breakers._breakers c = some n) (hnew : s.calls i = none)
    {started : ℕ} (hstarted : s.clock ≤ started) (hnow : started ≤ now) :
    ∃ s' done, run (step settings) s
        (eventsOf (s.breakers.object c n) i c started now r attempts) = some s' ∧
      s'.calls i = some done ∧
      s'.breakers.object c n
        = (call_with_resilience (s.breakers.object c n) started now r attempts).breaker ∧
      done.sent = (call_with_resilience (s.breakers.object c n) started now r attempts).sent := by
  have hget : get_circuit_breaker settings c s.breakers = (n, s.breakers) := by
    unfold get_circuit_breaker
    rw [hpresent]
  have hbegin : step settings s (.call i c r started)
      = some { begin settings s i c r started with clock := started } := by
    rw [step_eq_some_iff]
    refine ⟨hstarted, _, ?_, rfl⟩
    simp only [act, hnew]
  unfold eventsOf call_with_resilience
  rw [run, hbegin, Option.bind_some]
  rcases begin_cases i r started hget with ⟨e, herror, heq⟩ | ⟨b, hok, heq⟩
  · rw [herror, heq]
    exact ⟨_, _, rfl, State.put_self _ _ _, rfl, rfl⟩
  · rw [hok, heq]
    exact run_attemptsOf ⟨c, n, r, 0, .ready⟩ .returned rfl (Nat.zero_add _) (Nat.succ_pos r)
      (State.put_self { s with breakers := s.breakers.set c n b, clock := started } i _) rfl hnow
      (Breakers.set_object_self s.breakers c n b)

end Runs

end PaCopilot.Resilience
