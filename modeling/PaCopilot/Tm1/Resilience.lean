/-
`tm1/resilience.py`: the circuit breaker of a connection and
`call_with_resilience`, through which every call to TM1 goes.

What matters to the callers is which of three endings a call has: TM1 answered,
TM1 said no (`TM1ConnectionError` and its siblings), or nobody knows
(`TM1OutcomeUnknownError`). `call_with_resilience` decides that from what its
attempts met, and its result is an `Answer`. The two facts the change service
rests on are at the end: a write (`max_retries=0`) is sent at most once
(`call_with_resilience_sent_le`), and a definite error means that it did nothing
(`call_with_resilience_refused`).
-/
import PaCopilot.Errors

set_option autoImplicit false

namespace PaCopilot.Resilience

/-! ## What one attempt meets -/

/-- The transport errors `describe_failure` tells apart. -/
inductive Disruption
  | certificate
  | timeout
  | network
  | other (class_name : String)
  deriving DecidableEq

/-- How one attempt ended: it returned, the gateway gave up on it, the transport
failed, or TM1 answered with an HTTP error. `applied` is what only TM1 knows,
whether it had carried the request out by then. -/
inductive Attempt
  | returned
  | gateway (applied : Bool) (message : String)
  | disrupted (applied : Bool) (d : Disruption)
  | rest (applied : Bool) (status_code : ℕ) (reason : String)
  deriving DecidableEq

def TRANSIENT_STATUS_THRESHOLD : ℕ := 500

/-- TM1 carried the request out. An HTTP error below 500 is a refusal, and a
refused request did nothing. -/
def Attempt.applied : Attempt → Bool
  | .returned => true
  | .gateway b _ => b
  | .disrupted b _ => b
  | .rest b code _ => b && decide (TRANSIENT_STATUS_THRESHOLD ≤ code)

/-- `describe_failure`. -/
def describe_failure : Attempt → String
  | .returned => ""
  | .gateway _ message => message
  | .disrupted _ .certificate =>
    "The server's TLS certificate is not trusted (it may be self-signed "
      ++ "or issued by a private authority)."
  | .rest _ code reason => s!"TM1 returned HTTP {code} ({reason})."
  | .disrupted _ .timeout => "The server did not respond in time."
  | .disrupted _ .network =>
    "The server could not be reached, or something in front of it " ++ "answered instead."
  | .disrupted _ (.other name) => s!"The server could not be reached ({name})."

/-! ## The circuit breaker -/

inductive CircuitState
  | CLOSED
  | OPEN
  | HALF_OPEN
  deriving DecidableEq

/-- The clock and the cooldown are whole numbers here. In the code they are floats, and the time
since a breaker opened is rounded to one before it is compared with the cooldown. -/
structure CircuitBreaker where
  failure_threshold : ℕ
  cooldown_seconds : ℕ
  state : CircuitState
  failure_count : ℕ
  opened_at : Option ℕ
  deriving DecidableEq

namespace CircuitBreaker

/-- `before_call`: an open breaker refuses until its cooldown is over. -/
def before_call (b : CircuitBreaker) (now : ℕ) : Except DefiniteError CircuitBreaker :=
  if b.state ≠ .OPEN then .ok b
  else
    let cooled := match b.opened_at with
      | some t => decide (t + b.cooldown_seconds ≤ now)
      | none => false
    if cooled then .ok { b with state := .HALF_OPEN }
    else .error ⟨.TM1ConnectionError,
      "Circuit breaker open: TM1 connection is currently unavailable."⟩

def record_success (b : CircuitBreaker) : CircuitBreaker :=
  { b with state := .CLOSED, failure_count := 0, opened_at := none }

def record_failure (b : CircuitBreaker) (now : ℕ) : CircuitBreaker :=
  let count := b.failure_count + 1
  if b.state = .HALF_OPEN ∨ b.failure_threshold ≤ count then
    { b with failure_count := count, state := .OPEN, opened_at := some now }
  else { b with failure_count := count }

end CircuitBreaker

/-! ## `call_with_resilience` -/

/-- What a call comes to: its answer, the breaker it leaves, and how many
attempts reached for TM1. -/
structure Called where
  answer : Answer
  breaker : CircuitBreaker
  sent : ℕ
  deriving DecidableEq

/-- The error an HTTP status below 500 is raised as. -/
def restError (code : ℕ) (a : Attempt) : DefiniteError :=
  if code = 401 ∨ code = 403 then ⟨.TM1AuthenticationError, describe_failure a⟩
  else if code = 404 then ⟨.TM1NotFoundError, describe_failure a⟩
  else ⟨.TM1ConnectionError, describe_failure a⟩

/-- The retry loop: `left` attempts may still be made, `sent` were made, and
`before` says whether one of those was carried out without saying so. -/
def retryLoop (b : CircuitBreaker) (now : ℕ) (tries : ℕ) (attempts : ℕ → Attempt) :
    (left sent : ℕ) → (before : Bool) → (last : Attempt) → Called
  | 0, sent, before, last =>
    ⟨.unknown before (s!"TM1 request failed after {tries} attempts: " ++ describe_failure last),
      b.record_failure now, sent⟩
  | left + 1, sent, before, _ =>
    let a := attempts sent
    match a with
    | .returned => ⟨.ok, b.record_success, sent + 1⟩
    | .gateway _ _ =>
      -- not retried: the gateway already tried TM1 itself
      ⟨.unknown (before || a.applied) (describe_failure a), b.record_failure now, sent + 1⟩
    | .rest _ code _ =>
      if code < TRANSIENT_STATUS_THRESHOLD then
        ⟨.refused (restError code a), b, sent + 1⟩
      else retryLoop b now tries attempts left (sent + 1) (before || a.applied) a
    | .disrupted _ _ => retryLoop b now tries attempts left (sent + 1) (before || a.applied) a

/-- `call_with_resilience`, with what each of its attempts meets. -/
def call_with_resilience (b : CircuitBreaker) (started now max_retries : ℕ)
    (attempts : ℕ → Attempt) : Called :=
  match b.before_call started with
  | .error e => ⟨.refused e, b, 0⟩
  | .ok b' => retryLoop b' now (max_retries + 1) attempts (max_retries + 1) 0 false .returned

/-! ## What a write relies on -/

/-- No more attempts are made than were left. -/
theorem retryLoop_sent_le (b : CircuitBreaker) (now tries : ℕ) (attempts : ℕ → Attempt)
    (left sent : ℕ) (before : Bool) (last : Attempt) :
    (retryLoop b now tries attempts left sent before last).sent ≤ sent + left := by
  induction left generalizing sent before last with
  | zero => exact Nat.le_refl _
  | succ left ih =>
    have hnext := fun before' last' => ih (sent + 1) before' last'
    rw [retryLoop]
    split
    · show sent + 1 ≤ sent + (left + 1)
      omega
    · show sent + 1 ≤ sent + (left + 1)
      omega
    · split
      · show sent + 1 ≤ sent + (left + 1)
        omega
      · have h := hnext (before || (attempts sent).applied) (attempts sent)
        omega
    · have h := hnext (before || (attempts sent).applied) (attempts sent)
      omega

/-- A call makes at most one attempt more than it may retry; a write, which may
not, is sent at most once. -/
theorem call_with_resilience_sent_le (b : CircuitBreaker) (started now max_retries : ℕ)
    (attempts : ℕ → Attempt) :
    (call_with_resilience b started now max_retries attempts).sent ≤ max_retries + 1 := by
  unfold call_with_resilience
  cases b.before_call started with
  | error e => exact Nat.zero_le _
  | ok b' =>
    have h := retryLoop_sent_le b' now (max_retries + 1) attempts (max_retries + 1) 0 false .returned
    rw [Nat.zero_add] at h
    exact h

/-- **A write that ends in a definite error was not carried out**: either the
breaker was open and nothing was sent, or TM1 refused the one attempt. -/
theorem call_with_resilience_refused {b : CircuitBreaker} {started now : ℕ}
    {attempts : ℕ → Attempt} {e : DefiniteError}
    (h : (call_with_resilience b started now 0 attempts).answer = .refused e) :
    (call_with_resilience b started now 0 attempts).sent = 0 ∨ (attempts 0).applied = false := by
  revert h
  unfold call_with_resilience
  cases b.before_call started with
  | error e' => exact fun _ => .inl rfl
  | ok b' =>
    intro h
    refine .inr ?_
    simp only [Nat.zero_add, retryLoop] at h
    split at h
    · cases h
    · cases h
    · rename_i code reason ha
      by_cases hlt : code < TRANSIENT_STATUS_THRESHOLD
      · rw [ha, Attempt.applied]
        simp only [Bool.and_eq_false_imp, decide_eq_false_iff_not]
        exact fun _ => Nat.not_le.mpr hlt
      · rw [if_neg hlt] at h
        cases h
    · cases h

/-- A write whose outcome is unknown says truly whether its one attempt was
carried out. -/
theorem call_with_resilience_unknown {b : CircuitBreaker} {started now : ℕ}
    {attempts : ℕ → Attempt} {applied : Bool} {u : String}
    (h : (call_with_resilience b started now 0 attempts).answer = .unknown applied u) :
    applied = (attempts 0).applied := by
  revert h
  unfold call_with_resilience
  cases b.before_call started with
  | error e' => intro h; cases h
  | ok b' =>
    intro h
    simp only [Nat.zero_add, retryLoop, Bool.false_or] at h
    split at h
    · cases h
    · exact (Remote.Answer.unknown.inj h).1.symm
    · split at h
      · cases h
      · exact (Remote.Answer.unknown.inj h).1.symm
    · exact (Remote.Answer.unknown.inj h).1.symm

end PaCopilot.Resilience
