/-
The monthly allowance of an organization, and the turns that are running on it:
`_check_usage_quota`, `_begin_turn` and `_end_turn` of `ai/orchestrator.py`, with the plans
of `billing/plans.py`.

What a turn used is charged when the transaction of its request commits, at the end of the
request. Until then the check makes up for it with a reservation, which it counts for the
turns that are registered in this process. A turn registers when its check has passed and
unregisters when its answer is there, before the commit. So there are turns that no check
counts, in neither term, and there are charges that come too late for the usage that a
check has read and too early for the registrations that it counts.

An instant is kept as its calendar month, which is all that the check asks of it.
-/
import PaCopilot.Errors
import PaCopilot.Python
import PaCopilot.Lib.Run

set_option autoImplicit false

namespace PaCopilot.quota

open Run

/-! ## The limit -/

/-- `Plan`, as far as the limit goes. -/
structure Plan where
  key : String
  monthly_token_limit : Option ℕ

def TRIAL : Plan := ⟨"trial", some 2000000⟩

def PROFESSIONAL : Plan := ⟨"professional", some 20000000⟩

def ENTERPRISE : Plan := ⟨"enterprise", none⟩

def INTERNAL : Plan := ⟨"internal", none⟩

def PLANS : List Plan := [TRIAL, PROFESSIONAL, ENTERPRISE, INTERNAL]

def DEFAULT_PLAN : Plan := TRIAL

/-- `str(key).strip().lower()`, of a key in ASCII. -/
def planKey (key : String) : String :=
  Python.lowerAscii (String.ofList (Python.strip key.toList))

def get_plan (key : Option String) : Plan :=
  match key with
  | none => DEFAULT_PLAN
  | some key =>
    if key = "" then DEFAULT_PLAN
    else (PLANS.find? fun plan => plan.key = planKey key).getD DEFAULT_PLAN

/-- The stricter of the plan's limit and the deployment's. -/
def monthly_token_limit_for (plan_key : Option String) (deployment_limit : Option ℕ) : Option ℕ :=
  match (get_plan plan_key).monthly_token_limit, deployment_limit with
  | none, none => none
  | some limit, none => some limit
  | none, some limit => some limit
  | some limit, some limit' => some (min limit limit')

/-- The settings of `core/config.py` that the check depends on. -/
structure Settings where
  AI_MONTHLY_TOKEN_LIMIT : Option ℕ
  AI_QUOTA_RESERVATION_TOKENS : ℕ

def defaultSettings : Settings := ⟨none, 50000⟩

/-! ## The turns of an organization -/

/-- A row of `ai_usage`, with the month it was created in. -/
structure AIUsage where
  month : ℕ
  total_tokens : ℕ
  deriving DecidableEq

/-- Where a turn is. -/
inductive Phase
  /-- Its check has read the usage of the month. -/
  | checking (total_tokens : ℕ)
  /-- It was admitted, and is registered. -/
  | running
  /-- It was cut off, and what it used is charged; it is still registered. -/
  | interrupted
  /-- It has unregistered. What it used is in the transaction of its request. -/
  | answered (usage : Option AIUsage)
  | over
  deriving DecidableEq

structure Turn where
  process : ℕ
  phase : Phase
  deriving DecidableEq

/-- It is registered in the process. -/
def Turn.registered (process : ℕ) (turn : Turn) : Bool :=
  turn.process = process && (turn.phase = .running || turn.phase = .interrupted)

/-- It was admitted, and what it used is not charged yet. -/
def Turn.uncharged (turn : Turn) : Bool :=
  match turn.phase with
  | .running => true
  | .answered usage => usage.isSome
  | _ => false

/-- The usage that is committed, and the turns, in the order of their requests. In each
process `_INFLIGHT_TURNS` counts those of the organization. -/
structure State where
  plan : Option String
  month : ℕ
  ledger : List AIUsage
  _INFLIGHT_TURNS : ℕ → ℕ := fun _ => 0
  turns : List Turn := []

/-- `get_total_tokens_since` the start of the month. -/
def get_total_tokens (s : State) : ℕ :=
  ((s.ledger.filter fun usage => s.month ≤ usage.month).map AIUsage.total_tokens).sum

def _begin_turn (process : ℕ) (s : State) : State :=
  { s with _INFLIGHT_TURNS :=
      Function.update s._INFLIGHT_TURNS process (s._INFLIGHT_TURNS process + 1) }

def _end_turn (process : ℕ) (s : State) : State :=
  { s with _INFLIGHT_TURNS :=
      Function.update s._INFLIGHT_TURNS process (s._INFLIGHT_TURNS process - 1) }

/-- The turn moves on. -/
def State.moved (s : State) (k : ℕ) (turn : Turn) (phase : Phase) : State :=
  { s with turns := s.turns.set k { turn with phase := phase } }

inductive Event
  /-- A request's check reads the usage. -/
  | check (process : ℕ)
  /-- The rest of the check, and `_begin_turn`: nothing is awaited in between. -/
  | register (k : ℕ)
  /-- The answer is there, with the row of its usage, or the turn failed without one. -/
  | answer (k : ℕ) (usage : Option AIUsage)
  /-- A streamed turn is cut off and its usage committed by `_record_interrupted_turn`. -/
  | interrupt (k : ℕ) (usage : AIUsage)
  /-- An interrupted turn unregisters. -/
  | leave (k : ℕ)
  /-- The transaction of the request commits. -/
  | commit (k : ℕ)
  /-- Or it is rolled back. -/
  | rollback (k : ℕ)
  | next_month
  deriving DecidableEq

section Steps

variable (settings : Settings) (s : State)

def State.limit : Option ℕ := monthly_token_limit_for s.plan settings.AI_MONTHLY_TOKEN_LIMIT

/-- `_check_usage_quota`, from what it has read on. -/
def _check_usage_quota (process total_tokens : ℕ) : Except AppException Unit :=
  match s.limit settings with
  | none => .ok ()
  | some limit =>
    let reserved := s._INFLIGHT_TURNS process * settings.AI_QUOTA_RESERVATION_TOKENS
    refuse (limit ≤ total_tokens + reserved)
      (QuotaExceededException "Monthly AI usage quota exceeded for this organization.")

def step : Event → Option State
  | .check process =>
    some { s with turns := s.turns ++ [⟨process, .checking (get_total_tokens s)⟩] }
  | .register k =>
    match s.turns[k]? with
    | some ⟨process, .checking total_tokens⟩ =>
      match _check_usage_quota settings s process total_tokens with
      | .error _ => some (s.moved k ⟨process, .checking total_tokens⟩ .over)
      | .ok () =>
        some ((_begin_turn process s).moved k ⟨process, .checking total_tokens⟩ .running)
    | _ => none
  | .answer k usage =>
    match s.turns[k]? with
    | some ⟨process, .running⟩ =>
      -- in the `finally`, before the commit of the request
      some ((_end_turn process s).moved k ⟨process, .running⟩ (.answered usage))
    | _ => none
  | .interrupt k usage =>
    match s.turns[k]? with
    | some ⟨process, .running⟩ =>
      some ({ s with ledger := s.ledger ++ [usage] }.moved k ⟨process, .running⟩ .interrupted)
    | _ => none
  | .leave k =>
    match s.turns[k]? with
    | some ⟨process, .interrupted⟩ =>
      some ((_end_turn process s).moved k ⟨process, .interrupted⟩ .over)
    | _ => none
  | .commit k =>
    match s.turns[k]? with
    | some ⟨process, .answered usage⟩ =>
      some ({ s with ledger := s.ledger ++ usage.toList }.moved k ⟨process, .answered usage⟩ .over)
    | _ => none
  | .rollback k =>
    match s.turns[k]? with
    | some ⟨process, .answered usage⟩ =>
      some (s.moved k ⟨process, .answered usage⟩ .over)
    | _ => none
  | .next_month => some { s with month := s.month + 1 }

end Steps

/-! ## What is asked -/

/-- The turn that the step admits. -/
def admitted (settings : Settings) (s : State) : Event → Option Turn
  | .register k =>
    match s.turns[k]? with
    | some ⟨process, .checking total_tokens⟩ =>
      match _check_usage_quota settings s process total_tokens with
      | .error _ => none
      | .ok () => some ⟨process, .checking total_tokens⟩
    | _ => none
  | _ => none

/-- When a turn is admitted, the usage that is committed and a reservation for every other
turn that was admitted and is not charged yet are below the limit. -/
def BelowLimit (settings : Settings) (s : State) (e : Event) : Prop :=
  ∀ turn, admitted settings s e = some turn → ∀ limit, s.limit settings = some limit →
    get_total_tokens s
      + s.turns.countP Turn.uncharged * settings.AI_QUOTA_RESERVATION_TOKENS < limit

/-- When a turn is admitted, every turn that is not charged is registered in its process,
and nothing has been charged since its check read the usage. -/
def nothingMissed (settings : Settings) (s : State) (e : Event) : Bool :=
  match admitted settings s e with
  | some ⟨process, .checking total_tokens⟩ =>
    (s.turns.all fun turn => !turn.uncharged || turn.registered process)
      && get_total_tokens s ≤ total_tokens
  | _ => true

/-! ## The registrations -/

section Runs

variable {settings : Settings} {s s' : State} {e : Event} {k : ℕ} {turn : Turn} {phase : Phase}

/-- In each process the registrations are counted. -/
def Counted (s : State) : Prop :=
  ∀ process, s._INFLIGHT_TURNS process = s.turns.countP (Turn.registered process)

/-- The registrations after a turn has moved on. -/
theorem countP_moved (hk : s.turns[k]? = some turn) (phase : Phase) (process : ℕ) :
    (s.moved k turn phase).turns.countP (Turn.registered process)
        + (if turn.registered process then 1 else 0)
      = s.turns.countP (Turn.registered process)
        + (if Turn.registered process { turn with phase := phase } then 1 else 0) := by
  obtain ⟨hlt, hturn⟩ := List.getElem?_eq_some_iff.mp hk
  have hset := List.countP_set (p := Turn.registered process)
    (a := { turn with phase := phase }) hlt
  rw [hturn] at hset
  have hpos : turn.registered process = true → 0 < s.turns.countP (Turn.registered process) := by
    intro hregistered
    exact List.countP_pos_iff.mpr ⟨turn, List.mem_of_getElem? hk, hregistered⟩
  rw [State.moved, hset]
  by_cases hregistered : turn.registered process = true
  · -- the count is not zero, so the subtraction is one
    have := hpos hregistered
    rw [if_pos hregistered]
    omega
  · rw [if_neg hregistered]
    omega

/-- A turn that was not registered and is not. -/
theorem Counted.moved (h : Counted s) (hk : s.turns[k]? = some turn)
    (hsame : ∀ process, Turn.registered process { turn with phase := phase }
      = turn.registered process) : Counted (s.moved k turn phase) := by
  intro process
  have hcount := countP_moved hk phase process
  rw [hsame process] at hcount
  have hinflight := h process
  simp only [State.moved] at hcount ⊢
  omega

theorem Counted.begin_turn (h : Counted s) {process : ℕ} {total_tokens : ℕ}
    (hk : s.turns[k]? = some ⟨process, .checking total_tokens⟩) :
    Counted ((_begin_turn process s).moved k ⟨process, .checking total_tokens⟩ .running) := by
  intro other
  have hcount := countP_moved hk .running other
  have hinflight := h other
  simp only [State.moved, _begin_turn] at hcount ⊢
  by_cases hother : other = process
  · subst hother
    simp [Turn.registered] at hcount
    rw [Function.update_self]
    omega
  · simp [Turn.registered, Ne.symm hother] at hcount
    rw [Function.update_of_ne hother]
    omega

theorem Counted.end_turn (h : Counted s) {process : ℕ} {phase' : Phase}
    (hk : s.turns[k]? = some ⟨process, phase⟩) (hin : phase = .running ∨ phase = .interrupted)
    (hout : phase' ≠ .running ∧ phase' ≠ .interrupted) :
    Counted ((_end_turn process s).moved k ⟨process, phase⟩ phase') := by
  intro other
  have hcount := countP_moved hk phase' other
  have hinflight := h other
  simp only [State.moved, _end_turn] at hcount ⊢
  by_cases hother : other = process
  · subst hother
    simp [Turn.registered, hin, hout] at hcount
    rw [Function.update_self]
    omega
  · simp [Turn.registered, Ne.symm hother] at hcount
    rw [Function.update_of_ne hother]
    omega

theorem Counted.step (h : Counted s) (hstep : step settings s e = some s') : Counted s' := by
  cases e with
  | next_month =>
    rw [← Option.some.inj hstep]
    exact h
  | check process =>
    rw [← Option.some.inj hstep]
    -- a check registers nothing: the turn of the process is new, and not in flight
    intro other
    have hinflight := h other
    simp [Turn.registered] at hinflight ⊢
    omega
  | register k =>
    simp only [quota.step] at hstep
    split at hstep
    · next process total_tokens hk =>
      split at hstep
      · rw [← Option.some.inj hstep]
        exact h.moved hk fun _ => by simp [Turn.registered]
      · rw [← Option.some.inj hstep]
        exact h.begin_turn hk
    · cases hstep
  | answer k usage =>
    simp only [quota.step] at hstep
    split at hstep
    · next process hk =>
      rw [← Option.some.inj hstep]
      exact h.end_turn hk (.inl rfl) ⟨nofun, nofun⟩
    · cases hstep
  | interrupt k usage =>
    simp only [quota.step] at hstep
    split at hstep
    · next process hk =>
      rw [← Option.some.inj hstep]
      -- the ledger has no part in what is counted as in flight
      have hcharged : Counted { s with ledger := s.ledger ++ [usage] } := h
      exact hcharged.moved hk fun _ => by simp [Turn.registered]
    · cases hstep
  | leave k =>
    simp only [quota.step] at hstep
    split at hstep
    · next process hk =>
      rw [← Option.some.inj hstep]
      exact h.end_turn hk (.inr rfl) ⟨nofun, nofun⟩
    · cases hstep
  | commit k =>
    simp only [quota.step] at hstep
    split at hstep
    · next process usage hk =>
      rw [← Option.some.inj hstep]
      have hcharged : Counted { s with ledger := s.ledger ++ usage.toList } := h
      exact hcharged.moved hk fun _ => by simp [Turn.registered]
    · cases hstep
  | rollback k =>
    simp only [quota.step] at hstep
    split at hstep
    · next process usage hk =>
      rw [← Option.some.inj hstep]
      exact h.moved hk fun _ => by simp [Turn.registered]
    · cases hstep

/-- **An admission that misses nothing is below the limit.** -/
theorem Counted.belowLimit (h : Counted s) (hmissed : nothingMissed settings s e = true) :
    BelowLimit settings s e := by
  intro turn hturn limit hlimit
  cases e with
  | register k =>
    rw [nothingMissed, hturn] at hmissed
    simp only [admitted] at hturn
    split at hturn
    · next process total_tokens hk =>
      split at hturn
      · cases hturn
      · next hpassed =>
        cases hturn
        simp only [Bool.and_eq_true, decide_eq_true_eq] at hmissed
        obtain ⟨hall, hread⟩ := hmissed
        -- every turn that is not charged is one of those that were counted
        have hcounted : s.turns.countP Turn.uncharged ≤ s._INFLIGHT_TURNS process := by
          rw [h process]
          apply List.countP_mono_left
          intro other hother huncharged
          have := List.all_eq_true.mp hall other hother
          rwa [huncharged, Bool.not_true, Bool.false_or] at this
        simp only [_check_usage_quota, hlimit, refuse_eq_ok_iff] at hpassed
        have hreserved := Nat.mul_le_mul_right settings.AI_QUOTA_RESERVATION_TOKENS hcounted
        omega
    · cases hturn
  | _ => cases hturn

end Runs

/-- The requests start on an organization that nobody runs a turn of. -/
def State.start (plan : Option String) (month : ℕ) (ledger : List AIUsage) : State :=
  { plan := plan, month := month, ledger := ledger }

/-- **In every interleaving of turns whose admissions miss nothing, every admission is below
the limit.** -/
theorem below_limit_of_nothingMissed (settings : Settings) (plan : Option String) (month : ℕ)
    (ledger : List AIUsage) (events : List Event)
    (h : Along (step settings) (fun s e => nothingMissed settings s e = true)
      (State.start plan month ledger) events) :
    Along (step settings) (BelowLimit settings) (State.start plan month ledger) events := by
  refine along_of_invariant (I := Counted) (fun s e s' hs _ hstep => hs.step hstep)
    (fun s e hs hmissed => hs.belowLimit hmissed) (fun process => ?_) h
  rfl

/-- A turn whose answer is there, not charged yet, when the next one is checked. -/
def answeredBefore : List Event :=
  [.check 0, .register 0, .answer 0 (some ⟨0, 40000⟩), .check 0]

theorem answered_missed : ∃ s,
    run (step defaultSettings) (State.start none 0 [⟨0, 1950000⟩]) answeredBefore = some s ∧
      ¬ BelowLimit defaultSettings s (.register 1) := by
  refine ⟨_, rfl, fun h => ?_⟩
  have hbelow := h ⟨0, .checking 1950000⟩ (by decide) 2000000 (by decide)
  revert hbelow
  decide

/-- Two turns, one after the other. -/
theorem below_limit_in_turn : Along (step defaultSettings) (BelowLimit defaultSettings)
    (State.start none 0 [⟨0, 1900000⟩]) [.check 0, .register 0, .answer 0 (some ⟨0, 40000⟩),
      .commit 0, .check 0, .register 1] :=
  below_limit_of_nothingMissed defaultSettings none 0 _ _ (by decide)

end PaCopilot.quota
