/-
One window of `core/rate_limit.py`, among the others.

All keys share one store. A check expires and extends the log of its own key, by the
window it is given; a sweep deletes the logs whose last hit is older than the longest
window there is. So a key's log may lack hits that were admitted, in a way that depends
on what the other keys and the sweeps did, and still it holds every hit that counts: with
that one invariant ([`InStep`]) the windows are those of the whole history of the key.

What counts is decided by ages, and the code rounds them: of two readings that are less
than a window apart by less than the rounding, the difference is the window
([`earlyRequests_overrun`]). From the window's length on the clock reads so coarsely that
no age below the window is rounded ([`counts_exact`]), and the windows are exact
([`sliding_window`]).

A check is one event here, with its own reading of the clock, and a sweep another; a request
of a user or of an address is a few of them ([`enforce_events`], [`enforce_ip_events`]).
-/
import PaCopilot.Core.RateLimit

set_option autoImplicit false

namespace PaCopilot.rate_limit

open Run Window

/-! ## Checks and sweeps -/

/-- What happens to the windows. -/
inductive Event
  | check (key : Key) (limit : ℕ) (window now : ℚ)
  | sweep (now : ℚ)
  deriving DecidableEq

def Event.now : Event → ℚ
  | .check _ _ _ now => now
  | .sweep now => now

/-- The windows, and the events so far with what the checks answered. -/
structure Log where
  windows : Key → List ℚ
  done : List (Event × Except Raised (Option ℚ))

def Log.start : Log := ⟨fun _ => [], []⟩

/-- The time of a hit that a check of the key recorded. -/
def hitOf (key : Key) : Event × Except Raised (Option ℚ) → Option ℚ
  | (.check other _ _ now, .ok none) => if other = key then some now else none
  | _ => none

/-- The times of the admitted requests of a key. -/
def admitted (key : Key) (s : Log) : List ℚ := s.done.filterMap (hitOf key)

/-- Nothing has happened later. -/
def Log.Past (s : Log) (now : ℚ) : Prop := ∀ d ∈ s.done, d.1.now ≤ now

instance (s : Log) (now : ℚ) : Decidable (s.Past now) :=
  inferInstanceAs (Decidable (∀ d ∈ s.done, d.1.now ≤ now))

/-- The checks of the key have this limit and this window. -/
def Event.Uses (key : Key) (limit : ℕ) (window : ℚ) : Event → Prop
  | .check other limit' window' _ => other = key → limit' = limit ∧ window' = window
  | .sweep _ => True

/-- An event that is no check of the key. -/
def Event.Spares (key : Key) : Event → Prop
  | .check other _ _ _ => other ≠ key
  | .sweep _ => True

/-- A check of the key comes when the clock has reached the window's length. -/
def Event.Late (key : Key) (window : ℚ) : Event → Prop
  | .check other _ _ now => other = key → Double now ∧ window ≤ now
  | .sweep _ => True

section Events

variable (rounding : Rounding) (settings : Settings)

/-- What a check answers, and the windows after an event. -/
def Event.apply (windows : Key → List ℚ) : Event → Except Raised (Option ℚ) × (Key → List ℚ)
  | .check key limit window now => _check_memory rounding key limit now window windows
  | .sweep now => (.ok none, _sweep rounding settings now windows)

/-- An event, no earlier than those before it. -/
def Log.step (s : Log) (e : Event) : Option Log :=
  if s.Past e.now then
    some ⟨(e.apply rounding settings s.windows).2,
      s.done ++ [(e, (e.apply rounding settings s.windows).1)]⟩
  else none

/-- The longest window that a sweep spares. -/
def longest : ℚ := max settings.RATE_LIMIT_WINDOW_SECONDS settings.AUTH_RATE_LIMIT_WINDOW_SECONDS

end Events

/-! ## A sliding window -/

/-- What the windows are for, of one key with its limit and window, in the ages that the code
computes. -/
structure SlidingWindow (rounding : Rounding) (settings : Settings) (key : Key) (limit : ℕ)
    (window : ℚ) (s : Log) : Prop where
  capped : ∀ t,
    ((admitted key s).filter fun hit => hit ≤ t && rounding.round (t - hit) < window).length
        ≤ limit ∧
      ((admitted key s).filter fun hit => t ≤ hit && rounding.round (hit - t) < window).length
        ≤ limit
  admitted_iff : ∀ now, s.Past now →
    ((_check_memory rounding key limit now window s.windows).1 = .ok none ↔
      (recent (young rounding window) now (admitted key s)).length < limit)
  refused_iff : ∀ now, s.Past now →
    ((∃ retry_after,
        (_check_memory rounding key limit now window s.windows).1 = .ok (some retry_after)) ↔
      limit ≤ (recent (young rounding window) now (admitted key s)).length)
  /-- the wait is what the oldest hit that counts lacks of the window -/
  retry_after : ∀ now retry_after, s.Past now →
    (_check_memory rounding key limit now window s.windows).1 = .ok (some retry_after) →
    ∃ oldest, (recent (young rounding window) now (admitted key s)).head? = some oldest ∧
      retry_after = max 0 (rounding.round (window - rounding.round (now - oldest))) ∧
      ∀ idle s₁ s₂ t, Log.step rounding settings s (.check key limit window now) = some s₁ →
        (∀ e ∈ idle, e.Spares key) → run (Log.step rounding settings) s₁ idle = some s₂ →
        s₂.Past t →
        ((_check_memory rounding key limit t window s₂.windows).1 = .ok none ↔
          window ≤ rounding.round (t - oldest))
  remembered : ∀ now, s.Past now → ∀ hit ∈ admitted key s, rounding.round (now - hit) < window →
    hit ∈ _sweep rounding settings now s.windows key

/-- And in true ages. -/
structure ExactWindow (rounding : Rounding) (settings : Settings) (key : Key) (limit : ℕ)
    (window : ℚ) (s : Log) : Prop where
  capped : ∀ t, ((admitted key s).filter fun hit => t < hit ∧ hit ≤ t + window).length ≤ limit ∧
    ((admitted key s).filter fun hit => t ≤ hit ∧ hit < t + window).length ≤ limit
  admitted_iff : ∀ now, Double now → s.Past now →
    ((_check_memory rounding key limit now window s.windows).1 = .ok none ↔
      ((admitted key s).filter fun hit => now - hit < window).length < limit)
  refused_iff : ∀ now, Double now → s.Past now →
    ((∃ retry_after,
        (_check_memory rounding key limit now window s.windows).1 = .ok (some retry_after)) ↔
      limit ≤ ((admitted key s).filter fun hit => now - hit < window).length)
  /-- the wait is the time after which the key is next admitted, if it rests until then -/
  retry_after : ∀ now retry_after idle s₁ s₂ t, Double now → Double t → s.Past now →
    (_check_memory rounding key limit now window s.windows).1 = .ok (some retry_after) →
    Log.step rounding settings s (.check key limit window now) = some s₁ →
    (∀ e ∈ idle, e.Spares key) → run (Log.step rounding settings) s₁ idle = some s₂ →
    s₂.Past t →
    ((_check_memory rounding key limit t window s₂.windows).1 = .ok none ↔ now + retry_after ≤ t)
  remembered : ∀ now, Double now → s.Past now → ∀ hit ∈ admitted key s, now - hit < window →
    hit ∈ _sweep rounding settings now s.windows key

/-- The log of the key keeps the history of the key, and the history is under the limit. -/
structure InStep (rounding : Rounding) (key : Key) (limit : ℕ) (window : ℚ) (s : Log) : Prop where
  keeps : ∀ now, s.Past now → Keeps (young rounding window) now (s.windows key) (admitted key s)
  capped : Capped (young rounding window) limit (admitted key s)

/-! ## One check -/

section Check

variable {rounding : Rounding} {settings : Settings} {key : Key} {limit : ℕ} {window now : ℚ}
  {windows : Key → List ℚ} {times : List ℚ}

/-- A check with room records the hit. -/
theorem check_room (h : Keeps (young rounding window) now (windows key) times)
    (hroom : (recent (young rounding window) now times).length < limit) :
    _check_memory rounding key limit now window windows = (.ok none,
      Function.update windows key (recent (young rounding window) now times ++ [now])) := by
  unfold _check_memory
  dsimp only
  rw [dropWhile_eq_expire, h.expire_eq le_rfl, if_neg (by omega)]

/-- A check without room names the time until the oldest hit is a window old. -/
theorem check_full (h : Keeps (young rounding window) now (windows key) times) (hlimit : 1 ≤ limit)
    (hfull : limit ≤ (recent (young rounding window) now times).length) :
    ∃ oldest rest, recent (young rounding window) now times = oldest :: rest ∧
      _check_memory rounding key limit now window windows
        = (.ok (some (max 0 (rounding.round (window - rounding.round (now - oldest))))),
          Function.update windows key (recent (young rounding window) now times)) := by
  rcases hhits : recent (young rounding window) now times with _ | ⟨oldest, rest⟩
  · rw [hhits, List.length_nil] at hfull
    omega
  · refine ⟨oldest, rest, rfl, ?_⟩
    unfold _check_memory
    dsimp only
    rw [dropWhile_eq_expire, h.expire_eq le_rfl, hhits, if_pos (by rwa [hhits] at hfull)]

/-- A check of one key leaves the others' logs alone. -/
theorem check_other {other : Key} (hne : key ≠ other) :
    (_check_memory rounding other limit now window windows).2 key = windows key := by
  unfold _check_memory
  dsimp only
  split
  · split
    · exact Function.update_of_ne hne _ _
    · exact Function.update_of_ne hne _ _
  · exact Function.update_of_ne hne _ _

end Check

/-! ## One event -/

section Step

variable {rounding : Rounding} {settings : Settings} {key : Key} {limit : ℕ} {window now : ℚ}
  {s s' : Log} {e : Event}

theorem start_inStep : InStep rounding key limit window Log.start :=
  ⟨fun _ _ => keeps_nil, capped_nil⟩

theorem step_eq_some_iff : Log.step rounding settings s e = some s' ↔ s.Past e.now ∧
    s' = ⟨(e.apply rounding settings s.windows).2,
      s.done ++ [(e, (e.apply rounding settings s.windows).1)]⟩ := by
  unfold Log.step
  by_cases hpast : s.Past e.now
  · rw [if_pos hpast, Option.some.injEq, eq_comm]
    exact (and_iff_right hpast).symm
  · rw [if_neg hpast]
    exact iff_of_false nofun fun h => hpast h.1

theorem past_append {d : Event × Except Raised (Option ℚ)} {windows : Key → List ℚ}
    (h : Log.Past ⟨windows, s.done ++ [d]⟩ now) : s.Past now ∧ d.1.now ≤ now := by
  constructor
  · exact fun d' hd' => h d' (List.mem_append_left _ hd')
  · exact h d (List.mem_append_right _ List.mem_cons_self)

theorem admitted_append {d : Event × Except Raised (Option ℚ)} {windows : Key → List ℚ} :
    admitted key ⟨windows, s.done ++ [d]⟩ = admitted key s ++ (hitOf key d).toList := by
  rw [admitted, admitted, List.filterMap_append]
  rcases hhit : hitOf key d with _ | hit <;> simp [hhit]

theorem hitOf_admitted : hitOf key (.check key limit window now, .ok none) = some now := if_pos rfl

theorem hitOf_refused {other : Key} {retry_after : ℚ} :
    hitOf key (.check other limit window now, .ok (some retry_after)) = none := rfl

theorem hitOf_eq_some {d : Event × Except Raised (Option ℚ)} {hit : ℚ}
    (h : hitOf key d = some hit) : hit = d.1.now := by
  unfold hitOf at h
  split at h
  · split at h
    · exact (Option.some.inj h).symm
    · cases h
  · cases h

/-- Nothing was admitted later than what has happened. -/
theorem admitted_past (hpast : s.Past now) : ∀ hit ∈ admitted key s, hit ≤ now := by
  intro hit hmem
  obtain ⟨d, hd, hhit⟩ := List.mem_filterMap.mp hmem
  rw [hitOf_eq_some hhit]
  exact hpast d hd

/-- An event that spares the key admits no request of it. -/
theorem hitOf_spares (hspares : e.Spares key) (answer : Except Raised (Option ℚ)) :
    hitOf key (e, answer) = none := by
  unfold hitOf
  split
  · rename_i heq
    cases heq
    exact if_neg hspares
  · rfl

/-- An event that spares the key keeps its log in step. -/
theorem spares_keeps (hlongest : window ≤ longest settings) (h : InStep rounding key limit window s)
    (hpast : s.Past e.now) (hspares : e.Spares key) :
    Keeps (young rounding window) e.now ((e.apply rounding settings s.windows).2 key)
      (admitted key s) := by
  cases e with
  | check other limit' window' now =>
    rw [Event.apply, check_other (Ne.symm hspares)]
    exact h.keeps now hpast
  | sweep now => exact keeps_sweep (h.keeps now hpast) hlongest

/-- **An event keeps the key in step.** -/
theorem InStep.step (hlongest : window ≤ longest settings) (hlimit : 1 ≤ limit)
    (h : InStep rounding key limit window s) (huses : e.Uses key limit window)
    (hstep : Log.step rounding settings s e = some s') : InStep rounding key limit window s' := by
  obtain ⟨hpast, rfl⟩ := step_eq_some_iff.mp hstep
  have hkeeps := h.keeps e.now hpast
  by_cases hspares : e.Spares key
  · -- another key, or a sweep
    constructor
    · intro now hnow
      rw [admitted_append, hitOf_spares hspares, Option.toList_none, List.append_nil]
      exact (spares_keeps hlongest h hpast hspares).later (past_append hnow).2
    · rw [admitted_append, hitOf_spares hspares, Option.toList_none, List.append_nil]
      exact h.capped
  · obtain ⟨now, rfl⟩ : ∃ now, e = .check key limit window now := by
      cases e with
      | check other limit' window' now =>
        have heq : other = key := not_not.mp hspares
        obtain ⟨rfl, rfl⟩ := huses heq
        exact ⟨now, by rw [heq]⟩
      | sweep now => exact absurd trivial hspares
    dsimp only [Event.now] at hpast hkeeps
    have hkept := hkeeps.expire
    rw [hkeeps.expire_eq le_rfl] at hkept
    by_cases hroom : (recent (young rounding window) now (admitted key s)).length < limit
    · -- the hit is recorded, in the log and in the history
      have hcheck := check_room hkeeps hroom
      constructor
      · intro later hlater
        rw [admitted_append, Event.apply, hcheck, hitOf_admitted]
        dsimp only
        rw [Function.update_self]
        exact hkept.hit.later (past_append hlater).2
      · rw [admitted_append, Event.apply, hcheck, hitOf_admitted, Option.toList_some,
          capped_append_iff (admitted_past hpast)]
        exact ⟨h.capped, fun _ => hroom⟩
    · -- the log forgets what is too old
      obtain ⟨oldest, rest, -, hcheck⟩ := check_full hkeeps hlimit (Nat.le_of_not_lt hroom)
      constructor
      · intro later hlater
        rw [admitted_append, Event.apply, hcheck, hitOf_refused, Option.toList_none,
          List.append_nil]
        dsimp only
        rw [Function.update_self]
        exact hkept.later (past_append hlater).2
      · rw [admitted_append, Event.apply, hcheck, hitOf_refused, Option.toList_none,
          List.append_nil]
        exact h.capped

/-- **What a run leaves of a key is in step with its history.** -/
theorem run_inStep {events : List Event} (hlongest : window ≤ longest settings) (hlimit : 1 ≤ limit)
    (h : InStep rounding key limit window s) (huses : ∀ e ∈ events, e.Uses key limit window)
    (hrun : run (Log.step rounding settings) s events = some s') :
    InStep rounding key limit window s' :=
  run_invariant (I := InStep rounding key limit window) (P := fun _ e => e.Uses key limit window)
    (fun _ _ _ hs hP hx => hs.step hlongest hlimit hP hx) h (along_of_forall huses) hrun

/-- What has happened stays so. -/
theorem run_done {events : List Event}
    (hrun : run (Log.step rounding settings) s events = some s') : s.done <+: s'.done := by
  refine invariant_of_step (I := fun t => s.done <+: t.done) ?_ (List.prefix_refl _) hrun
  intro t e t' ht hx
  obtain ⟨-, rfl⟩ := step_eq_some_iff.mp hx
  exact ht.trans (List.prefix_append _ _)

/-- Events that spare the key leave its history alone. -/
theorem run_spares {events : List Event} (hspares : ∀ e ∈ events, e.Spares key)
    (hrun : run (Log.step rounding settings) s events = some s') :
    admitted key s' = admitted key s := by
  refine run_invariant (I := fun t => admitted key t = admitted key s)
    (P := fun _ e => e.Spares key) ?_ rfl (along_of_forall hspares) hrun
  intro t e t' ht he hx
  obtain ⟨-, rfl⟩ := step_eq_some_iff.mp hx
  rw [admitted_append, hitOf_spares he, Option.toList_none, List.append_nil, ht]

theorem uses_of_spares (h : e.Spares key) : e.Uses key limit window := by
  cases e with
  | check other limit' window' now => exact fun heq => absurd heq h
  | sweep now => trivial

/-! ## The window of a run -/

/-- What a check answers, by the room there is. -/
theorem InStep.check_iff (h : InStep rounding key limit window s) (hlimit : 1 ≤ limit)
    (hpast : s.Past now) :
    ((_check_memory rounding key limit now window s.windows).1 = .ok none ↔
        (recent (young rounding window) now (admitted key s)).length < limit) ∧
      ((∃ retry_after,
          (_check_memory rounding key limit now window s.windows).1 = .ok (some retry_after)) ↔
        limit ≤ (recent (young rounding window) now (admitted key s)).length) := by
  have hkeeps := h.keeps now hpast
  rcases Nat.lt_or_ge (recent (young rounding window) now (admitted key s)).length limit
    with hroom | hfull
  · rw [check_room hkeeps hroom]
    refine ⟨iff_of_true rfl hroom, iff_of_false ?_ (Nat.not_le.mpr hroom)⟩
    rintro ⟨retry_after, hrefused⟩
    cases hrefused
  · obtain ⟨oldest, rest, -, hcheck⟩ := check_full hkeeps hlimit hfull
    rw [hcheck]
    exact ⟨iff_of_false nofun (Nat.not_lt.mpr hfull), iff_of_true ⟨_, rfl⟩ hfull⟩

/-- **The wait of a refusal**, and when a key that rests is admitted again. -/
theorem InStep.admitted_after (h : InStep rounding key limit window s)
    (hlongest : window ≤ longest settings) (hlimit : 1 ≤ limit) {retry_after : ℚ}
    (hpast : s.Past now)
    (hrefused : (_check_memory rounding key limit now window s.windows).1
      = .ok (some retry_after)) :
    ∃ oldest, (recent (young rounding window) now (admitted key s)).head? = some oldest ∧
      retry_after = max 0 (rounding.round (window - rounding.round (now - oldest))) ∧
      ∀ idle s₁ s₂ t, Log.step rounding settings s (.check key limit window now) = some s₁ →
        (∀ e ∈ idle, e.Spares key) → run (Log.step rounding settings) s₁ idle = some s₂ →
        s₂.Past t →
        ((_check_memory rounding key limit t window s₂.windows).1 = .ok none ↔
          window ≤ rounding.round (t - oldest)) := by
  have hfull := (h.check_iff hlimit hpast).2.mp ⟨_, hrefused⟩
  obtain ⟨oldest, rest, hhits, hcheck⟩ := check_full (h.keeps now hpast) hlimit hfull
  rw [hcheck] at hrefused
  refine ⟨oldest, by rw [hhits]; rfl, (Option.some.inj (Except.ok.inj hrefused)).symm, ?_⟩
  intro idle s₁ s₂ t hstep hspares hrun hlater
  have huses : (Event.check key limit window now).Uses key limit window := fun _ => ⟨rfl, rfl⟩
  have h₁ : InStep rounding key limit window s₁ := h.step hlongest hlimit huses hstep
  have h₂ : InStep rounding key limit window s₂ :=
    run_inStep hlongest hlimit h₁ (fun e he => uses_of_spares (hspares e he)) hrun
  -- neither the refusal nor what came after it admitted anything
  have hsame : admitted key s₂ = admitted key s := by
    rw [run_spares hspares hrun]
    obtain ⟨-, rfl⟩ := step_eq_some_iff.mp hstep
    rw [admitted_append, Event.apply, hcheck, hitOf_refused, Option.toList_none,
      List.append_nil]
  have hle : now ≤ t := by
    obtain ⟨-, rfl⟩ := step_eq_some_iff.mp hstep
    have hmem := (run_done hrun).subset (List.mem_append_right s.done List.mem_cons_self)
    exact hlater _ hmem
  have hlength : (oldest :: rest).length = limit := by
    rw [← hhits]
    refine le_antisymm ?_ hfull
    rw [← filter_eq_recent (admitted_past hpast)]
    exact h.capped now
  have hordered : (oldest :: rest).Pairwise (· ≤ ·) := by
    rw [← hhits, ← (h.keeps now hpast).expire_eq le_rfl]
    exact (h.keeps now hpast).expire.ordered
  rw [(h₂.check_iff hlimit hlater).1, hsame, ← recent_recent hle, hhits,
    room_again_iff hordered hlength, young, decide_eq_false_iff_not, not_lt]

/-- What is in step is a sliding window. -/
theorem InStep.slidingWindow (h : InStep rounding key limit window s)
    (hlongest : window ≤ longest settings) (hlimit : 1 ≤ limit) :
    SlidingWindow rounding settings key limit window s where
  capped t := ⟨h.capped t, h.capped.from t⟩
  admitted_iff _ hpast := (h.check_iff hlimit hpast).1
  refused_iff _ hpast := (h.check_iff hlimit hpast).2
  retry_after _ _ hpast hrefused := h.admitted_after hlongest hlimit hpast hrefused
  remembered := by
    intro now hpast hit hmem hyoung
    have hkeeps := keeps_sweep (h.keeps now hpast) hlongest
    have hrecent :
        hit ∈ recent (young rounding window) now (_sweep rounding settings now s.windows key) := by
      rw [hkeeps.same now le_rfl]
      exact mem_recent.mpr ⟨hmem, decide_eq_true hyoung⟩
    exact (mem_recent.mp hrecent).1

/-! ## Where nothing is rounded -/

/-- Every request of the key was admitted at a reading no smaller than the window's length. -/
def Settled (key : Key) (window : ℚ) (s : Log) : Prop :=
  ∀ hit ∈ admitted key s, Double hit ∧ window ≤ hit

theorem hitOf_late {answer : Except Raised (Option ℚ)} {hit : ℚ} (hlate : e.Late key window)
    (h : hitOf key (e, answer) = some hit) : Double hit ∧ window ≤ hit := by
  cases e with
  | check other limit' window' now =>
    by_cases heq : other = key
    · rw [hitOf_eq_some h]
      exact hlate heq
    · rw [hitOf_spares (e := .check other limit' window' now) heq] at h
      cases h
  | sweep now => cases h

theorem run_settled {events : List Event} (hlate : ∀ e ∈ events, e.Late key window)
    (hrun : run (Log.step rounding settings) Log.start events = some s) :
    Settled key window s := by
  refine run_invariant (I := Settled key window) (P := fun _ e => e.Late key window) ?_
    (fun hit hmem => absurd hmem List.not_mem_nil) (along_of_forall hlate) hrun
  intro t e t' ht he hx
  obtain ⟨-, rfl⟩ := step_eq_some_iff.mp hx
  intro hit hmem
  rw [admitted_append, List.mem_append, Option.mem_toList] at hmem
  rcases hmem with hmem | hmem
  · exact ht hit hmem
  · exact hitOf_late he hmem

/-- The rest of a window is not rounded either. -/
theorem ages_exact {hit : ℚ} (hwindow : Double window) (hhit : Double hit) (hnow : Double now)
    (hle : window ≤ hit) (hpast : hit ≤ now) (hyoung : now - hit < window) :
    binary64.round (now - hit) = now - hit ∧
      binary64.round (window - (now - hit)) = window - (now - hit) := by
  obtain ⟨hage, hrest⟩ := hwindow.sub hhit hnow hle hpast hyoung
  exact ⟨Rounding.toDigits_of_fits hage, Rounding.toDigits_of_fits hrest⟩

/-- **What counts is what is less than a window old**, from the window's length on. -/
theorem counts_exact {hit : ℚ} (hwindow : Double window) (hhit : Double hit) (hnow : Double now)
    (hle : window ≤ hit) (hpast : hit ≤ now) :
    (young binary64 window).counts now hit = (Horizon.within window).counts now hit := by
  change decide (binary64.round (now - hit) < window) = decide (now - hit < window)
  by_cases hyoung : now - hit < window
  · rw [(ages_exact hwindow hhit hnow hle hpast hyoung).1]
  · have hround : binary64.round window ≤ binary64.round (now - hit) :=
      binary64.monotone (not_lt.mp hyoung)
    rw [show binary64.round window = window from Rounding.toDigits_of_fits hwindow] at hround
    rw [decide_eq_false (not_lt.mpr hround), decide_eq_false hyoung]

theorem Settled.recent_eq (h : Settled key window s) (hwindow : Double window)
    (hnow : Double now) (hpast : s.Past now) :
    recent (young binary64 window) now (admitted key s)
      = (admitted key s).filter fun hit => now - hit < window := by
  apply List.filter_congr
  intro hit hmem
  obtain ⟨hhit, hle⟩ := h hit hmem
  exact counts_exact hwindow hhit hnow hle (admitted_past hpast hit hmem)

/-- The window in true ages. -/
theorem InStep.exactWindow (h : InStep binary64 key limit window s)
    (hsettled : Settled key window s) (hwindow : Double window)
    (hlongest : window ≤ longest settings) (hlimit : 1 ≤ limit) :
    ExactWindow binary64 settings key limit window s := by
  constructor
  case capped =>
    have hcapped : Capped (Horizon.within window) limit (admitted key s) := by
      refine h.capped.of_counts fun last hlast hit hhit hle hcounts => ?_
      obtain ⟨hdouble, hsize⟩ := hsettled hit hhit
      rw [counts_exact hwindow hdouble (hsettled last hlast).1 hsize hle]
      exact hcounts
    intro t
    refine ⟨?_, ?_⟩
    · have hends := hcapped (t + window)
      rw [List.filter_congr (q := fun hit => decide (t < hit ∧ hit ≤ t + window))] at hends
      · exact hends
      · intro hit _
        rw [Horizon.within, ← Bool.decide_and, decide_eq_decide, and_comm]
        refine and_congr ⟨fun hlt => ?_, fun hlt => ?_⟩ Iff.rfl
        · linarith
        · linarith
    · have hbegins := hcapped.from t
      rw [List.filter_congr (q := fun hit => decide (t ≤ hit ∧ hit < t + window))] at hbegins
      · exact hbegins
      · intro hit _
        rw [Horizon.within, ← Bool.decide_and, decide_eq_decide]
        exact and_congr Iff.rfl sub_lt_iff_lt_add'
  case admitted_iff =>
    intro now hnow hpast
    rw [(h.check_iff hlimit hpast).1, hsettled.recent_eq hwindow hnow hpast]
  case refused_iff =>
    intro now hnow hpast
    rw [(h.check_iff hlimit hpast).2, hsettled.recent_eq hwindow hnow hpast]
  case retry_after =>
    intro now retry_after idle s₁ s₂ t hnow ht hpast hrefused hstep hspares hrun hlater
    obtain ⟨oldest, hhead, hwait, hafter⟩ := h.admitted_after hlongest hlimit hpast hrefused
    have hcounts := mem_recent.mp (List.mem_of_mem_head? hhead)
    obtain ⟨holdest, hsize⟩ := hsettled oldest hcounts.1
    have hold : oldest ≤ now := admitted_past hpast oldest hcounts.1
    have hyoung : now - oldest < window := by
      rw [counts_exact hwindow holdest hnow hsize hold] at hcounts
      exact of_decide_eq_true hcounts.2
    obtain ⟨hage, hrest⟩ := ages_exact hwindow holdest hnow hsize hold hyoung
    have hle : now ≤ t := by
      obtain ⟨-, rfl⟩ := step_eq_some_iff.mp hstep
      have hmem := (run_done hrun).subset (List.mem_append_right s.done List.mem_cons_self)
      exact hlater _ hmem
    have hagain : window ≤ binary64.round (t - oldest) ↔ window ≤ t - oldest := by
      have hsame := counts_exact hwindow holdest ht hsize (hold.trans hle)
      rw [young, Horizon.within, decide_eq_decide] at hsame
      rw [← not_lt, hsame, not_lt]
    rw [hafter idle s₁ s₂ t hstep hspares hrun hlater, hagain, hwait, hage, hrest,
      max_eq_right (by linarith)]
    constructor
    · intro hle
      linarith
    · intro hle
      linarith
  case remembered =>
    intro now hnow hpast hit hmem hyoung
    obtain ⟨hhit, hsize⟩ := hsettled hit hmem
    have hpasthit : hit ≤ now := admitted_past hpast hit hmem
    refine (h.slidingWindow hlongest hlimit).remembered now hpast hit hmem ?_
    rw [(ages_exact hwindow hhit hnow hsize hpasthit hyoung).1]
    exact hyoung

/-- **Sliding window**: after every run of checks and sweeps, a key that is always checked
with one limit and one window, no longer than the longest one, is limited as it is meant to
be, in the ages that the code computes; and in true ages, if no request of it comes before
the clock has reached the window's length. -/
theorem sliding_window (settings : Settings) (key : Key) (limit : ℕ) (window : ℚ)
    (events : List Event) (s : Log) (hlimit : 1 ≤ limit) (hlongest : window ≤ longest settings)
    (huses : ∀ e ∈ events, e.Uses key limit window)
    (hrun : run (Log.step binary64 settings) Log.start events = some s) :
    SlidingWindow binary64 settings key limit window s ∧
      (Double window → (∀ e ∈ events, e.Late key window) →
        ExactWindow binary64 settings key limit window s) := by
  have h : InStep binary64 key limit window s :=
    run_inStep hlongest hlimit start_inStep huses hrun
  exact ⟨h.slidingWindow hlongest hlimit, fun hwindow hlate =>
    h.exactWindow (run_settled hlate hrun) hwindow hlongest hlimit⟩

/-- One key, in the second minute of the clock: its second request is refused, and its third
comes when the first is a minute old. The sweep in between is of no other key. -/
def threeRequests (key : Key) : List Event :=
  [.check key 1 60 100, .sweep 130, .check key 1 60 159, .check key 1 60 160]

theorem threeRequests_limited : ∃ s,
    run (Log.step binary64 smallLimits) Log.start (threeRequests (.user "ai" 1)) = some s ∧
      admitted (.user "ai" 1) s = [100, 160] ∧
      SlidingWindow binary64 smallLimits (.user "ai" 1) 1 60 s ∧
      ExactWindow binary64 smallLimits (.user "ai" 1) 1 60 s := by
  have hruns : (run (Log.step binary64 smallLimits) Log.start (threeRequests (.user "ai" 1))).map
      (admitted (.user "ai" 1)) = some [100, 160] := by decide +kernel
  obtain ⟨s, hrun, hadmitted⟩ := Option.map_eq_some_iff.mp hruns
  have huses : ∀ e ∈ threeRequests (.user "ai" 1), e.Uses (.user "ai" 1) 1 60 := by
    simp [threeRequests, Event.Uses]
  have hdouble : ∀ n : ℕ, n < 2 ^ 53 → Double n := fun n => Rounding.fits_natCast
  have hlate : ∀ e ∈ threeRequests (.user "ai" 1), e.Late (.user "ai" 1) 60 := by
    simp only [threeRequests, List.forall_mem_cons, Event.Late]
    exact ⟨fun _ => ⟨hdouble 100 (by decide), by norm_num⟩, trivial,
      fun _ => ⟨hdouble 159 (by decide), by norm_num⟩,
      fun _ => ⟨hdouble 160 (by decide), by norm_num⟩, fun _ h => absurd h List.not_mem_nil⟩
  have hlongest : 60 ≤ longest smallLimits := by
    rw [longest]
    decide +kernel
  obtain ⟨hsliding, hexact⟩ :=
    sliding_window smallLimits (.user "ai" 1) 1 60 _ s (by decide) hlongest huses hrun
  exact ⟨s, hrun, hadmitted, hsliding, hexact (hdouble 60 (by decide)) hlate⟩

/-- The doubles `0.3` and `60.3`: less than a minute apart. -/
def early : ℚ := binary64.round (3 / 10)

def late : ℚ := binary64.round (603 / 10)

/-- **Two requests in less than a minute**, with a limit of one. Their difference is rounded to
a minute, so that the second is admitted while the minute before it already holds one. -/
theorem earlyRequests_overrun : ∃ s,
    run (Log.step binary64 smallLimits) Log.start
        [.check (.user "ai" 1) 1 60 early, .check (.user "ai" 1) 1 60 late] = some s ∧
      Double early ∧ Double late ∧ late < early + 60 ∧
      admitted (.user "ai" 1) s = [early, late] ∧
      ¬ ExactWindow binary64 smallLimits (.user "ai" 1) 1 60 s := by
  have hruns : (run (Log.step binary64 smallLimits) Log.start
      [.check (.user "ai" 1) 1 60 early, .check (.user "ai" 1) 1 60 late]).map
      (admitted (.user "ai" 1)) = some [early, late] := by decide +kernel
  obtain ⟨s, hrun, hadmitted⟩ := Option.map_eq_some_iff.mp hruns
  have hearly : early = 5404319552844595 * (2 : ℚ) ^ (-54 : ℤ) := by decide +kernel
  have hlate : late = 8486470547826278 * (2 : ℚ) ^ (-47 : ℤ) := by decide +kernel
  refine ⟨s, hrun, ⟨5404319552844595, -54, by decide, hearly⟩,
    ⟨8486470547826278, -47, by decide, hlate⟩, by decide +kernel, hadmitted, fun h => ?_⟩
  have hcapped := (h.capped early).2
  rw [hadmitted] at hcapped
  exact absurd hcapped (by decide +kernel)

end Step

/-! ## The requests -/

section Requests

variable (rounding : Rounding) (settings : Settings)

/-- `enforce_ip`. Without an address nothing is checked. -/
def enforce_ip (scope : String) (client_ip : Option String) (limit : ℕ) (window : Option ℚ)
    (now : ℚ) (windows : Key → List ℚ) : Except Raised Unit × (Key → List ℚ) :=
  if settings.RATE_LIMIT_ENABLED = false then (.ok (), windows)
  else
    match client_ip with
    | none | some "" => (.ok (), windows)
    | some client_ip =>
      let effective_window := window.getD settings.AUTH_RATE_LIMIT_WINDOW_SECONDS
      match _check_memory rounding (.ip scope client_ip) limit now effective_window windows with
      | (.error e, windows) => (.error e, windows)
      | (.ok (some retry_after), windows) =>
        (.error (.RateLimitedException
          ("Too many attempts from this address. Try again in " ++ s!"{wait retry_after}s.")
          retry_after), windows)
      | (.ok none, windows) => (.ok (), windows)

variable {rounding settings} {s : Log} {now : ℚ} {windows : Key → List ℚ}

/-- A single event. -/
theorem run_event (rounding : Rounding) (settings : Settings) (e : Event) (hpast : s.Past e.now) :
    ∃ s', run (Log.step rounding settings) s [e] = some s' ∧
      s'.windows = (e.apply rounding settings s.windows).2 ∧ s'.Past e.now := by
  refine ⟨_, run_cons_eq_some_iff.mpr ⟨_, step_eq_some_iff.mpr ⟨hpast, rfl⟩, rfl⟩, rfl, ?_⟩
  intro d hd
  rcases List.mem_append.mp hd with hd | hd
  · exact hpast d hd
  · rw [List.mem_singleton.mp hd]

/-- **A request of an address is a check of its key**, or no event at all. -/
theorem enforce_ip_events (scope : String) (client_ip : Option String) (limit : ℕ)
    (window : Option ℚ) (hpast : s.Past now) :
    ∃ events s', run (Log.step rounding settings) s events = some s' ∧
      s'.windows = (enforce_ip rounding settings scope client_ip limit window now s.windows).2 ∧
      ∀ e ∈ events, ∃ address, e = .check (.ip scope address) limit
        (window.getD settings.AUTH_RATE_LIMIT_WINDOW_SECONDS) now := by
  unfold enforce_ip
  split
  · exact ⟨[], s, rfl, rfl, fun e he => absurd he List.not_mem_nil⟩
  split
  · exact ⟨[], s, rfl, rfl, fun e he => absurd he List.not_mem_nil⟩
  · exact ⟨[], s, rfl, rfl, fun e he => absurd he List.not_mem_nil⟩
  · rename_i address _
    dsimp only
    obtain ⟨s', hrun, hwindows, -⟩ := run_event rounding settings (.check
      (.ip scope address) limit (window.getD settings.AUTH_RATE_LIMIT_WINDOW_SECONDS) now) hpast
    refine ⟨_, s', hrun, ?_, fun e he => ⟨address, List.mem_singleton.mp he⟩⟩
    rw [hwindows, Event.apply]
    rcases _check_memory rounding (.ip scope address) limit now
      (window.getD settings.AUTH_RATE_LIMIT_WINDOW_SECONDS) s.windows
      with ⟨e | ⟨_ | retry_after⟩, after⟩ <;> rfl

/-- The two checks of a request. -/
theorem enforceBoth_events (organization_of : ℕ → ℕ) (r : Request) (hpast : s.Past r.now) :
    ∃ events s', run (Log.step rounding settings) s events = some s' ∧
      s'.windows = (enforceBoth rounding settings organization_of r s.windows).2.2 ∧
      ∀ e ∈ events,
        e = .check (.org r.scope (organization_of r.user_id)) (settings.organization_limit r.scope)
          settings.RATE_LIMIT_WINDOW_SECONDS r.now ∨
        e = .check (.user r.scope r.user_id) (settings.user_limit r.scope)
          settings.RATE_LIMIT_WINDOW_SECONDS r.now := by
  obtain ⟨s₁, hrun₁, hwindows₁, hpast₁⟩ := run_event rounding settings (.check
    (.org r.scope (organization_of r.user_id)) (settings.organization_limit r.scope)
    settings.RATE_LIMIT_WINDOW_SECONDS r.now) hpast
  obtain ⟨s₂, hrun₂, hwindows₂, -⟩ := run_event rounding settings (.check
    (.user r.scope r.user_id) (settings.user_limit r.scope)
    settings.RATE_LIMIT_WINDOW_SECONDS r.now) hpast₁
  rw [Event.apply] at hwindows₁ hwindows₂
  unfold enforceBoth
  rcases horganization : _check_memory rounding (.org r.scope (organization_of r.user_id))
    (settings.organization_limit r.scope) r.now settings.RATE_LIMIT_WINDOW_SECONDS s.windows
    with ⟨e | ⟨_ | retry_after⟩, after⟩
  all_goals rw [horganization] at hwindows₁
  · exact ⟨_, s₁, hrun₁, hwindows₁, fun e he => .inl (List.mem_singleton.mp he)⟩
  · -- the organization's window has room, and the user's is asked
    refine ⟨_ :: [_], s₂, run_append.mpr ⟨s₁, hrun₁, hrun₂⟩, ?_, ?_⟩
    · rw [hwindows₂, hwindows₁]
      dsimp only
      unfold enforceUser
      rcases _check_memory rounding (.user r.scope r.user_id) (settings.user_limit r.scope) r.now
        settings.RATE_LIMIT_WINDOW_SECONDS after with ⟨e | ⟨_ | retry_after⟩, last⟩ <;> rfl
    · intro e he
      rcases List.mem_cons.mp he with rfl | he
      · exact .inl rfl
      · exact .inr (List.mem_singleton.mp he)
  · exact ⟨_, s₁, hrun₁, hwindows₁, fun e he => .inl (List.mem_singleton.mp he)⟩

/-- **A request of a user is a sweep or none, a check of the organization's key and, where
that has room, one of the user's.** -/
theorem enforce_events (organization_of : ℕ → ℕ) (r : Request) (limiter : Limiter)
    (hwindows : s.windows = limiter._WINDOWS) (hpast : s.Past r.now) :
    ∃ events s', run (Log.step rounding settings) s events = some s' ∧
      s'.windows = (enforce rounding settings organization_of r limiter).2.2._WINDOWS ∧
      ∀ e ∈ events, e = .sweep r.now ∨
        e = .check (.org r.scope (organization_of r.user_id)) (settings.organization_limit r.scope)
          settings.RATE_LIMIT_WINDOW_SECONDS r.now ∨
        e = .check (.user r.scope r.user_id) (settings.user_limit r.scope)
          settings.RATE_LIMIT_WINDOW_SECONDS r.now := by
  unfold enforce
  by_cases hoff : settings.RATE_LIMIT_ENABLED = false
  · rw [if_pos hoff]
    exact ⟨[], s, rfl, hwindows, fun e he => absurd he List.not_mem_nil⟩
  rw [if_neg hoff]
  dsimp only
  split
  · -- the sweep comes first
    obtain ⟨s₁, hsweep, hswept, hpast₁⟩ := run_event rounding settings (.sweep r.now) hpast
    obtain ⟨events, s', hrun, hafter, hevents⟩ := enforceBoth_events organization_of r hpast₁
    refine ⟨.sweep r.now :: events, s', ?_, ?_, ?_⟩
    · exact run_append.mpr ⟨s₁, hsweep, hrun⟩
    · rw [hafter, hswept, Event.apply, hwindows]
    · intro e he
      rcases List.mem_cons.mp he with rfl | he
      · exact .inl rfl
      · exact .inr (hevents e he)
  · obtain ⟨events, s', hrun, hafter, hevents⟩ := enforceBoth_events organization_of r hpast
    refine ⟨events, s', hrun, ?_, fun e he => .inr (hevents e he)⟩
    rw [hafter, hwindows]

end Requests

end PaCopilot.rate_limit
