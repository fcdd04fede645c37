/-
The rate limits of `core/rate_limit.py`: of a user, and of the organization.

A request is asked of two sliding windows, the organization's first. The first check
records the request in the organization's window, and it stays recorded there when the
user's window then refuses it. So a request that is turned away as one too many of its
user has still used up the organization's allowance, and that is the only way in which
a user takes more of it than the user's limit ([`budget_kept_iff`]).

The windows are the ones in the memory of a process, at any number of organizations,
users and scopes; where the arithmetic is exact, the shared store keeps the same log by a
script ([`sliding_window_eq`]).

The readings of the clock and the lengths of the windows are Python's floats, so the code
rounds each age that it computes. How it rounds is a parameter here: what is proved of the
two windows holds of [`binary64`], the rounding of doubles, as it does of an exact
arithmetic, since an age enters both sides by one comparison that keeps the order. A request
reads the clock once here; the code reads it once more for each of its checks.
-/
import PaCopilot.Lib.Rounding
import PaCopilot.Lib.Run
import PaCopilot.Lib.Window
import Mathlib.Data.List.TakeWhile
import Mathlib.Data.Rat.Floor
import Mathlib.Tactic.Linarith
import Mathlib.Logic.Function.Basic

set_option autoImplicit false

namespace PaCopilot.rate_limit

open Run Window

/-! ## The windows -/

/-- `f"{scope}:org:{organization_id}"`, `f"{scope}:user:{user_id}"` and
`f"{scope}:ip:{client_ip}"`. -/
inductive Key
  | org (scope : String) (organization_id : ℕ)
  | user (scope : String) (user_id : ℕ)
  | ip (scope : String) (client_ip : String)
  deriving DecidableEq

/-- What a check or a request raises. -/
inductive Raised
  | RateLimitedException (message : String) (retry_after : ℚ)
  | IndexError
  deriving DecidableEq

/-- The limits, by the scope of a request, and the lengths of the windows in seconds. -/
structure Settings where
  RATE_LIMIT_ENABLED : Bool
  RATE_LIMIT_WINDOW_SECONDS : ℚ
  AUTH_RATE_LIMIT_WINDOW_SECONDS : ℚ
  user_limit : String → ℕ
  organization_limit : String → ℕ

/-- `_WINDOWS` and `_hits_since_sweep`. A key that is not there is one without hits. -/
structure Limiter where
  _WINDOWS : Key → List ℚ
  _hits_since_sweep : ℕ

def _SWEEP_EVERY : ℕ := 1000

/-- The arithmetic of doubles, whose differences leave neither end of their range. -/
def binary64 : Rounding := .nearest 53 (by decide)

/-- A double. -/
def Double (x : ℚ) : Prop := Rounding.Fits 53 x

section Checks

variable (rounding : Rounding) (settings : Settings)

/-- The hits whose age, as the code computes it, is less than a window. -/
def young (window : ℚ) : Horizon ℚ where
  counts now hit := rounding.round (now - hit) < window
  earlier hle h := by
    rw [decide_eq_true_eq] at h ⊢
    exact lt_of_le_of_lt (rounding.monotone (sub_le_sub_right hle _)) h
  younger hle h := by
    rw [decide_eq_true_eq] at h ⊢
    exact lt_of_le_of_lt (rounding.monotone (sub_le_sub_left hle _)) h

/-- What counts in the windows of a user and of an organization. -/
abbrev horizon : Horizon ℚ := young rounding settings.RATE_LIMIT_WINDOW_SECONDS

/-- A window that `_sweep` deletes. -/
def stale (now : ℚ) (hits : List ℚ) : Bool :=
  match hits.getLast? with
  | none => true
  | some last =>
    max settings.RATE_LIMIT_WINDOW_SECONDS settings.AUTH_RATE_LIMIT_WINDOW_SECONDS
      < rounding.round (now - last)

def _sweep (now : ℚ) (windows : Key → List ℚ) : Key → List ℚ := fun key =>
  if stale rounding settings now (windows key) then [] else windows key

/-- `_check_memory`: the seconds to wait, or `none` for a hit that was recorded. -/
def _check_memory (key : Key) (limit : ℕ) (now window : ℚ) (windows : Key → List ℚ) :
    Except Raised (Option ℚ) × (Key → List ℚ) :=
  let hits := (windows key).dropWhile fun hit => window ≤ rounding.round (now - hit)
  if limit ≤ hits.length then
    let windows := Function.update windows key hits
    match hits with
    | [] => (.error .IndexError, windows)
    | oldest :: _ =>
      (.ok (some (max 0 (rounding.round (window - rounding.round (now - oldest))))), windows)
  else (.ok none, Function.update windows key (hits ++ [now]))

/-- `ZADD` of a score that is new. -/
def zadd (score : ℚ) (scores : List ℚ) : List ℚ :=
  scores.takeWhile (· ≤ score) ++ score :: scores.dropWhile (· ≤ score)

/-- `_SLIDING_WINDOW`, on the scores of the sorted set, and what `_check_shared` makes of its
answer. Without a hit to name the script fails. Its answer is the text of a number, of which
Lua writes fourteen digits; here it is the number. -/
def _check_shared (limit : ℕ) (now window : ℚ) (scores : List ℚ) :
    Option (Option ℚ) × List ℚ :=
  let scores := scores.filter fun score => !(0 ≤ score && score ≤ rounding.round (now - window))
  if limit ≤ scores.length then
    match scores with
    | [] => (none, scores)
    | oldest :: _ =>
      (some (some (max 0 (rounding.round (window - rounding.round (now - oldest))))), scores)
  else (some none, zadd now scores)

/-- A guarded request of a user. -/
structure Request where
  scope : String
  user_id : ℕ
  now : ℚ
  deriving DecidableEq

/-- `int(retry_after) + 1`. -/
def wait (retry_after : ℚ) : ℤ := ⌊retry_after⌋ + 1

/-- The second check. -/
def enforceUser (r : Request) (windows : Key → List ℚ) : Except Raised Unit × (Key → List ℚ) :=
  match _check_memory rounding (.user r.scope r.user_id) (settings.user_limit r.scope) r.now
      settings.RATE_LIMIT_WINDOW_SECONDS windows with
  | (.error e, windows) => (.error e, windows)
  | (.ok (some retry_after), windows) =>
    (.error (.RateLimitedException s!"Too many requests. Try again in {wait retry_after}s."
      retry_after), windows)
  | (.ok none, windows) => (.ok (), windows)

variable (organization_of : ℕ → ℕ)

/-- The two checks: whether the organization's window recorded the request, and what
became of it. -/
def enforceBoth (r : Request) (windows : Key → List ℚ) :
    Bool × Except Raised Unit × (Key → List ℚ) :=
  match _check_memory rounding (.org r.scope (organization_of r.user_id))
      (settings.organization_limit r.scope) r.now settings.RATE_LIMIT_WINDOW_SECONDS windows with
  | (.error e, windows) => (false, .error e, windows)
  | (.ok (some retry_after), windows) =>
    (false, .error (.RateLimitedException
      ("Your organization has made too many requests. Try again in "
        ++ s!"{wait retry_after}s.") retry_after), windows)
  | (.ok none, windows) => (true, enforceUser rounding settings r windows)

/-- `enforce`, and whether the organization's window recorded the request. -/
def enforce (r : Request) (limiter : Limiter) : Bool × Except Raised Unit × Limiter :=
  if settings.RATE_LIMIT_ENABLED = false then (false, .ok (), limiter)
  else
    let hits := limiter._hits_since_sweep + 1
    let (windows, hits) :=
      if _SWEEP_EVERY ≤ hits then (_sweep rounding settings r.now limiter._WINDOWS, 0)
      else (limiter._WINDOWS, hits)
    let (charged, answer, windows) := enforceBoth rounding settings organization_of r windows
    (charged, answer, ⟨windows, hits⟩)

end Checks

/-! ## Requests one after another -/

/-- A request and what became of it. -/
structure Answered where
  request : Request
  charged : Bool
  answer : Except Raised Unit

def Answered.admitted (a : Answered) : Bool := a.answer.toBool

/-- The limiter, and the requests it has answered. -/
structure History where
  limiter : Limiter
  answered : List Answered

def History.start : History := ⟨⟨fun _ => [], 0⟩, []⟩

section Requests

variable (rounding : Rounding) (settings : Settings) (organization_of : ℕ → ℕ)

/-- A request, no earlier than those before it. -/
def History.step (s : History) (r : Request) : Option History :=
  if ∀ a ∈ s.answered, a.request.now ≤ r.now then
    let (charged, answer, limiter) := enforce rounding settings organization_of r s.limiter
    some ⟨limiter, s.answered ++ [⟨r, charged, answer⟩]⟩
  else none

/-- The times of the answered requests with a property. -/
def timesOf (p : Answered → Bool) (answered : List Answered) : List ℚ :=
  (answered.filter p).map fun a => a.request.now

/-- The requests of a user that were charged to the organization. -/
def chargedOf (scope : String) (user_id : ℕ) (a : Answered) : Bool :=
  a.charged && (a.request.scope = scope && a.request.user_id = user_id)

/-- The requests of a user that were admitted. -/
def admittedOf (scope : String) (user_id : ℕ) (a : Answered) : Bool :=
  a.admitted && (a.request.scope = scope && a.request.user_id = user_id)

/-- The requests of the other users of the user's organization that were admitted. -/
def admittedOfOthers (scope : String) (user_id : ℕ) (a : Answered) : Bool :=
  a.admitted && (a.request.scope = scope
    && organization_of a.request.user_id = organization_of user_id && a.request.user_id != user_id)

/-- How many of the requests with a property are less than a window old. -/
def count (now : ℚ) (p : Answered → Bool) (answered : List Answered) : ℕ :=
  (recent (horizon rounding settings) now (timesOf p answered)).length

/-- **One user cannot spend the organization's budget.** In every window a user has taken
at most the user's limit of the organization's allowance; and a user below their own limit
is refused only if the admitted requests of the others fill what the user's own leave of the
organization's limit. -/
structure BudgetKept (answered : List Answered) : Prop where
  capped : ∀ scope user_id, Capped (horizon rounding settings) (settings.user_limit scope)
    (timesOf (chargedOf scope user_id) answered)
  accounted : ∀ before a after, answered = before ++ a :: after → a.admitted = false →
    count rounding settings a.request.now (admittedOf a.request.scope a.request.user_id) before
      < settings.user_limit a.request.scope →
    settings.organization_limit a.request.scope
      ≤ count rounding settings a.request.now
          (admittedOfOthers organization_of a.request.scope a.request.user_id) before
        + count rounding settings a.request.now (admittedOf a.request.scope a.request.user_id)
          before

/-- The request will not be one too many of its user after it was charged to the
organization: the organization's window is full, or the user's has room (or the limiter is
off, or its windows have no length). -/
def Room (s : History) (r : Request) : Prop :=
  settings.RATE_LIMIT_ENABLED = false ∨ settings.RATE_LIMIT_WINDOW_SECONDS ≤ 0 ∨
    settings.organization_limit r.scope
      ≤ (recent (horizon rounding settings) r.now
          (s.limiter._WINDOWS (.org r.scope (organization_of r.user_id)))).length ∨
    (recent (horizon rounding settings) r.now
        (s.limiter._WINDOWS (.user r.scope r.user_id))).length < settings.user_limit r.scope

instance (s : History) (r : Request) : Decidable (Room rounding settings organization_of s r) :=
  inferInstanceAs (Decidable (_ ∨ _))

end Requests

/-! ## What the windows hold -/

/-- The requests that a key stands for: for an organization, those that were charged to it;
for a user, those that were then admitted. No user's request is one of an address. -/
def Key.covers (organization_of : ℕ → ℕ) : Key → Answered → Bool
  | .org scope organization_id, a =>
    a.charged && (a.request.scope = scope && organization_of a.request.user_id = organization_id)
  | .user scope user_id, a => (a.charged && a.admitted)
    && (a.request.scope = scope && a.request.user_id = user_id)
  | .ip _ _, _ => false

section Keeping

variable {rounding : Rounding} {settings : Settings} {organization_of : ℕ → ℕ}
  {windows : Key → List ℚ} {H H' : Key → List ℚ} {now : ℚ} {key : Key} {limit : ℕ} {r : Request}
  {s s' : History}
  {answered : List Answered}

/-- A hit counts at its own time, where the window has a length. -/
theorem young_self {window : ℚ} : (young rounding window).counts now now = true ↔ 0 < window := by
  rw [young, decide_eq_true_eq, sub_self, rounding.zero]

theorem dropWhile_eq_expire {window : ℚ} {hits : List ℚ} :
    (hits.dropWhile fun hit => window ≤ rounding.round (now - hit))
      = expire (young rounding window) now hits := by
  unfold expire young
  simp only [← decide_not, not_lt]

/-- The windows keep the histories of their keys. -/
def KeepAll (rounding : Rounding) (settings : Settings) (now : ℚ) (windows H : Key → List ℚ) :
    Prop :=
  ∀ key, Keeps (horizon rounding settings) now (windows key) (H key)

theorem KeepAll.update (h : KeepAll rounding settings now windows H) {hits times : List ℚ}
    (hkey : Keeps (horizon rounding settings) now hits times)
    (hsame : ∀ other, other ≠ key → H' other = H other) (htimes : H' key = times) :
    KeepAll rounding settings now (Function.update windows key hits) H' := by
  intro other
  by_cases heq : other = key
  · subst heq
    rw [Function.update_self, htimes]
    exact hkey
  · rw [Function.update_of_ne heq, hsame other heq]
    exact h other

/-- A window that is deleted has no hit that counts, in a window no longer than the longest
one there is. -/
theorem keeps_sweep {window : ℚ} {times : List ℚ}
    (h : Keeps (young rounding window) now (windows key) times)
    (hlongest : window ≤ max settings.RATE_LIMIT_WINDOW_SECONDS
      settings.AUTH_RATE_LIMIT_WINDOW_SECONDS) :
    Keeps (young rounding window) now (_sweep rounding settings now windows key) times := by
  rw [_sweep]
  by_cases hstale : stale rounding settings now (windows key) = true
  · rw [if_pos hstale]
    refine h.clear fun hit hmem => ?_
    unfold stale at hstale
    rcases hlast : (windows key).getLast? with _ | last
    · rw [List.getLast?_eq_none_iff.mp hlast] at hmem
      exact absurd hmem List.not_mem_nil
    · rw [hlast, decide_eq_true_eq] at hstale
      -- the last hit is the latest
      have hle : hit ≤ last := by
        obtain ⟨init, hinit⟩ := List.getLast?_eq_some_iff.mp hlast
        rw [hinit, List.mem_append, List.mem_singleton] at hmem
        rcases hmem with hmem | rfl
        · have hordered := h.ordered
          rw [hinit, List.pairwise_append] at hordered
          exact hordered.2.2 hit hmem last List.mem_cons_self
        · exact le_rfl
      have hold : window ≤ rounding.round (now - hit) :=
        (lt_of_le_of_lt hlongest hstale).le.trans (rounding.monotone (sub_le_sub_left hle now))
      exact decide_eq_false (not_lt.mpr hold)
  · rw [if_neg hstale]
    exact h

theorem KeepAll.sweep (h : KeepAll rounding settings now windows H) :
    KeepAll rounding settings now (_sweep rounding settings now windows) H :=
  fun key => keeps_sweep (h key) (le_max_left _ _)

/-- A full window refuses, and keeps what it had. -/
theorem check_memory_full (h : KeepAll rounding settings now windows H)
    (hfull : limit ≤ (recent (horizon rounding settings) now (H key)).length) :
    (_check_memory rounding key limit now settings.RATE_LIMIT_WINDOW_SECONDS windows).1 ≠ .ok none ∧
      KeepAll rounding settings now
        (_check_memory rounding key limit now settings.RATE_LIMIT_WINDOW_SECONDS windows).2 H := by
  have hkept : KeepAll rounding settings now (Function.update windows key
      (expire (horizon rounding settings) now (windows key))) H :=
    h.update (h key).expire (fun _ _ => rfl) rfl
  unfold _check_memory
  dsimp only
  rw [dropWhile_eq_expire, if_pos (by rw [(h key).expire_eq le_rfl]; exact hfull)]
  rcases hhits : expire (horizon rounding settings) now (windows key) with _ | ⟨oldest, rest⟩
  · rw [hhits] at hkept
    exact ⟨nofun, hkept⟩
  · rw [hhits] at hkept
    exact ⟨nofun, hkept⟩

/-- A window with room records the hit. -/
theorem check_memory_room (h : KeepAll rounding settings now windows H)
    (hroom : (recent (horizon rounding settings) now (H key)).length < limit) :
    (_check_memory rounding key limit now settings.RATE_LIMIT_WINDOW_SECONDS windows).1 = .ok none ∧
      KeepAll rounding settings now
        (_check_memory rounding key limit now settings.RATE_LIMIT_WINDOW_SECONDS windows).2
        (fun other => H other ++ if other = key then [now] else []) := by
  unfold _check_memory
  dsimp only
  rw [dropWhile_eq_expire, if_neg (by rw [(h key).expire_eq le_rfl]; omega)]
  refine ⟨rfl, h.update (h key).expire.hit (fun other hne => ?_) ?_⟩
  · rw [if_neg hne, List.append_nil]
  · rw [if_pos rfl]

/-- **The shared store keeps the log of the memory**, and answers as it does: the store compares
a hit with the beginning of the window and the memory its age with the window's length, which is
the same where nothing is rounded. -/
theorem sliding_window_eq (hordered : (windows key).Pairwise (· ≤ ·))
    (hpast : ∀ hit ∈ windows key, hit ≤ now) (hpositive : ∀ hit ∈ windows key, 0 ≤ hit)
    (hlimit : 0 < limit) (window : ℚ) :
    (_check_shared .exact limit now window (windows key)).1
        = (_check_memory .exact key limit now window windows).1.toOption ∧
      (_check_shared .exact limit now window (windows key)).2
        = (_check_memory .exact key limit now window windows).2 key := by
  have hall : ∀ hit ∈ expire (young .exact window) now (windows key),
      decide (hit ≤ now) = true := by
    intro hit hmem
    rw [decide_eq_true_eq]
    exact hpast hit ((List.dropWhile_sublist _).subset hmem)
  -- `ZREMRANGEBYSCORE` removes what the memory's loop pops from the front
  have hkept : ((windows key).filter fun score =>
      !(0 ≤ score && score ≤ Rounding.exact.round (now - window)))
        = expire (young .exact window) now (windows key) := by
    rw [expire_eq_recent hordered, recent]
    apply List.filter_congr
    intro hit hmem
    rw [decide_eq_true (hpositive hit hmem), Bool.true_and, ← decide_not, young, decide_eq_decide,
      not_le]
    show now - window < hit ↔ now - hit < window
    constructor
    · intro h
      linarith
    · intro h
      linarith
  unfold _check_shared _check_memory
  dsimp only
  rw [dropWhile_eq_expire, hkept]
  by_cases hfull : limit ≤ (expire (young .exact window) now (windows key)).length
  · rw [if_pos hfull, if_pos hfull]
    rcases hhits : expire (young .exact window) now (windows key) with _ | ⟨oldest, rest⟩
    · rw [hhits, List.length_nil] at hfull
      -- a full window has an oldest hit, for the limit is positive
      omega
    · dsimp only
      rw [Function.update_self]
      exact ⟨rfl, rfl⟩
  · rw [if_neg hfull, if_neg hfull, zadd, List.takeWhile_eq_self_iff.mpr hall,
      List.dropWhile_eq_nil_iff.mpr hall]
    dsimp only
    rw [Function.update_self]
    exact ⟨rfl, rfl⟩

/-- What a request adds to the histories, by what became of it. -/
inductive Enforced (rounding : Rounding) (settings : Settings) (organization_of : ℕ → ℕ)
    (r : Request) (H : Key → List ℚ) : Bool → Bool → Prop
  | organizationFull
      (hfull : settings.organization_limit r.scope
        ≤ (recent (horizon rounding settings) r.now
            (H (.org r.scope (organization_of r.user_id)))).length) :
      Enforced rounding settings organization_of r H false false
  | userFull
      (hroom : (recent (horizon rounding settings) r.now
        (H (.org r.scope (organization_of r.user_id)))).length
          < settings.organization_limit r.scope)
      (hfull : settings.user_limit r.scope
        ≤ (recent (horizon rounding settings) r.now (H (.user r.scope r.user_id))).length) :
      Enforced rounding settings organization_of r H true false
  | admitted
      (hroom : (recent (horizon rounding settings) r.now
        (H (.org r.scope (organization_of r.user_id)))).length
          < settings.organization_limit r.scope)
      (huser : (recent (horizon rounding settings) r.now
        (H (.user r.scope r.user_id))).length < settings.user_limit r.scope) :
      Enforced rounding settings organization_of r H true true

theorem Enforced.room {charged admitted : Bool}
    (h : Enforced rounding settings organization_of r H charged admitted)
    (hcharged : charged = true) :
    (recent (horizon rounding settings) r.now
      (H (.org r.scope (organization_of r.user_id)))).length
        < settings.organization_limit r.scope := by
  cases h with
  | organizationFull => cases hcharged
  | userFull hroom _ => exact hroom
  | admitted hroom _ => exact hroom

theorem Enforced.organization_full {charged admitted : Bool}
    (h : Enforced rounding settings organization_of r H charged admitted)
    (hcharged : charged = false) :
    settings.organization_limit r.scope ≤ (recent (horizon rounding settings) r.now
      (H (.org r.scope (organization_of r.user_id)))).length := by
  cases h with
  | organizationFull hfull => exact hfull
  | userFull => cases hcharged
  | admitted => cases hcharged

theorem Enforced.user_full {charged admitted : Bool}
    (h : Enforced rounding settings organization_of r H charged admitted)
    (hcharged : charged = true) (hrefused : admitted = false) :
    settings.user_limit r.scope ≤ (recent (horizon rounding settings) r.now
      (H (.user r.scope r.user_id))).length := by
  cases h with
  | organizationFull => cases hcharged
  | userFull _ hfull => exact hfull
  | admitted => cases hrefused

theorem Enforced.user_room {charged admitted : Bool}
    (h : Enforced rounding settings organization_of r H charged admitted)
    (hadmitted : admitted = true) :
    (recent (horizon rounding settings) r.now
      (H (.user r.scope r.user_id))).length < settings.user_limit r.scope := by
  cases h with
  | organizationFull => cases hadmitted
  | userFull => cases hadmitted
  | admitted _ huser => exact huser

/-- The histories after a request. -/
def recorded (organization_of : ℕ → ℕ) (r : Request) (charged admitted : Bool)
    (H : Key → List ℚ) : Key → List ℚ := fun key =>
  H key ++ (if charged = true ∧ key = .org r.scope (organization_of r.user_id) then [r.now] else [])
    ++ if charged = true ∧ admitted = true ∧ key = .user r.scope r.user_id then [r.now] else []

theorem enforceUser_full (h : KeepAll rounding settings r.now windows H)
    (hfull : settings.user_limit r.scope
      ≤ (recent (horizon rounding settings) r.now (H (.user r.scope r.user_id))).length) :
    (enforceUser rounding settings r windows).1.toBool = false ∧
      KeepAll rounding settings r.now (enforceUser rounding settings r windows).2 H := by
  obtain ⟨hrefused, hkept⟩ := check_memory_full h hfull
  unfold enforceUser
  rcases hcheck : _check_memory rounding (.user r.scope r.user_id) (settings.user_limit r.scope)
    r.now settings.RATE_LIMIT_WINDOW_SECONDS windows with ⟨e | ⟨_ | retry_after⟩, windows'⟩
  · rw [hcheck] at hkept
    exact ⟨rfl, hkept⟩
  · rw [hcheck] at hrefused
    exact absurd rfl hrefused
  · rw [hcheck] at hkept
    exact ⟨rfl, hkept⟩

theorem enforceUser_room (h : KeepAll rounding settings r.now windows H)
    (hroom : (recent (horizon rounding settings) r.now
      (H (.user r.scope r.user_id))).length < settings.user_limit r.scope) :
    (enforceUser rounding settings r windows).1.toBool = true ∧
      KeepAll rounding settings r.now (enforceUser rounding settings r windows).2
        (fun key => H key ++ if key = .user r.scope r.user_id then [r.now] else []) := by
  obtain ⟨hrecorded, hkept⟩ := check_memory_room h hroom
  unfold enforceUser
  rcases hcheck : _check_memory rounding (.user r.scope r.user_id) (settings.user_limit r.scope)
    r.now settings.RATE_LIMIT_WINDOW_SECONDS windows with ⟨answer, windows'⟩
  rw [hcheck] at hrecorded hkept
  rw [show answer = .ok none from hrecorded]
  exact ⟨rfl, hkept⟩

variable (organization_of) in
/-- What the two checks do, by the room that there is. -/
theorem enforceBoth_spec (h : KeepAll rounding settings r.now windows H) :
    Enforced rounding settings organization_of r H
        (enforceBoth rounding settings organization_of r windows).1
        (enforceBoth rounding settings organization_of r windows).2.1.toBool ∧
      KeepAll rounding settings r.now (enforceBoth rounding settings organization_of r windows).2.2
        (recorded organization_of r (enforceBoth rounding settings organization_of r windows).1
          (enforceBoth rounding settings organization_of r windows).2.1.toBool H) := by
  rcases Nat.lt_or_ge (recent (horizon rounding settings) r.now
    (H (.org r.scope (organization_of r.user_id)))).length
      (settings.organization_limit r.scope) with hroom | hfull
  · -- the organization is charged, and the user's window asked
    obtain ⟨hrecorded, hkept⟩ := check_memory_room h hroom
    have hboth : enforceBoth rounding settings organization_of r windows
        = (true, enforceUser rounding settings r (_check_memory rounding
            (.org r.scope (organization_of r.user_id)) (settings.organization_limit r.scope) r.now
            settings.RATE_LIMIT_WINDOW_SECONDS windows).2) := by
      unfold enforceBoth
      rcases hcheck : _check_memory rounding (.org r.scope (organization_of r.user_id))
        (settings.organization_limit r.scope) r.now settings.RATE_LIMIT_WINDOW_SECONDS windows
        with ⟨answer, windows'⟩
      rw [hcheck] at hrecorded
      rw [show answer = .ok none from hrecorded]
    have hother : H (.user r.scope r.user_id) ++ (if Key.user r.scope r.user_id
        = .org r.scope (organization_of r.user_id) then [r.now] else [])
          = H (.user r.scope r.user_id) := by
      rw [if_neg nofun, List.append_nil]
    rw [hboth]
    rcases Nat.lt_or_ge (recent (horizon rounding settings) r.now
      (H (.user r.scope r.user_id))).length (settings.user_limit r.scope) with huser | huser
    · obtain ⟨hok, hkept'⟩ := enforceUser_room hkept (by rwa [hother])
      rw [hok]
      refine ⟨.admitted hroom huser, fun key => ?_⟩
      simpa only [recorded, true_and] using hkept' key
    · -- the user's window refuses, and the organization stays charged
      obtain ⟨hrefused, hkept'⟩ := enforceUser_full hkept (by rwa [hother])
      rw [hrefused]
      refine ⟨.userFull hroom huser, fun key => ?_⟩
      simpa [recorded] using hkept' key
  · -- the organization's window refuses, and the user's is not asked
    obtain ⟨hrefused, hkept⟩ := check_memory_full h hfull
    have hboth : (enforceBoth rounding settings organization_of r windows).1 = false ∧
        (enforceBoth rounding settings organization_of r windows).2.1.toBool = false ∧
        (enforceBoth rounding settings organization_of r windows).2.2
          = (_check_memory rounding (.org r.scope (organization_of r.user_id))
            (settings.organization_limit r.scope) r.now settings.RATE_LIMIT_WINDOW_SECONDS
            windows).2 := by
      unfold enforceBoth
      rcases hcheck : _check_memory rounding (.org r.scope (organization_of r.user_id))
        (settings.organization_limit r.scope) r.now settings.RATE_LIMIT_WINDOW_SECONDS windows
        with ⟨e | ⟨_ | retry_after⟩, windows'⟩
      · exact ⟨rfl, rfl, rfl⟩
      · rw [hcheck] at hrefused
        exact absurd rfl hrefused
      · exact ⟨rfl, rfl, rfl⟩
    obtain ⟨hcharged, hanswer, hwindows⟩ := hboth
    rw [hcharged, hanswer, hwindows]
    refine ⟨.organizationFull hfull, fun key => ?_⟩
    simpa [recorded] using hkept key

variable (organization_of) in
theorem enforce_spec {limiter : Limiter} (h : KeepAll rounding settings r.now limiter._WINDOWS H) :
    KeepAll rounding settings r.now
        (enforce rounding settings organization_of r limiter).2.2._WINDOWS
        (recorded organization_of r (enforce rounding settings organization_of r limiter).1
          (enforce rounding settings organization_of r limiter).2.1.toBool H) ∧
      (settings.RATE_LIMIT_ENABLED = false ∧
          (enforce rounding settings organization_of r limiter).1 = false ∧
          (enforce rounding settings organization_of r limiter).2.1.toBool = true ∨
        settings.RATE_LIMIT_ENABLED = true ∧
          Enforced rounding settings organization_of r H
            (enforce rounding settings organization_of r limiter).1
            (enforce rounding settings organization_of r limiter).2.1.toBool) := by
  unfold enforce
  by_cases hoff : settings.RATE_LIMIT_ENABLED = false
  · rw [if_pos hoff]
    refine ⟨fun key => ?_, .inl ⟨hoff, rfl, rfl⟩⟩
    simpa [recorded] using h key
  · have hon := Bool.eq_true_of_not_eq_false hoff
    rw [if_neg hoff]
    dsimp only
    by_cases hsweep : _SWEEP_EVERY ≤ limiter._hits_since_sweep + 1
    · rw [if_pos hsweep]
      have hspec := enforceBoth_spec organization_of h.sweep
      exact ⟨hspec.2, .inr ⟨hon, hspec.1⟩⟩
    · rw [if_neg hsweep]
      have hspec := enforceBoth_spec organization_of h
      exact ⟨hspec.2, .inr ⟨hon, hspec.1⟩⟩

end Keeping

/-! ## A run -/

section Runs

variable {rounding : Rounding} {settings : Settings} {organization_of : ℕ → ℕ}
  {s s' : History} {r : Request}
  {answered before after : List Answered} {a : Answered} {p q : Answered → Bool} {now : ℚ}

theorem timesOf_append :
    timesOf p (answered ++ [a]) = timesOf p answered ++ if p a then [a.request.now] else [] := by
  rw [timesOf, List.filter_append, List.map_append, ← timesOf, List.filter_cons, List.filter_nil]
  by_cases hp : p a = true
  · rw [if_pos hp, if_pos hp]
    rfl
  · rw [if_neg hp, if_neg hp]
    rfl

theorem mem_timesOf (hpast : ∀ a ∈ answered, a.request.now ≤ now) :
    ∀ hit ∈ timesOf p answered, hit ≤ now := by
  intro hit hmem
  obtain ⟨a, ha, rfl⟩ := List.mem_map.mp hmem
  exact hpast a (List.mem_filter.mp ha).1

theorem count_eq : count rounding settings now p answered
    = answered.countP fun a => p a && (horizon rounding settings).counts now a.request.now := by
  rw [count, recent, timesOf, List.filter_map, List.length_map, List.filter_filter,
    ← List.countP_eq_length_filter]
  apply List.countP_congr
  intro a _
  rw [Bool.and_comm]
  rfl

variable (rounding settings) in
/-- Of more requests, more count. -/
theorem count_le (h : ∀ a ∈ answered, p a = true → q a = true) :
    count rounding settings now p answered ≤ count rounding settings now q answered := by
  rw [count_eq, count_eq]
  apply List.countP_mono_left
  intro a ha hp
  rw [Bool.and_eq_true] at hp ⊢
  exact ⟨h a ha hp.1, hp.2⟩

/-- The requests with a property are those that have another and those that have not. -/
theorem count_split : count rounding settings now (fun a => p a && q a) answered
      + count rounding settings now (fun a => p a && !q a) answered
        = count rounding settings now p answered := by
  rw [count_eq, count_eq, count_eq]
  induction answered with
  | nil => rfl
  | cons a rest ih =>
    rw [List.countP_cons, List.countP_cons, List.countP_cons, ← ih]
    cases p a <;> cases q a <;> simp <;> omega

/-- The windows of the limiter keep the requests it has answered. -/
def Kept (rounding : Rounding) (settings : Settings) (organization_of : ℕ → ℕ) (s : History) :
    Prop :=
  ∀ now, (∀ a ∈ s.answered, a.request.now ≤ now) → KeepAll rounding settings now s.limiter._WINDOWS
    fun key => timesOf (key.covers organization_of) s.answered

theorem start_kept : Kept rounding settings organization_of History.start := fun _ _ _ => keeps_nil

/-- The histories of the keys after a request. -/
theorem recorded_eq : recorded organization_of a.request a.charged a.admitted
      (fun key => timesOf (key.covers organization_of) answered)
    = fun key => timesOf (key.covers organization_of) (answered ++ [a]) := by
  funext key
  rw [timesOf_append, recorded]
  cases key with
  | org scope organization_id =>
    simp only [Key.covers, Key.org.injEq, reduceCtorEq, and_false, if_false, List.append_nil,
      Bool.and_eq_true, decide_eq_true_eq]
    simp only [eq_comm]
  | user scope user_id =>
    simp only [Key.covers, Key.user.injEq, reduceCtorEq, and_false, if_false, List.append_nil,
      Bool.and_eq_true, decide_eq_true_eq, and_assoc]
    simp only [eq_comm]
  | ip scope client_ip =>
    simp only [Key.covers, reduceCtorEq, and_false, Bool.false_eq_true, if_false, List.append_nil]

/-- What a request adds to the history. -/
theorem step_spec (hkept : Kept rounding settings organization_of s)
    (hstep : History.step rounding settings organization_of s r = some s') :
    (∀ a ∈ s.answered, a.request.now ≤ r.now) ∧ Kept rounding settings organization_of s' ∧
      ∃ a, a.request = r ∧ s'.answered = s.answered ++ [a] ∧
        (settings.RATE_LIMIT_ENABLED = false ∧ a.charged = false ∧ a.admitted = true ∨
          settings.RATE_LIMIT_ENABLED = true ∧ Enforced rounding settings organization_of r
            (fun key => timesOf (key.covers organization_of) s.answered) a.charged a.admitted) := by
  unfold History.step at hstep
  by_cases hpast : ∀ a ∈ s.answered, a.request.now ≤ r.now
  · rw [if_pos hpast] at hstep
    cases hstep
    obtain ⟨hwindows, hcases⟩ := enforce_spec organization_of (hkept r.now hpast)
    refine ⟨hpast, fun now hnow key => ?_, _, rfl, rfl, hcases⟩
    have hrecorded : recorded organization_of r
        (enforce rounding settings organization_of r s.limiter).1
        (enforce rounding settings organization_of r s.limiter).2.1.toBool
        (fun key => timesOf (key.covers organization_of) s.answered) key = _ :=
      congrFun (recorded_eq (a := ⟨r, (enforce rounding settings organization_of r s.limiter).1,
        (enforce rounding settings organization_of r s.limiter).2.1⟩)) key
    have hkeeps := hwindows key
    rw [hrecorded] at hkeeps
    exact hkeeps.later (hnow _ (List.mem_append_right _ List.mem_cons_self))
  · rw [if_neg hpast] at hstep
    cases hstep

/-- What was answered stays answered. -/
theorem run_start {requests : List Request}
    (hrun : run (History.step rounding settings organization_of) s requests = some s') :
    s.answered <+: s'.answered := by
  refine invariant_of_step (I := fun t => s.answered <+: t.answered) ?_ (List.prefix_refl _) hrun
  intro t x t' ht hx
  unfold History.step at hx
  by_cases hpast : ∀ a ∈ t.answered, a.request.now ≤ x.now
  · rw [if_pos hpast] at hx
    cases hx
    exact ht.trans (List.prefix_append _ _)
  · rw [if_neg hpast] at hx
    cases hx

/-! ## The budget -/

/-- Nobody was charged and then refused (in a window without length nothing counts). -/
def ChargedAdmitted (settings : Settings) (answered : List Answered) : Prop :=
  0 < settings.RATE_LIMIT_WINDOW_SECONDS → ∀ a ∈ answered, a.charged = true → a.admitted = true

/-- The room there is, as the windows keep the requests that were answered. -/
theorem room_iff (hkept : Kept rounding settings organization_of s)
    (hpast : ∀ a ∈ s.answered, a.request.now ≤ r.now) :
    Room rounding settings organization_of s r ↔
      settings.RATE_LIMIT_ENABLED = false ∨ settings.RATE_LIMIT_WINDOW_SECONDS ≤ 0 ∨
      settings.organization_limit r.scope ≤ count rounding settings r.now
        ((Key.org r.scope (organization_of r.user_id)).covers organization_of) s.answered ∨
      count rounding settings r.now ((Key.user r.scope r.user_id).covers organization_of) s.answered
        < settings.user_limit r.scope := by
  have hkeeps := hkept r.now hpast
  rw [Room, (hkeeps _).same r.now le_rfl, (hkeeps _).same r.now le_rfl]
  rfl

/-- A charge of a user that is within the user's limit keeps the budget of the user. -/
theorem capped_step {scope : String} {user_id : ℕ}
    (hpast : ∀ b ∈ answered, b.request.now ≤ a.request.now) :
    Capped (horizon rounding settings) (settings.user_limit scope)
        (timesOf (chargedOf scope user_id) (answered ++ [a])) ↔
      Capped (horizon rounding settings) (settings.user_limit scope)
          (timesOf (chargedOf scope user_id) answered) ∧
        (chargedOf scope user_id a = true → 0 < settings.RATE_LIMIT_WINDOW_SECONDS →
          count rounding settings a.request.now (chargedOf scope user_id) answered
            < settings.user_limit scope) := by
  rw [timesOf_append]
  by_cases hcharged : chargedOf scope user_id a = true
  · rw [if_pos hcharged, capped_append_iff (mem_timesOf hpast), young_self]
    exact and_congr_right fun _ => ⟨fun h _ => h, fun h => h hcharged⟩
  · rw [if_neg hcharged, List.append_nil]
    exact ⟨fun h => ⟨h, fun hyes => absurd hyes hcharged⟩, fun h => h.1⟩

/-- Those who were charged were admitted, so what an organization was charged is what was
admitted, of a user and of the others. -/
theorem count_org_le {scope : String} {user_id : ℕ} (h : ChargedAdmitted settings answered)
    (hpast : ∀ b ∈ answered, b.request.now ≤ now) :
    count rounding settings now ((Key.org scope (organization_of user_id)).covers organization_of)
        answered
      ≤ count rounding settings now (admittedOfOthers organization_of scope user_id) answered
        + count rounding settings now (admittedOf scope user_id) answered := by
  rcases lt_or_ge 0 settings.RATE_LIMIT_WINDOW_SECONDS with hwindow | hwindow
  · have hown : count rounding settings now (fun a => (Key.org scope
          (organization_of user_id)).covers organization_of a && a.request.user_id = user_id) answered
        ≤ count rounding settings now (admittedOf scope user_id) answered := by
      apply count_le
      intro a ha hcovers
      simp only [Key.covers, Bool.and_eq_true, decide_eq_true_eq] at hcovers
      simp only [admittedOf, Bool.and_eq_true, decide_eq_true_eq]
      exact ⟨h hwindow a ha hcovers.1.1, hcovers.1.2.1, hcovers.2⟩
    have hothers : count rounding settings now (fun a => (Key.org scope
          (organization_of user_id)).covers organization_of a
            && !decide (a.request.user_id = user_id)) answered
        ≤ count rounding settings now (admittedOfOthers organization_of scope user_id) answered := by
      apply count_le
      intro a ha hcovers
      simp only [Key.covers, Bool.and_eq_true, decide_eq_true_eq, Bool.not_eq_true',
        decide_eq_false_iff_not] at hcovers
      simp only [admittedOfOthers, Bool.and_eq_true, decide_eq_true_eq, bne_iff_ne]
      exact ⟨h hwindow a ha hcovers.1.1, hcovers.1.2, hcovers.2⟩
    rw [← count_split (q := fun a => decide (a.request.user_id = user_id))]
    omega
  · -- a window without length has no hits
    rw [count, recent_eq_nil fun hit hmem => ?_]
    · exact Nat.zero_le _
    · have hage := rounding.nonneg (sub_nonneg.mpr (mem_timesOf hpast hit hmem))
      exact decide_eq_false (not_lt.mpr (hwindow.trans hage))

/-- What holds of the answers so far when there was always room. -/
structure Within (rounding : Rounding) (settings : Settings) (organization_of : ℕ → ℕ)
    (s : History) : Prop where
  kept : Kept rounding settings organization_of s
  admitted : ChargedAdmitted settings s.answered
  budget : BudgetKept rounding settings organization_of s.answered

theorem start_within : Within rounding settings organization_of History.start where
  kept := start_kept
  admitted _ a ha := absurd ha List.not_mem_nil
  budget := by
    refine ⟨fun _ _ => capped_nil, fun before a after hsplit => ?_⟩
    have hlength := congrArg List.length hsplit
    simp [History.start] at hlength

/-- A request for which there is room is not charged and then refused. -/
theorem Within.charged_admitted (h : Within rounding settings organization_of s)
    (hpast : ∀ b ∈ s.answered, b.request.now ≤ a.request.now)
    (hroom : Room rounding settings organization_of s a.request)
    (hcases : settings.RATE_LIMIT_ENABLED = false ∧ a.charged = false ∧ a.admitted = true ∨
      settings.RATE_LIMIT_ENABLED = true ∧ Enforced rounding settings organization_of a.request
        (fun key => timesOf (key.covers organization_of) s.answered) a.charged a.admitted) :
    ChargedAdmitted settings (s.answered ++ [a]) := by
  intro hwindow b hb hcharged
  rw [List.mem_append, List.mem_singleton] at hb
  rcases hb with hb | rfl
  · exact h.admitted hwindow b hb hcharged
  rcases hcases with ⟨-, hno, -⟩ | ⟨hon, henforced⟩
  · rw [hno] at hcharged
    cases hcharged
  by_contra hrefused
  rw [Bool.not_eq_true] at hrefused
  have horganization := henforced.room hcharged
  have huser := henforced.user_full hcharged hrefused
  rw [room_iff h.kept hpast, count, count] at hroom
  rcases hroom with hoff | hshort | hfull | hless
  · rw [hoff] at hon
    cases hon
  · exact absurd hwindow (not_lt.mpr hshort)
  · exact absurd horganization (not_lt.mpr hfull)
  · exact absurd hless (not_lt.mpr huser)

/-- A request for which there is room keeps the budget. -/
theorem Within.step (h : Within rounding settings organization_of s)
    (hroom : Room rounding settings organization_of s r)
    (hstep : History.step rounding settings organization_of s r = some s') :
    Within rounding settings organization_of s' := by
  obtain ⟨hpast, hkept', a, rfl, hanswered, hcases⟩ := step_spec h.kept hstep
  have hadmitted' : ChargedAdmitted settings s'.answered := by
    rw [hanswered]
    exact h.charged_admitted hpast hroom hcases
  refine ⟨hkept', hadmitted', fun scope user_id => ?_, fun before b after hsplit hrefused hown => ?_⟩
  · rw [hanswered, capped_step hpast]
    refine ⟨h.budget.capped scope user_id, fun hcharged hwindow => ?_⟩
    simp only [chargedOf, Bool.and_eq_true, decide_eq_true_eq] at hcharged
    obtain ⟨hcharged, rfl, rfl⟩ := hcharged
    have hadmitted : a.admitted = true :=
      hadmitted' hwindow a (hanswered ▸ List.mem_append_right _ List.mem_cons_self) hcharged
    rcases hcases with ⟨-, hno, -⟩ | ⟨-, henforced⟩
    · rw [hno] at hcharged
      cases hcharged
    -- the user's charges were all admitted, and of those there are less than the limit
    refine lt_of_le_of_lt (count_le _ _ fun b hb hof => ?_) (henforced.user_room hadmitted)
    simp only [chargedOf, Bool.and_eq_true, decide_eq_true_eq] at hof
    simp only [Key.covers, Bool.and_eq_true, decide_eq_true_eq]
    exact ⟨⟨hof.1, h.admitted hwindow b hb hof.1⟩, hof.2⟩
  · rcases List.eq_nil_or_concat after with rfl | ⟨rest, last, rfl⟩
    · rw [hanswered] at hsplit
      obtain ⟨rfl, hlast⟩ := List.append_inj' hsplit rfl
      obtain rfl : a = b := List.cons.inj hlast |>.1
      rcases hcases with ⟨-, -, hyes⟩ | ⟨-, henforced⟩
      · rw [hyes] at hrefused
        cases hrefused
      by_cases hcharged : a.charged = true
      · -- refused by the user's window: the user's own limit was reached
        have huser := henforced.user_full hcharged hrefused
        refine absurd (lt_of_le_of_lt (huser.trans (count_le rounding settings
          (q := admittedOf a.request.scope a.request.user_id) fun b _ hof => ?_)) hown)
          (lt_irrefl _)
        simp only [Key.covers, Bool.and_eq_true, decide_eq_true_eq] at hof
        simp only [admittedOf, Bool.and_eq_true, decide_eq_true_eq]
        exact ⟨hof.1.2, hof.2⟩
      · rw [Bool.not_eq_true] at hcharged
        exact (henforced.organization_full hcharged).trans (count_org_le h.admitted hpast)
    · -- an older refusal was accounted for when it was given
      rw [hanswered, List.concat_eq_append, ← List.cons_append, ← List.append_assoc] at hsplit
      exact h.budget.accounted before b rest (List.append_inj' hsplit rfl).1 hrefused hown

/-- Where the budget is kept after a request, there was room for it. -/
theorem room_of_capped (hkept : Kept rounding settings organization_of s)
    (hstep : History.step rounding settings organization_of s r = some s')
    (hcapped : ∀ scope user_id, Capped (horizon rounding settings) (settings.user_limit scope)
      (timesOf (chargedOf scope user_id) s'.answered)) :
    Room rounding settings organization_of s r := by
  obtain ⟨hpast, -, a, rfl, hanswered, hcases⟩ := step_spec hkept hstep
  by_contra hroom
  rw [room_iff hkept hpast] at hroom
  push Not at hroom
  obtain ⟨hon, hwindow, horganization, huser⟩ := hroom
  rcases hcases with ⟨hoff, -⟩ | ⟨-, henforced⟩
  · exact hon hoff
  have hcharged : a.charged = true := by
    by_contra hno
    rw [Bool.not_eq_true] at hno
    exact absurd horganization (not_lt.mpr (henforced.organization_full hno))
  have hof : chargedOf a.request.scope a.request.user_id a = true := by
    simp [chargedOf, hcharged]
  -- the charge is one more than the user's limit
  have hlast := hcapped a.request.scope a.request.user_id
  rw [hanswered, capped_step hpast] at hlast
  refine absurd (lt_of_le_of_lt (huser.trans (count_le _ _ fun b _ hb => ?_)) (hlast.2 hof hwindow))
    (lt_irrefl _)
  simp only [Key.covers, Bool.and_eq_true, decide_eq_true_eq] at hb
  simp only [chargedOf, Bool.and_eq_true, decide_eq_true_eq]
  exact ⟨hb.1.1, hb.2⟩

end Runs

/-- **In a run of requests every user keeps to their limit of the organization's budget
exactly if no request is charged to the organization and then refused as one too many of its
user.** -/
theorem budget_kept_iff (rounding : Rounding) (settings : Settings) (organization_of : ℕ → ℕ)
    (requests : List Request) (s : History)
    (hrun : run (History.step rounding settings organization_of) History.start requests = some s) :
    BudgetKept rounding settings organization_of s.answered ↔
      Along (History.step rounding settings organization_of) (Room rounding settings organization_of)
        History.start requests := by
  constructor
  · intro hbudget
    -- what the final history keeps, all its beginnings have kept
    have hcapped : ∀ t : History, t.answered <+: s.answered → ∀ scope user_id,
        Capped (horizon rounding settings) (settings.user_limit scope)
          (timesOf (chargedOf scope user_id) t.answered) := by
      intro t hpre scope user_id
      exact (hbudget.capped scope user_id).sublist
        ((hpre.sublist.filter (chargedOf scope user_id)).map fun a : Answered => a.request.now)
    have hall : ∀ (xs : List Request) (t : History), Kept rounding settings organization_of t →
        run (History.step rounding settings organization_of) t xs = some s →
          Along (History.step rounding settings organization_of)
            (Room rounding settings organization_of) t xs := by
      intro xs
      induction xs with
      | nil => exact fun _ _ _ => trivial
      | cons x xs ih =>
        intro t hkept hxs
        obtain ⟨t', hstep, hrest⟩ := run_cons_eq_some_iff.mp hxs
        have hkept' := (step_spec hkept hstep).2.1
        refine ⟨room_of_capped hkept hstep (hcapped t' (run_start hrest)), fun u hu => ?_⟩
        rw [hstep, Option.some.injEq] at hu
        exact hu ▸ ih t' hkept' hrest
    exact hall requests History.start start_kept hrun
  · intro hroom
    exact (run_invariant (fun _ _ _ h hstep hnext => h.step hstep hnext) start_within hroom
      hrun).budget

/-! ## One user of an organization -/

/-- Two requests of a user in a minute, three of an organization. -/
def smallLimits : Settings where
  RATE_LIMIT_ENABLED := true
  RATE_LIMIT_WINDOW_SECONDS := 60
  AUTH_RATE_LIMIT_WINDOW_SECONDS := 300
  user_limit _ := 2
  organization_limit _ := 3

/-- Everybody is of one organization. -/
def oneOrganization (_ : ℕ) : ℕ := 1

/-- The user `1` asks twice, and another user then. -/
def twoUsers : List Request := [⟨"ai", 1, 0⟩, ⟨"ai", 1, 1⟩, ⟨"ai", 2, 2⟩]

theorem twoUsers_kept : ∃ s,
    run (History.step binary64 smallLimits oneOrganization) History.start twoUsers = some s ∧
      s.answered.map Answered.admitted = [true, true, true] ∧
      BudgetKept binary64 smallLimits oneOrganization s.answered := by
  have hruns : (run (History.step binary64 smallLimits oneOrganization) History.start
      twoUsers).isSome = true := by decide +kernel
  obtain ⟨s, hrun⟩ := Option.isSome_iff_exists.mp hruns
  refine ⟨s, hrun, ?_, (budget_kept_iff binary64 smallLimits oneOrganization twoUsers s hrun).mpr
    (by decide +kernel)⟩
  have hadmitted : (run (History.step binary64 smallLimits oneOrganization) History.start
      twoUsers).map (fun s => s.answered.map Answered.admitted) = some [true, true, true] := by
    decide +kernel
  rw [hrun] at hadmitted
  exact Option.some.inj hadmitted

/-- The user `1` asks a third time before. -/
def thirdRequest : List Request := [⟨"ai", 1, 0⟩, ⟨"ai", 1, 1⟩, ⟨"ai", 1, 2⟩, ⟨"ai", 2, 3⟩]

/-- **The third request of the first user is refused and takes the last of the
organization's budget**, so that the first request of another user is refused. -/
theorem thirdRequest_spends : ∃ s,
    run (History.step binary64 smallLimits oneOrganization) History.start thirdRequest = some s ∧
      s.answered.map (fun a => (a.charged, a.admitted))
        = [(true, true), (true, true), (true, false), (false, false)] ∧
      ¬ BudgetKept binary64 smallLimits oneOrganization s.answered := by
  have hruns : (run (History.step binary64 smallLimits oneOrganization) History.start
      thirdRequest).isSome = true := by decide +kernel
  obtain ⟨s, hrun⟩ := Option.isSome_iff_exists.mp hruns
  have hanswered : (run (History.step binary64 smallLimits oneOrganization) History.start
      thirdRequest).map (fun s => s.answered.map fun a => (a.charged, a.admitted))
        = some [(true, true), (true, true), (true, false), (false, false)] := by decide +kernel
  have hspent : (run (History.step binary64 smallLimits oneOrganization) History.start
      thirdRequest).map (fun s => (timesOf (chargedOf "ai" 1) s.answered)) = some [0, 1, 2] := by
    decide +kernel
  rw [hrun] at hanswered hspent
  refine ⟨s, hrun, Option.some.inj hanswered, fun hbudget => ?_⟩
  have htimes : timesOf (chargedOf "ai" 1) s.answered = [0, 1, 2] := Option.some.inj hspent
  have hcapped := hbudget.capped "ai" 1 2
  rw [htimes] at hcapped
  exact absurd hcapped (by decide +kernel)

end PaCopilot.rate_limit
