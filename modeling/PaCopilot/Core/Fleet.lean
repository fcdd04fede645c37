/-
The throttle of an address, over all the instances of the application: `client_ip_of`, `_check`,
`enforce_ip` and `enforce` of `core/rate_limit.py`, with the shared store.

A request comes through the proxies that the deployment trusts; each of them writes down the
address it was asked from, behind what the client sent. An instance asks the shared store. Where
the store does not answer, carried out or not, the instance falls back to the windows in its own
memory. So a client has the limit of the store and that of every instance on which the store
failed it, whatever it claims about itself; and nobody else uses that up ([`throttle_holds`]).

The clocks of the instances and of the store agree, a request reads its clock once, and ages
are exact here: what rounding does to the windows of one process is said with them.
-/
import PaCopilot.Core.SlidingWindow
import PaCopilot.Python
import Mathlib.Algebra.BigOperators.Group.Finset.Piecewise
import Mathlib.Algebra.Order.BigOperators.Group.Finset

set_option autoImplicit false

namespace PaCopilot.rate_limit

open Run Window

/-- The hits that are less than a window old. Nothing is rounded here. -/
abbrev trueAges (window : ℚ) : Horizon ℚ := young .exact window

/-! ## The address of a client -/

/-- The address of a machine, as it is written in a header. -/
structure Address where
  text : List Char
  nonempty : text ≠ []
  plain : ∀ c ∈ text, c ≠ ',' ∧ Python.isspace c = false
  deriving DecidableEq

/-- What an instance sees of a request: the header, empty where there is none, and who asks. -/
structure WebRequest where
  x_forwarded_for : List Char
  client : Option (List Char)

/-- `[part.strip() for part in forwarded.split(",") if part.strip()]`. -/
def hopsOf (forwarded : List Char) : List (List Char) :=
  ((forwarded.splitOn ',').map Python.strip).filter (· ≠ [])

def client_ip_of (TRUSTED_PROXY_COUNT : ℤ) (request : WebRequest) : Option (List Char) :=
  let trusted := TRUSTED_PROXY_COUNT.toNat
  let hops := hopsOf request.x_forwarded_for
  if trusted = 0 ∨ hops = [] then request.client
  else hops[hops.length - min trusted hops.length]?

/-- A proxy appends the address that it is asked from to the header. -/
def appended (forwarded : List Char) (address : Address) : List Char :=
  if forwarded = [] then address.text else forwarded ++ [',', ' '] ++ address.text

/-- A request on its way through the proxies. -/
def through : List Address → Address → List Char → WebRequest
  | [], address, forwarded => ⟨forwarded, some address.text⟩
  | proxy :: proxies, address, forwarded => through proxies proxy (appended forwarded address)

theorem strip_plain {text : List Char} (h : ∀ c ∈ text, Python.isspace c = false) :
    Python.strip text = text := by
  have hself : ∀ {l : List Char}, (∀ c ∈ l, Python.isspace c = false) →
      l.dropWhile Python.isspace = l := by
    intro l hl
    rcases l with _ | ⟨c, rest⟩
    · rfl
    · rw [List.dropWhile_cons, hl c List.mem_cons_self]
      rfl
  rw [Python.strip, hself h, hself fun c hc => h c (List.mem_reverse.mp hc), List.reverse_reverse]

/-- The address is the last hop. -/
theorem hopsOf_appended (forwarded : List Char) (address : Address) :
    hopsOf (appended forwarded address) = hopsOf forwarded ++ [address.text] := by
  have hcomma : ∀ {l : List Char}, (∀ c ∈ l, c ≠ ',') → l.splitOn ',' = [l] := fun hl =>
    List.splitOn_eq_singleton fun hmem => hl _ hmem rfl
  have hstrip := strip_plain fun c hc => (address.plain c hc).2
  have hlast : ([address.text].filter (· ≠ [])) = [address.text] :=
    List.filter_eq_self.mpr fun text htext => by
      rw [List.mem_singleton.mp htext, decide_eq_true_eq]
      exact address.nonempty
  unfold appended
  split
  · rename_i hempty
    rw [hempty, hopsOf, hcomma fun c hc => (address.plain c hc).1, List.map_singleton, hstrip, hlast]
    rfl
  · have hspace : Python.strip (' ' :: address.text) = address.text := by
      rw [Python.strip, List.dropWhile_cons_of_pos (by decide), ← Python.strip, hstrip]
    have hrest : (' ' :: address.text).splitOn ',' = [' ' :: address.text] :=
      hcomma fun c hc => by
        rcases List.mem_cons.mp hc with rfl | hc
        · decide
        · exact (address.plain c hc).1
    rw [hopsOf, List.append_assoc, List.cons_append, List.cons_append, List.nil_append,
      List.splitOn_append_cons_self, hrest, List.map_append, List.filter_append, List.map_singleton,
      hspace, hlast]
    rfl

/-- Behind the proxies: the header ends with the client and all proxies but the last. -/
theorem hopsOf_through (proxies : List Address) (address : Address) (forwarded : List Char) :
    hopsOf (through proxies address forwarded).x_forwarded_for
      = hopsOf forwarded ++ ((address :: proxies).dropLast.map Address.text) := by
  induction proxies generalizing address forwarded with
  | nil =>
    rw [through, List.dropLast_singleton, List.map_nil, List.append_nil]
  | cons proxy proxies ih =>
    rw [through, ih, hopsOf_appended, List.append_assoc, List.dropLast_cons_cons]
    rfl

/-- **The address is the client's own**, whatever the client sends in the header. -/
theorem client_ip_of_through (proxies : List Address) (address : Address) (forged : List Char) :
    client_ip_of proxies.length (through proxies address forged) = some address.text := by
  unfold client_ip_of
  dsimp only
  rw [Int.toNat_natCast, hopsOf_through]
  rcases proxies with _ | ⟨proxy, proxies⟩
  · rw [if_pos (.inl rfl)]
    rfl
  · have hlength : ((address :: proxy :: proxies).dropLast.map Address.text).length
        = (proxy :: proxies).length := by
      rw [List.length_map, List.length_dropLast]
      rfl
    have hne : ¬ ((proxy :: proxies).length = 0 ∨
        hopsOf forged ++ (address :: proxy :: proxies).dropLast.map Address.text = []) := by
      rw [List.dropLast_cons_cons, List.map_cons]
      simp
    rw [if_neg hne, List.length_append, hlength, min_eq_left (Nat.le_add_left _ _),
      Nat.add_sub_cancel, List.getElem?_append_right (Nat.le_refl _), Nat.sub_self,
      List.dropLast_cons_cons]
    rfl

/-! ## The store -/

/-- A sorted set of the store, with the time at which the store drops it. -/
structure SortedSet where
  scores : List ℚ
  expires_at : Option ℚ

/-- What the store has of it at a time. -/
def SortedSet.live (set : SortedSet) (now : ℚ) : List ℚ :=
  match set.expires_at with
  | some t => if t ≤ now then [] else set.scores
  | none => set.scores

/-- `_SLIDING_WINDOW`, with its `PEXPIRE`. -/
def _SLIDING_WINDOW (limit : ℕ) (now window : ℚ) (set : SortedSet) :
    Option (Option ℚ) × SortedSet :=
  match _check_shared .exact limit now window (set.live now) with
  | (some none, scores) => (some none, ⟨scores, some (now + ⌈window * 1000⌉ / 1000)⟩)
  | (answer, scores) => (answer, ⟨scores, set.expires_at⟩)

/-- What becomes of a call of the store. A script whose answer is lost has been carried out. -/
inductive Call
  | answered
  | lost
  | unreached
  deriving DecidableEq

/-- What the checks of an instance work on. -/
structure Stores where
  shared : Key → SortedSet
  windows : Key → List ℚ

/-- The settings of `core/config.py` for a deployment of many instances. -/
structure Deployment extends Settings where
  ip_limit : String → ℕ
  TRUSTED_PROXY_COUNT : ℤ
  /-- `_shared_store() is not None`. -/
  shared_store : Bool

section Checks

variable (settings : Deployment)

/-- `_check`. -/
def _check (call : Call) (key : Key) (limit : ℕ) (now window : ℚ) (s : Stores) :
    Except Raised (Option ℚ) × Stores :=
  let inMemory (shared : Key → SortedSet) : Except Raised (Option ℚ) × Stores :=
    let (answer, windows) := _check_memory .exact key limit now window s.windows
    (answer, ⟨shared, windows⟩)
  if settings.shared_store = false then inMemory s.shared
  else
    let (answer, set) := _SLIDING_WINDOW limit now window (s.shared key)
    let shared := Function.update s.shared key set
    match call, answer with
    | .unreached, _ => inMemory s.shared
    | .answered, some retry_after => (.ok retry_after, ⟨shared, s.windows⟩)
    -- the script failed, or its answer did not arrive
    | .answered, none | .lost, _ => inMemory shared

/-- What a check that found no room raises. -/
def refusal (message : ℤ → String) : Except Raised (Option ℚ) → Except Raised Unit
  | .error e => .error e
  | .ok (some retry_after) =>
    .error (.RateLimitedException (message (wait retry_after)) retry_after)
  | .ok none => .ok ()

/-- `enforce_ip`, with the default window. -/
def enforceAddress (call : Call) (scope : String) (client_ip : Option (List Char)) (now : ℚ)
    (s : Stores) : Except Raised Unit × Stores :=
  if settings.RATE_LIMIT_ENABLED = false then (.ok (), s)
  else
    match client_ip with
    | none | some [] => (.ok (), s)
    | some client_ip =>
      let (answer, s) := _check settings call (.ip scope (String.ofList client_ip))
        (settings.ip_limit scope) now settings.AUTH_RATE_LIMIT_WINDOW_SECONDS s
      (refusal (fun seconds => "Too many attempts from this address. Try again in "
        ++ s!"{seconds}s.") answer, s)

/-- The two checks of `enforce`. -/
def enforceAccount (first second : Call) (scope : String) (user_id organization_id : ℕ) (now : ℚ)
    (s : Stores) : Except Raised Unit × Stores :=
  let (answer, s) := _check settings first (.org scope organization_id)
    (settings.organization_limit scope) now settings.RATE_LIMIT_WINDOW_SECONDS s
  match refusal (fun seconds => "Your organization has made too many requests. Try again in "
    ++ s!"{seconds}s.") answer with
  | .error e => (.error e, s)
  | .ok () =>
    let (answer, s) := _check settings second (.user scope user_id) (settings.user_limit scope) now
      settings.RATE_LIMIT_WINDOW_SECONDS s
    (refusal (fun seconds => s!"Too many requests. Try again in {seconds}s.") answer, s)

/-- What `enforce` does before its checks, if it is enabled. -/
def swept (now : ℚ) (limiter : Limiter) : Limiter :=
  let hits := limiter._hits_since_sweep + 1
  if _SWEEP_EVERY ≤ hits then ⟨_sweep .exact settings.toSettings now limiter._WINDOWS, 0⟩
  else ⟨limiter._WINDOWS, hits⟩

end Checks

/-! ## The fleet -/

/-- A request without a token, of a client that sends some header; or one of a signed-in user. -/
inductive Asked
  | attempt (scope : String) (client : Address) (sent : List Char)
  | guarded (scope : String) (user_id organization_id : ℕ)

/-- A request that reaches an instance, and what becomes of its calls of the store. -/
structure FleetRequest (ι : Type) where
  place : ι
  asked : Asked
  now : ℚ
  first : Call
  second : Call

/-- The store, the instances, and the requests so far with what they were answered. -/
structure Fleet (ι : Type) where
  shared : Key → SortedSet
  limiters : ι → Limiter
  clock : ℚ
  done : List (FleetRequest ι × Except Raised Unit)

def Fleet.start {ι : Type} : Fleet ι := ⟨fun _ => ⟨[], none⟩, fun _ => ⟨fun _ => [], 0⟩, 0, []⟩

namespace Fleet

variable {ι : Type} [DecidableEq ι] (settings : Deployment) (proxies : List Address)

/-- What an instance answers, and what it leaves of the store and of its own windows. -/
def respond (s : Fleet ι) (request : FleetRequest ι) : Except Raised Unit × Stores × ℕ :=
  let limiter := s.limiters request.place
  match request.asked with
  | .attempt scope client sent =>
    let (answer, stores) := enforceAddress settings request.first scope
      (client_ip_of settings.TRUSTED_PROXY_COUNT (through proxies client sent)) request.now
      ⟨s.shared, limiter._WINDOWS⟩
    (answer, stores, limiter._hits_since_sweep)
  | .guarded scope user_id organization_id =>
    if settings.RATE_LIMIT_ENABLED = false then
      (.ok (), ⟨s.shared, limiter._WINDOWS⟩, limiter._hits_since_sweep)
    else
      let limiter := swept settings request.now limiter
      let (answer, stores) := enforceAccount settings request.first request.second scope user_id
        organization_id request.now ⟨s.shared, limiter._WINDOWS⟩
      (answer, stores, limiter._hits_since_sweep)

/-- A request, no earlier than those before it. -/
def step (s : Fleet ι) (request : FleetRequest ι) : Option (Fleet ι) :=
  if request.now < s.clock then none
  else
    let (answer, stores, hits) := s.respond settings proxies request
    some {
      shared := stores.shared
      limiters := Function.update s.limiters request.place ⟨stores.windows, hits⟩
      clock := request.now
      done := s.done ++ [(request, answer)] }

/-- The request is an attempt of the client. -/
def attempts (scope : String) (client : Address) (request : FleetRequest ι) : Bool :=
  match request.asked with
  | .attempt scope' client' _ => scope' = scope ∧ client' = client
  | .guarded _ _ _ => false

/-- The times of the client's attempts. -/
def attempted (scope : String) (client : Address) (s : Fleet ι) : List ℚ :=
  (s.done.filter fun d => attempts scope client d.1).map fun d => d.1.now

/-- The times of those that were admitted. -/
def admittedOf (scope : String) (client : Address) (s : Fleet ι) : List ℚ :=
  (s.done.filter fun d => attempts scope client d.1 && d.2.toBool).map fun d => d.1.now

/-- The instances that an attempt of the client came to when the store did not answer. -/
def outages (scope : String) (client : Address) (s : Fleet ι) : Finset ι :=
  ((s.done.filter fun d => attempts scope client d.1 &&
    (!settings.shared_store || d.1.first ≠ .answered)).map fun d => d.1.place).toFinset

end Fleet

/-! ## One check -/

section Check

variable {limit : ℕ} {now window : ℚ} {set : SortedSet} {times : List ℚ}

/-- From `now` on, what is live of the set keeps the history. -/
structure KeepsSet (window now : ℚ) (set : SortedSet) (times : List ℚ) : Prop where
  keeps : ∀ t, now ≤ t → Keeps (trueAges window) t (set.live t) times
  positive : ∀ score ∈ set.scores, 0 ≤ score

theorem KeepsSet.later {after : ℚ} (h : KeepsSet window now set times) (hle : now ≤ after) :
    KeepsSet window after set times :=
  ⟨fun t ht => h.keeps t (hle.trans ht), h.positive⟩

theorem SortedSet.live_subset (set : SortedSet) (now : ℚ) : ∀ hit ∈ set.live now, hit ∈ set.scores := by
  unfold SortedSet.live
  intro hit hmem
  split at hmem
  · split at hmem
    · exact absurd hmem List.not_mem_nil
    · exact hmem
  · exact hmem

/-- Windows that hold the same under every key. -/
def everywhere (hits : List ℚ) : Key → List ℚ := fun _ => hits

/-- What the script does to the live scores is what the memory does to its log. -/
theorem check_shared_eq {key : Key} {answer : Option ℚ} {hits : List ℚ}
    (h : KeepsSet window now set times) (hlimit : 1 ≤ limit)
    (hmemory : _check_memory .exact key limit now window (everywhere (set.live now))
      = (.ok answer, Function.update (everywhere (set.live now)) key hits)) :
    _check_shared .exact limit now window (set.live now) = (some answer, hits) := by
  have hlive : Keeps (trueAges window) now (everywhere (set.live now) key) times :=
    h.keeps now le_rfl
  have hsame := sliding_window_eq hlive.ordered hlive.past
    (fun hit hmem => h.positive hit (set.live_subset now hit hmem)) hlimit window
  rw [hmemory] at hsame
  exact Prod.ext hsame.1 (hsame.2.trans (Function.update_self _ _ _))

theorem recent_positive (h : KeepsSet window now set times) :
    ∀ hit ∈ recent (trueAges window) now times, 0 ≤ hit := by
  intro hit hmem
  rw [← (h.keeps now le_rfl).expire_eq le_rfl] at hmem
  exact h.positive hit (set.live_subset now hit ((List.dropWhile_sublist _).subset hmem))

/-- The script records a hit when there is room. -/
theorem script_room (h : KeepsSet window now set times) (hnow : 0 ≤ now) (hlimit : 1 ≤ limit)
    (hroom : (recent (trueAges window) now times).length < limit) :
    ∃ set', _SLIDING_WINDOW limit now window set = (some none, set') ∧
      KeepsSet window now set' (times ++ [now]) := by
  have hlive := h.keeps now le_rfl
  have hwindows : Keeps (trueAges window) now (everywhere (set.live now) (.ip "" "")) times := hlive
  have hshared := check_shared_eq h hlimit (check_room hwindows hroom)
  refine ⟨_, by rw [_SLIDING_WINDOW, hshared], ⟨fun t ht => ?_, ?_⟩⟩
  · have hkeeps := hlive.expire.hit
    rw [hlive.expire_eq le_rfl] at hkeeps
    unfold SortedSet.live
    dsimp only
    split
    · -- what has expired does not count any more
      rename_i hexpired
      refine (hkeeps.later ht).clear fun hit hmem => ?_
      have hceil : window * 1000 ≤ ⌈window * 1000⌉ := Int.le_ceil _
      have hpast := hkeeps.past hit hmem
      change decide (t - hit < window) = false
      rw [decide_eq_false_iff_not, not_lt]
      linarith
    · exact hkeeps.later ht
  · intro hit hmem
    rcases List.mem_append.mp hmem with hmem | hmem
    · exact recent_positive h hit hmem
    · rw [List.mem_singleton.mp hmem]
      exact hnow

/-- It refuses when there is none. -/
theorem script_full (h : KeepsSet window now set times) (hlimit : 1 ≤ limit)
    (hfull : limit ≤ (recent (trueAges window) now times).length) :
    ∃ retry_after set', _SLIDING_WINDOW limit now window set = (some (some retry_after), set') ∧
      KeepsSet window now set' times := by
  have hlive := h.keeps now le_rfl
  have hwindows : Keeps (trueAges window) now (everywhere (set.live now) (.ip "" "")) times := hlive
  obtain ⟨oldest, rest, -, hmemory⟩ := check_full hwindows hlimit hfull
  have hshared := check_shared_eq h hlimit hmemory
  refine ⟨_, _, by rw [_SLIDING_WINDOW, hshared], ⟨fun t ht => ?_, recent_positive h⟩⟩
  have hthen := h.keeps t ht
  have hkeeps := hlive.expire
  rw [hlive.expire_eq le_rfl] at hkeeps
  unfold SortedSet.live at hthen ⊢
  dsimp only at hthen ⊢
  split
  · rename_i expires hexpires
    split
    · rename_i hexpired
      rw [hexpires] at hthen
      dsimp only at hthen
      rwa [if_pos hexpired] at hthen
    · exact hkeeps.later ht
  · exact hkeeps.later ht

/-- A history gets the hit, if there was room. -/
def Grown (limit : ℕ) (window now : ℚ) (times times' : List ℚ) : Prop :=
  times' = times ∨ times' = times ++ [now] ∧ (recent (trueAges window) now times).length < limit

/-- A history that may have got a hit is within the attempts, and under its limit. -/
theorem Grown.within {times' attempts : List ℚ}
    (h : Grown limit window now times times') (hwithin : times.Sublist attempts) :
    times'.Sublist (attempts ++ [now]) := by
  rcases h with rfl | ⟨rfl, -⟩
  · exact hwithin.trans (List.sublist_append_left _ _)
  · exact hwithin.append (List.Sublist.refl _)

theorem Grown.capped {times' : List ℚ}
    (h : Grown limit window now times times') (hpast : ∀ hit ∈ times, hit ≤ now)
    (hcapped : Capped (trueAges window) limit times) : Capped (trueAges window) limit times' := by
  rcases h with rfl | ⟨rfl, hroom⟩
  · exact hcapped
  · exact (capped_append_iff hpast).mpr ⟨hcapped, fun _ => hroom⟩

theorem Grown.countP_le {times' : List ℚ}
    (h : Grown limit window now times times') (p : ℚ → Bool) : times.countP p ≤ times'.countP p := by
  rcases h with rfl | ⟨rfl, -⟩
  · exact le_rfl
  · rw [List.countP_append]
    exact Nat.le_add_right _ _

/-- The memory of the instance is asked. -/
def Failed (settings : Deployment) (call : Call) : Prop :=
  settings.shared_store = false ∨ call ≠ .answered

/-- What a check makes of the history of the store and of that of the instance. -/
structure Checked (settings : Deployment) (call : Call) (limit : ℕ) (window now : ℚ)
    (answer : Except Raised (Option ℚ)) (stored stored' kept kept' : List ℚ) : Prop where
  shared : Grown limit window now stored stored'
  memory : Grown limit window now kept kept'
  unused : settings.shared_store = false → stored' = stored
  admitted : answer = .ok none →
    stored' = stored ++ [now] ∧ kept' = kept ∨ kept' = kept ++ [now] ∧ Failed settings call
  refused : answer ≠ .ok none →
    limit ≤ (recent (trueAges window) now stored).length ∨
      limit ≤ (recent (trueAges window) now kept).length

variable {settings : Deployment} {call : Call} {key : Key} {s : Stores} {stored kept : List ℚ}

/-- The memory decides. -/
theorem check_memory_spec {stored' : List ℚ}
    (hmemory : Keeps (trueAges window) now (s.windows key) kept) (hlimit : 1 ≤ limit)
    (hfailed : Failed settings call)
    (hshared : Grown limit window now stored stored')
    (hunused : settings.shared_store = false → stored' = stored) :
    ∃ kept', Checked settings call limit window now
        (_check_memory .exact key limit now window s.windows).1 stored stored' kept kept' ∧
      Keeps (trueAges window) now ((_check_memory .exact key limit now window s.windows).2 key)
        kept' := by
  have hkeeps := hmemory.expire
  rw [hmemory.expire_eq le_rfl] at hkeeps
  rcases Nat.lt_or_ge (recent (trueAges window) now kept).length limit with hroom | hfull
  · rw [check_room hmemory hroom]
    dsimp only
    rw [Function.update_self]
    refine ⟨kept ++ [now], ⟨hshared, .inr ⟨rfl, hroom⟩, hunused, fun _ => .inr ⟨rfl, hfailed⟩,
      fun h => absurd rfl h⟩, hkeeps.hit⟩
  · obtain ⟨oldest, rest, -, hcheck⟩ := check_full hmemory hlimit hfull
    rw [hcheck]
    dsimp only
    rw [Function.update_self]
    refine ⟨kept, ⟨hshared, .inl rfl, hunused, fun h => ?_, fun _ => .inr hfull⟩, hkeeps⟩
    cases h

variable (settings call) in
/-- **What a check does**, whatever becomes of its call. -/
theorem check_spec (hstore : KeepsSet window now (s.shared key) stored)
    (hmemory : Keeps (trueAges window) now (s.windows key) kept) (hnow : 0 ≤ now)
    (hlimit : 1 ≤ limit) :
    ∃ stored' kept', Checked settings call limit window now
        (_check settings call key limit now window s).1 stored stored' kept kept' ∧
      KeepsSet window now ((_check settings call key limit now window s).2.shared key) stored' ∧
      Keeps (trueAges window) now ((_check settings call key limit now window s).2.windows key)
        kept' := by
  unfold _check
  dsimp only
  split
  · rename_i hoff
    obtain ⟨kept', hchecked, hkept⟩ := check_memory_spec hmemory hlimit
      (.inl hoff : Failed settings call) (.inl rfl : Grown limit window now stored stored) fun _ => rfl
    exact ⟨stored, kept', hchecked, hstore, hkept⟩
  rename_i hon
  have hunused : ∀ stored', settings.shared_store = false → stored' = stored :=
    fun _ hoff => absurd hoff hon
  -- what the script makes of the set
  obtain ⟨answer, set', stored', hscript, hset, hshared, hanswer⟩ : ∃ answer set' stored',
      _SLIDING_WINDOW limit now window (s.shared key) = (some answer, set') ∧
        KeepsSet window now set' stored' ∧ Grown limit window now stored stored' ∧
        (answer = none ∧ stored' = stored ++ [now] ∨
          answer ≠ none ∧ limit ≤ (recent (trueAges window) now stored).length) := by
    rcases Nat.lt_or_ge (recent (trueAges window) now stored).length limit with hroom | hfull
    · obtain ⟨set', hscript, hset⟩ := script_room hstore hnow hlimit hroom
      exact ⟨none, set', _, hscript, hset, .inr ⟨rfl, hroom⟩, .inl ⟨rfl, rfl⟩⟩
    · obtain ⟨retry_after, set', hscript, hset⟩ := script_full hstore hlimit hfull
      exact ⟨some retry_after, set', _, hscript, hset, .inl rfl, .inr ⟨nofun, hfull⟩⟩
  rw [hscript]
  dsimp only
  cases call with
  | answered =>
    refine ⟨stored', kept, ⟨hshared, .inl rfl, hunused _, fun h => .inl ⟨?_, rfl⟩, fun h => .inl ?_⟩,
      ?_, hmemory⟩
    · rcases hanswer with ⟨-, hgrown⟩ | ⟨hne, -⟩
      · exact hgrown
      · exact absurd (Except.ok.inj h) hne
    · rcases hanswer with ⟨rfl, -⟩ | ⟨-, hfull⟩
      · exact absurd rfl h
      · exact hfull
    · dsimp only
      rw [Function.update_self]
      exact hset
  | lost =>
    obtain ⟨kept', hchecked, hkept⟩ := check_memory_spec hmemory hlimit
      (.inr nofun : Failed settings .lost) hshared (hunused _)
    refine ⟨stored', kept', hchecked, ?_, hkept⟩
    dsimp only
    rw [Function.update_self]
    exact hset
  | unreached =>
    obtain ⟨kept', hchecked, hkept⟩ := check_memory_spec hmemory hlimit
      (.inr nofun : Failed settings .unreached) (.inl rfl : Grown limit window now stored stored)
      fun _ => rfl
    exact ⟨stored, kept', hchecked, hstore, hkept⟩

/-- A check of one key leaves what there is of the others. -/
theorem check_frame {other : Key} (hne : key ≠ other) :
    (_check settings call other limit now window s).2.shared key = s.shared key ∧
      (_check settings call other limit now window s).2.windows key = s.windows key := by
  have hmemory : (_check_memory .exact other limit now window s.windows).2 key = s.windows key :=
    check_other hne
  unfold _check
  dsimp only
  split
  · exact ⟨rfl, hmemory⟩
  · split
    · exact ⟨rfl, hmemory⟩
    · exact ⟨Function.update_of_ne hne _ _, rfl⟩
    · exact ⟨Function.update_of_ne hne _ _, hmemory⟩
    · exact ⟨Function.update_of_ne hne _ _, hmemory⟩

end Check

/-! ## One request -/

namespace Fleet

section Requests

variable {ι : Type} {settings : Deployment} {proxies : List Address}
  {scope : String} {client : Address} {s s' : Fleet ι} {request : FleetRequest ι}
  {answer : Except Raised Unit}

/-- The key of a client. -/
def keyOf (scope : String) (client : Address) : Key := .ip scope (String.ofList client.text)

theorem attempts_iff : attempts scope client request = true ↔
    ∃ sent, request.asked = .attempt scope client sent := by
  unfold attempts
  rcases request.asked with ⟨scope', client', sent⟩ | ⟨scope', user_id, organization_id⟩
  · simp only [decide_eq_true_eq, Asked.attempt.injEq]
    constructor
    · rintro ⟨rfl, rfl⟩
      exact ⟨sent, rfl, rfl, rfl⟩
    · rintro ⟨_, rfl, rfl, -⟩
      exact ⟨rfl, rfl⟩
  · simp

theorem keyOf_ne {scope' : String} {client' : Address} {sent : List Char}
    (hother : attempts scope client request = false)
    (hasked : request.asked = .attempt scope' client' sent) :
    keyOf scope client ≠ keyOf scope' client' := by
  intro heq
  rw [keyOf, keyOf, Key.ip.injEq, String.ofList_inj] at heq
  obtain ⟨rfl, htext⟩ := heq
  have hclient : client = client' := by
    cases client
    cases client'
    cases htext
    rfl
  rw [← Bool.not_eq_true, attempts_iff, hclient] at hother
  exact hother ⟨sent, hasked⟩

theorem refusal_eq_ok_iff {message : ℤ → String} {checked : Except Raised (Option ℚ)} :
    refusal message checked = .ok () ↔ checked = .ok none := by
  rcases checked with e | _ | retry_after <;> simp [refusal]

variable (scope client) in
/-- An attempt is a check of the key of its client. -/
theorem enforceAddress_eq (henabled : settings.RATE_LIMIT_ENABLED = true)
    (hproxies : settings.TRUSTED_PROXY_COUNT = proxies.length) (call : Call) (sent : List Char)
    (now : ℚ) (stores : Stores) :
    ∃ message, enforceAddress settings call scope
        (client_ip_of settings.TRUSTED_PROXY_COUNT (through proxies client sent)) now stores
      = (refusal message (_check settings call (keyOf scope client) (settings.ip_limit scope) now
          settings.AUTH_RATE_LIMIT_WINDOW_SECONDS stores).1,
        (_check settings call (keyOf scope client) (settings.ip_limit scope) now
          settings.AUTH_RATE_LIMIT_WINDOW_SECONDS stores).2) := by
  have hon : ¬ settings.RATE_LIMIT_ENABLED = false := by
    rw [henabled]
    decide
  have hnonempty := client.nonempty
  rw [hproxies, client_ip_of_through]
  unfold enforceAddress keyOf
  rw [if_neg hon]
  generalize client.text = text at hnonempty ⊢
  cases text with
  | nil => exact absurd rfl hnonempty
  | cons c rest => exact ⟨_, rfl⟩

theorem enforceAddress_frame {scope' : String} {client' : Address}
    (henabled : settings.RATE_LIMIT_ENABLED = true)
    (hproxies : settings.TRUSTED_PROXY_COUNT = proxies.length)
    (hne : keyOf scope client ≠ keyOf scope' client') (call : Call) (sent : List Char) (now : ℚ)
    (stores : Stores) :
    (enforceAddress settings call scope' (client_ip_of settings.TRUSTED_PROXY_COUNT
        (through proxies client' sent)) now stores).2.shared (keyOf scope client)
        = stores.shared (keyOf scope client) ∧
      (enforceAddress settings call scope' (client_ip_of settings.TRUSTED_PROXY_COUNT
        (through proxies client' sent)) now stores).2.windows (keyOf scope client)
        = stores.windows (keyOf scope client) := by
  obtain ⟨message, heq⟩ := enforceAddress_eq scope' client' henabled hproxies call sent now stores
  rw [heq]
  exact check_frame hne

/-- The checks of an account leave the keys of addresses alone. -/
theorem enforceAccount_frame (first second : Call) (scope' : String) (user_id organization_id : ℕ)
    (now : ℚ) (stores : Stores) :
    (enforceAccount settings first second scope' user_id organization_id now stores).2.shared
        (keyOf scope client) = stores.shared (keyOf scope client) ∧
      (enforceAccount settings first second scope' user_id organization_id now stores).2.windows
        (keyOf scope client) = stores.windows (keyOf scope client) := by
  have horganization : keyOf scope client ≠ .org scope' organization_id := nofun
  have huser : keyOf scope client ≠ .user scope' user_id := nofun
  unfold enforceAccount
  dsimp only
  split
  · exact check_frame horganization
  · exact ⟨(check_frame huser).1.trans (check_frame horganization).1,
      (check_frame huser).2.trans (check_frame horganization).2⟩

theorem swept_keeps {limiter : Limiter} {now : ℚ} {times : List ℚ}
    (h : Keeps (trueAges settings.AUTH_RATE_LIMIT_WINDOW_SECONDS) now
      (limiter._WINDOWS (keyOf scope client)) times) :
    Keeps (trueAges settings.AUTH_RATE_LIMIT_WINDOW_SECONDS) now
      ((swept settings now limiter)._WINDOWS (keyOf scope client)) times := by
  unfold swept
  dsimp only
  split
  · exact keeps_sweep h (le_max_right _ _)
  · exact h

/-- A request of anybody else leaves the key of the client as it is, up to what is too old. -/
theorem respond_other (henabled : settings.RATE_LIMIT_ENABLED = true)
    (hproxies : settings.TRUSTED_PROXY_COUNT = proxies.length)
    (hother : attempts scope client request = false) {times : List ℚ}
    (hmemory : Keeps (trueAges settings.AUTH_RATE_LIMIT_WINDOW_SECONDS) request.now
      ((s.limiters request.place)._WINDOWS (keyOf scope client)) times) :
    (s.respond settings proxies request).2.1.shared (keyOf scope client)
        = s.shared (keyOf scope client) ∧
      Keeps (trueAges settings.AUTH_RATE_LIMIT_WINDOW_SECONDS) request.now
        ((s.respond settings proxies request).2.1.windows (keyOf scope client)) times := by
  unfold respond
  dsimp only
  rcases hasked : request.asked with ⟨scope', client', sent⟩ | ⟨scope', user_id, organization_id⟩
  · have hframe := enforceAddress_frame henabled hproxies (keyOf_ne hother hasked) request.first sent
      request.now ⟨s.shared, (s.limiters request.place)._WINDOWS⟩
    exact ⟨hframe.1, hframe.2.symm ▸ hmemory⟩
  · have hon : ¬ settings.RATE_LIMIT_ENABLED = false := by
      rw [henabled]
      decide
    dsimp only
    rw [if_neg hon]
    dsimp only
    constructor
    · exact (enforceAccount_frame ..).1
    · rw [(enforceAccount_frame ..).2]
      exact swept_keeps hmemory

/-- What a client's attempt is answered, and what it leaves. -/
theorem respond_own (henabled : settings.RATE_LIMIT_ENABLED = true)
    (hproxies : settings.TRUSTED_PROXY_COUNT = proxies.length)
    (hown : attempts scope client request = true) :
    ((s.respond settings proxies request).1 = .ok () ↔
      (_check settings request.first (keyOf scope client) (settings.ip_limit scope) request.now
        settings.AUTH_RATE_LIMIT_WINDOW_SECONDS
        ⟨s.shared, (s.limiters request.place)._WINDOWS⟩).1 = .ok none) ∧
      (s.respond settings proxies request).2.1
        = (_check settings request.first (keyOf scope client) (settings.ip_limit scope) request.now
          settings.AUTH_RATE_LIMIT_WINDOW_SECONDS
          ⟨s.shared, (s.limiters request.place)._WINDOWS⟩).2 := by
  obtain ⟨sent, hasked⟩ := attempts_iff.mp hown
  obtain ⟨message, heq⟩ := enforceAddress_eq scope client henabled hproxies request.first
    sent request.now ⟨s.shared, (s.limiters request.place)._WINDOWS⟩
  unfold respond
  dsimp only
  rw [hasked]
  dsimp only
  rw [heq]
  exact ⟨refusal_eq_ok_iff, rfl⟩

end Requests

/-! ## A run -/

section Runs

variable {ι : Type} [DecidableEq ι] {settings : Deployment} {proxies : List Address}
  {scope : String} {client : Address} {s s' : Fleet ι} {request : FleetRequest ι}
  {answer : Except Raised Unit} {stored : List ℚ} {kept : ι → List ℚ}

theorem step_eq_some_iff : step settings proxies s request = some s' ↔ s.clock ≤ request.now ∧
    s' = {
      shared := (s.respond settings proxies request).2.1.shared
      limiters := Function.update s.limiters request.place
        ⟨(s.respond settings proxies request).2.1.windows, (s.respond settings proxies request).2.2⟩
      clock := request.now
      done := s.done ++ [(request, (s.respond settings proxies request).1)] } := by
  unfold step
  split
  · rename_i hearly
    constructor
    · nofun
    · rintro ⟨hle, -⟩
      exact absurd hle (not_le.mpr hearly)
  · rename_i hlate
    rw [not_lt] at hlate
    constructor
    · rintro ⟨⟩
      exact ⟨hlate, rfl⟩
    · rintro ⟨-, rfl⟩
      rfl

omit [DecidableEq ι] in
variable (scope client) in
theorem attempted_append (hdone : s'.done = s.done ++ [(request, answer)]) :
    attempted scope client s' = attempted scope client s
      ++ if attempts scope client request then [request.now] else [] := by
  rw [attempted, hdone, List.filter_append, List.map_append, attempted, List.filter_singleton]
  cases attempts scope client request <;> rfl

omit [DecidableEq ι] in
variable (scope client) in
theorem admittedOf_append (hdone : s'.done = s.done ++ [(request, answer)]) :
    admittedOf scope client s' = admittedOf scope client s
      ++ if attempts scope client request && answer.toBool then [request.now] else [] := by
  rw [admittedOf, hdone, List.filter_append, List.map_append, admittedOf, List.filter_singleton]
  dsimp only
  cases attempts scope client request && answer.toBool <;> rfl

theorem outages_subset (hdone : s'.done = s.done ++ [(request, answer)]) :
    outages settings scope client s ⊆ outages settings scope client s' := by
  intro i hi
  rw [outages, List.mem_toFinset] at hi ⊢
  rw [hdone, List.filter_append, List.map_append]
  exact List.mem_append_left _ hi

/-- The instance of an attempt on which the store failed. -/
theorem place_mem_outages (hdone : s'.done = s.done ++ [(request, answer)])
    (hown : attempts scope client request = true) (hfailed : Failed settings request.first) :
    request.place ∈ outages settings scope client s' := by
  rw [outages, List.mem_toFinset, List.mem_map]
  refine ⟨(request, answer), List.mem_filter.mpr ⟨?_, ?_⟩, rfl⟩
  · rw [hdone]
    exact List.mem_append_right _ (List.mem_singleton_self _)
  · rcases hfailed with hoff | hcall
    · simp [hown, hoff]
    · simp [hown, hcall]

/-- The histories of a client: of the hits that the store has recorded, and of those that each
instance has. -/
structure Counted (settings : Deployment) (scope : String) (client : Address) (stored : List ℚ)
    (kept : ι → List ℚ) (s : Fleet ι) : Prop where
  clock : 0 ≤ s.clock
  past : ∀ hit ∈ attempted scope client s, hit ≤ s.clock
  store : KeepsSet settings.AUTH_RATE_LIMIT_WINDOW_SECONDS s.clock (s.shared (keyOf scope client))
    stored
  memory : ∀ i, Keeps (trueAges settings.AUTH_RATE_LIMIT_WINDOW_SECONDS) s.clock
    ((s.limiters i)._WINDOWS (keyOf scope client)) (kept i)
  stored_within : stored.Sublist (attempted scope client s)
  kept_within : ∀ i, (kept i).Sublist (attempted scope client s)
  stored_capped : Capped (trueAges settings.AUTH_RATE_LIMIT_WINDOW_SECONDS)
    (settings.ip_limit scope) stored
  kept_capped : ∀ i, Capped (trueAges settings.AUTH_RATE_LIMIT_WINDOW_SECONDS)
    (settings.ip_limit scope) (kept i)
  unused : settings.shared_store = false → stored = []
  counted : ∀ p : ℚ → Bool, (admittedOf scope client s).countP p
    ≤ stored.countP p + ∑ i ∈ outages settings scope client s, (kept i).countP p

theorem start_counted : Counted settings scope client [] (fun _ : ι => []) Fleet.start where
  clock := le_rfl
  past := fun _ h => absurd h List.not_mem_nil
  store := ⟨fun _ _ => keeps_nil, fun _ h => absurd h List.not_mem_nil⟩
  memory := fun _ => keeps_nil
  stored_within := List.Sublist.refl _
  kept_within := fun _ => List.Sublist.refl _
  stored_capped := capped_nil
  kept_capped := fun _ => capped_nil
  unused := fun _ => rfl
  counted := fun _ => Nat.zero_le _

/-- The histories after a request: they have got at most its hit. -/
theorem Counted.next {stored' kept' : List ℚ} (h : Counted settings scope client stored kept s)
    (hle : s.clock ≤ request.now) (hclock : s'.clock = request.now)
    (hdone : s'.done = s.done ++ [(request, answer)])
    (hlimiters : ∀ i, i ≠ request.place → s'.limiters i = s.limiters i)
    (hstore : KeepsSet settings.AUTH_RATE_LIMIT_WINDOW_SECONDS request.now
      (s'.shared (keyOf scope client)) stored')
    (hmemory : Keeps (trueAges settings.AUTH_RATE_LIMIT_WINDOW_SECONDS) request.now
      ((s'.limiters request.place)._WINDOWS (keyOf scope client)) kept')
    (hgrown : Grown (settings.ip_limit scope) settings.AUTH_RATE_LIMIT_WINDOW_SECONDS request.now
      stored stored')
    (hgrown' : Grown (settings.ip_limit scope) settings.AUTH_RATE_LIMIT_WINDOW_SECONDS request.now
      (kept request.place) kept')
    (hwithin : stored'.Sublist (attempted scope client s'))
    (hwithin' : kept'.Sublist (attempted scope client s'))
    (hunused : settings.shared_store = false → stored' = stored)
    (hcounted : ∀ p : ℚ → Bool, (admittedOf scope client s').countP p ≤ stored'.countP p
      + ∑ i ∈ outages settings scope client s',
          (Function.update kept request.place kept' i).countP p) :
    Counted settings scope client stored' (Function.update kept request.place kept') s' := by
  have hpast : ∀ hit ∈ attempted scope client s, hit ≤ request.now := fun hit hmem =>
    (h.past hit hmem).trans hle
  have hmore : (attempted scope client s).Sublist (attempted scope client s') := by
    rw [attempted_append scope client hdone]
    exact List.sublist_append_left _ _
  constructor
  · rw [hclock]
    exact h.clock.trans hle
  · intro hit hmem
    rw [attempted_append scope client hdone] at hmem
    rw [hclock]
    rcases List.mem_append.mp hmem with hmem | hmem
    · exact hpast hit hmem
    · split at hmem
      · exact (List.mem_singleton.mp hmem).le
      · exact absurd hmem List.not_mem_nil
  · rw [hclock]
    exact hstore
  · intro i
    rw [hclock]
    by_cases hi : i = request.place
    · subst hi
      rw [Function.update_self]
      exact hmemory
    · rw [Function.update_of_ne hi, hlimiters i hi]
      exact (h.memory i).later hle
  · exact hwithin
  · intro i
    by_cases hi : i = request.place
    · subst hi
      rw [Function.update_self]
      exact hwithin'
    · rw [Function.update_of_ne hi]
      exact (h.kept_within i).trans hmore
  · exact hgrown.capped (fun hit hmem => hpast hit (h.stored_within.subset hmem)) h.stored_capped
  · intro i
    by_cases hi : i = request.place
    · subst hi
      rw [Function.update_self]
      exact hgrown'.capped (fun hit hmem => hpast hit ((h.kept_within _).subset hmem))
        (h.kept_capped _)
    · rw [Function.update_of_ne hi]
      exact h.kept_capped i
  · intro hoff
    rw [hunused hoff, h.unused hoff]
  · exact hcounted

variable (settings scope client) in
/-- The hits that the instances have are no fewer after a request. -/
theorem sum_kept_le {kept' : List ℚ} (hdone : s'.done = s.done ++ [(request, answer)])
    (p : ℚ → Bool) (hgrown : (kept request.place).countP p ≤ kept'.countP p) :
    ∑ i ∈ outages settings scope client s, (kept i).countP p
      ≤ ∑ i ∈ outages settings scope client s',
          (Function.update kept request.place kept' i).countP p := by
  refine (Finset.sum_le_sum fun i _ => ?_).trans
    (Finset.sum_le_sum_of_subset (outages_subset hdone))
  by_cases hi : i = request.place
  · subst hi
    rw [Function.update_self]
    exact hgrown
  · rw [Function.update_of_ne hi]

variable (kept) in
/-- And they have the hit of a request that the memory of its instance admitted. -/
theorem sum_kept_admitted (hdone : s'.done = s.done ++ [(request, answer)]) (p : ℚ → Bool)
    (hplace : request.place ∈ outages settings scope client s') :
    ∑ i ∈ outages settings scope client s, (kept i).countP p + [request.now].countP p
      ≤ ∑ i ∈ outages settings scope client s',
          (Function.update kept request.place (kept request.place ++ [request.now]) i).countP p := by
  have hsplit : ∀ i, (Function.update kept request.place (kept request.place ++ [request.now])
      i).countP p = (kept i).countP p + if i = request.place then [request.now].countP p else 0 := by
    intro i
    by_cases hi : i = request.place
    · subst hi
      rw [Function.update_self, if_pos rfl, List.countP_append]
    · rw [Function.update_of_ne hi, if_neg hi, Nat.add_zero]
  rw [Finset.sum_congr rfl fun i _ => hsplit i, Finset.sum_add_distrib, Finset.sum_ite_eq',
    if_pos hplace]
  exact Nat.add_le_add_right (Finset.sum_le_sum_of_subset (outages_subset hdone)) _

/-- **A request keeps count.** -/
theorem Counted.step (henabled : settings.RATE_LIMIT_ENABLED = true)
    (hproxies : settings.TRUSTED_PROXY_COUNT = proxies.length)
    (hlimit : 1 ≤ settings.ip_limit scope) (h : Counted settings scope client stored kept s)
    (hstep : Fleet.step settings proxies s request = some s') :
    ∃ stored' kept', Counted settings scope client stored' kept' s' := by
  obtain ⟨hle, hs'⟩ := step_eq_some_iff.mp hstep
  have hdone : s'.done = s.done ++ [(request, (s.respond settings proxies request).1)] := by
    rw [hs']
  have hclock : s'.clock = request.now := by rw [hs']
  have hlimiters : ∀ i, i ≠ request.place → s'.limiters i = s.limiters i := fun i hi => by
    rw [hs']
    exact Function.update_of_ne hi _ _
  have hplace : (s'.limiters request.place)._WINDOWS
      = (s.respond settings proxies request).2.1.windows := by
    rw [hs']
    dsimp only
    rw [Function.update_self]
  have hshared : s'.shared = (s.respond settings proxies request).2.1.shared := by rw [hs']
  have hattempted := attempted_append scope client hdone
  have hadmitted := admittedOf_append scope client hdone
  have hmemory := (h.memory request.place).later hle
  have hstore := h.store.later hle
  rcases hown : attempts scope client request with _ | _
  · -- somebody else
    rw [hown, if_neg Bool.false_ne_true, List.append_nil] at hattempted
    rw [hown, Bool.false_and, if_neg Bool.false_ne_true, List.append_nil] at hadmitted
    have hframe := respond_other henabled hproxies hown hmemory
    refine ⟨stored, _, h.next hle hclock hdone hlimiters ?_ ?_ (.inl rfl) (.inl rfl)
      (hattempted ▸ h.stored_within) (hattempted ▸ h.kept_within request.place) (fun _ => rfl)
      fun p => ?_⟩
    · rw [hshared, hframe.1]
      exact hstore
    · rw [hplace]
      exact hframe.2
    · rw [hadmitted]
      exact (h.counted p).trans (Nat.add_le_add_left (sum_kept_le _ _ _ hdone p le_rfl) _)
  · -- the client
    rw [hown, if_pos rfl] at hattempted
    rw [hown, Bool.true_and] at hadmitted
    obtain ⟨hanswer, hleft⟩ := respond_own henabled hproxies (s := s) hown
    obtain ⟨stored', kept', hchecked, hset, hkept⟩ := check_spec settings request.first
      (s := ⟨s.shared, (s.limiters request.place)._WINDOWS⟩) hstore hmemory (h.clock.trans hle) hlimit
    rw [← hleft, ← hshared] at hset
    rw [← hleft, ← hplace] at hkept
    refine ⟨stored', _, h.next hle hclock hdone hlimiters hset hkept hchecked.shared hchecked.memory
      (hattempted ▸ hchecked.shared.within h.stored_within)
      (hattempted ▸ hchecked.memory.within (h.kept_within request.place)) hchecked.unused
      fun p => ?_⟩
    have hbefore := h.counted p
    rw [hadmitted, List.countP_append]
    split
    · -- it was admitted, by the store or by the memory
      rename_i hok
      have hnone := hanswer.mp (by
        rcases hanswered : (s.respond settings proxies request).1 with e | _
        · rw [hanswered] at hok
          cases hok
        · rfl)
      rcases hchecked.admitted hnone with ⟨hgrown, hsame⟩ | ⟨hgrown, hfailed⟩
      · have hsum := sum_kept_le settings scope client hdone p (hchecked.memory.countP_le p)
        rw [hgrown, List.countP_append]
        omega
      · have hsum := sum_kept_admitted kept hdone p
          (place_mem_outages hdone hown hfailed)
        have hstored := hchecked.shared.countP_le p
        rw [hgrown]
        omega
    · have hsum := sum_kept_le settings scope client hdone p (hchecked.memory.countP_le p)
      have hstored := hchecked.shared.countP_le p
      rw [List.countP_nil]
      omega

variable (client) in
theorem run_counted (henabled : settings.RATE_LIMIT_ENABLED = true)
    (hproxies : settings.TRUSTED_PROXY_COUNT = proxies.length)
    (hlimit : 1 ≤ settings.ip_limit scope) {requests : List (FleetRequest ι)}
    (hrun : run (Fleet.step settings proxies) Fleet.start requests = some s) :
    ∃ stored kept, Counted settings scope client stored kept s :=
  invariant_of_step (I := fun t => ∃ stored kept, Counted settings scope client stored kept t)
    (fun _ _ _ ⟨_, _, h⟩ hstep => h.step henabled hproxies hlimit hstep) ⟨_, _, start_counted⟩ hrun

/-- **The throttle holds.** In every run of requests to any number of instances, of any clients
and users, with any failures of the store: a client has at most the limit of the store and that
of each instance on which the store failed it, in any window and whatever it sent in the header;
and with fewer attempts of its own than the limit it is admitted, whatever the others did. -/
theorem throttle_holds (henabled : settings.RATE_LIMIT_ENABLED = true)
    (hproxies : settings.TRUSTED_PROXY_COUNT = proxies.length)
    (hlimit : 1 ≤ settings.ip_limit scope) {requests : List (FleetRequest ι)}
    (hrun : run (Fleet.step settings proxies) Fleet.start requests = some s) :
    Capped (Horizon.within settings.AUTH_RATE_LIMIT_WINDOW_SECONDS)
        (settings.ip_limit scope * ((if settings.shared_store then 1 else 0)
          + (outages settings scope client s).card)) (admittedOf scope client s) ∧
      ∀ request : FleetRequest ι, attempts scope client request = true → s.clock ≤ request.now →
        (recent (Horizon.within settings.AUTH_RATE_LIMIT_WINDOW_SECONDS) request.now
          (attempted scope client s)).length < settings.ip_limit scope →
        (s.respond settings proxies request).1 = .ok () := by
  obtain ⟨stored, kept, h⟩ := run_counted client henabled hproxies hlimit hrun
  refine ⟨fun t => ?_, fun request hown hle hfew => ?_⟩
  · have hcounted := h.counted fun hit =>
      decide (hit ≤ t) && decide (t - hit < settings.AUTH_RATE_LIMIT_WINDOW_SECONDS)
    have hkept : ∑ i ∈ outages settings scope client s, (kept i).countP (fun hit =>
          decide (hit ≤ t) && decide (t - hit < settings.AUTH_RATE_LIMIT_WINDOW_SECONDS))
        ≤ (outages settings scope client s).card * settings.ip_limit scope := by
      refine Finset.sum_le_card_nsmul _ _ _ fun i _ => ?_
      rw [List.countP_eq_length_filter]
      exact h.kept_capped i t
    have hstored : stored.countP (fun hit =>
          decide (hit ≤ t) && decide (t - hit < settings.AUTH_RATE_LIMIT_WINDOW_SECONDS))
        ≤ (if settings.shared_store then 1 else 0) * settings.ip_limit scope := by
      split
      · rw [Nat.one_mul, List.countP_eq_length_filter]
        exact h.stored_capped t
      · rename_i hoff
        rw [h.unused (Bool.not_eq_true _ ▸ hoff), Nat.zero_mul, List.countP_nil]
    rw [List.countP_eq_length_filter] at hcounted
    rw [Nat.mul_comm, Nat.add_mul]
    exact hcounted.trans (Nat.add_le_add hstored hkept)
  · obtain ⟨hanswer, -⟩ := respond_own henabled hproxies (s := s) hown
    obtain ⟨stored', kept', hchecked, -, -⟩ := check_spec settings request.first
      (s := ⟨s.shared, (s.limiters request.place)._WINDOWS⟩) (h.store.later hle)
      ((h.memory request.place).later hle) (h.clock.trans hle) hlimit
    refine hanswer.mpr ?_
    by_contra hno
    have hless : ∀ {times : List ℚ}, times.Sublist (attempted scope client s) →
        (recent (Horizon.within settings.AUTH_RATE_LIMIT_WINDOW_SECONDS) request.now times).length
          < settings.ip_limit scope := fun hwithin =>
      Nat.lt_of_le_of_lt (hwithin.filter _).length_le hfew
    rcases hchecked.refused hno with hfull | hfull
    · exact absurd (hless h.stored_within) (Nat.not_lt.mpr hfull)
    · exact absurd (hless (h.kept_within request.place)) (Nat.not_lt.mpr hfull)

/-- One attempt of an address in five minutes, behind one proxy. -/
def oneAttempt : Deployment where
  toSettings := smallLimits
  ip_limit _ := 1
  TRUSTED_PROXY_COUNT := 1
  shared_store := true

def gateAddress : Address :=
  ⟨['1', '0', '.', '0', '.', '0', '.', '1'], by decide, by simp [Python.isspace]⟩

def guesser : Address :=
  ⟨['9', '2', '.', '1', '.', '3', '.', '7'], by decide, by simp [Python.isspace]⟩

/-- Three attempts, each in another name; the store fails the second instance. -/
def threeNames : List (FleetRequest Bool) :=
  [⟨true, .attempt "auth:login" guesser "9.9.9.9".toList, 0, .answered, .answered⟩,
    ⟨true, .attempt "auth:login" guesser "8.8.8.8, 7.7.7.7".toList, 1, .answered, .answered⟩,
    ⟨false, .attempt "auth:login" guesser [], 2, .lost, .answered⟩]

theorem throttle_holds_threeNames :
    ∃ s, run (Fleet.step oneAttempt [gateAddress]) Fleet.start threeNames = some s ∧
      s.done.map (fun d => d.2.toBool) = [true, false, true] ∧
      Capped (Horizon.within 300) (1 * (1 + 1)) (admittedOf "auth:login" guesser s) := by
  have hruns : (run (Fleet.step oneAttempt [gateAddress]) Fleet.start threeNames).map
      (fun s => (s.done.map fun d => d.2.toBool,
        (outages oneAttempt "auth:login" guesser s).card)) = some ([true, false, true], 1) := by
    decide +kernel
  obtain ⟨s, hrun, hdone⟩ := Option.map_eq_some_iff.mp hruns
  rw [Prod.mk.injEq] at hdone
  have hcapped := (@throttle_holds Bool _ oneAttempt [gateAddress] "auth:login" guesser s rfl rfl
    (by decide) threeNames hrun).1
  rw [hdone.2] at hcapped
  exact ⟨s, hrun, hdone.1, hcapped⟩

end Runs

end Fleet

end PaCopilot.rate_limit
