/-
The clients that `TM1ConnectionManager` keeps, while connections are edited next to it.

`get_client` reads the row it is given, waits for TM1 and then stores the client.
`update_connection` drops the stored client and only then flushes and commits. Between the
two ends of either wait other calls run. A client of the old settings that is stored after
the drop outlives the commit, and of two clients that are opened at once the second is
stored over the first, whose session nobody ends.
-/
import PaCopilot.Lib.Run
import PaCopilot.Reports.Execution
import PaCopilot.Tm1.Connections
import Mathlib.Logic.Function.Basic

set_option autoImplicit false

namespace PaCopilot.client_cache

open Run
open reports (column)
open connection_service (update_connection)

/-! ## The manager -/

/-- A client: its session of TM1, and what it was opened with. -/
structure TM1Session where
  number : ℕ
  kwargs : Tm1Kwargs
  deriving DecidableEq

/-- What the manager holds for one connection. Of the sessions, `stored` were in it at some
time, `leaving` were handed to `_logout_in_background`, and `expired` were ended by TM1. -/
structure Cache where
  client : Option TM1Session := none
  opened : ℕ := 0
  stored : List TM1Session := []
  leaving : List TM1Session := []
  expired : List TM1Session := []

/-- `invalidate`. -/
def Cache.invalidate (cache : Cache) : Cache :=
  { cache with client := none, leaving := cache.client.toList ++ cache.leaving }

/-- A new session. -/
def Cache.next (cache : Cache) (kwargs : Tm1Kwargs) : TM1Session := ⟨cache.opened, kwargs⟩

/-- `self._clients[connection.id] = client`, of a client that was just opened. -/
def Cache.store (cache : Cache) (kwargs : Tm1Kwargs) : Cache :=
  { cache with
    client := some (cache.next kwargs)
    opened := cache.opened + 1
    stored := cache.next kwargs :: cache.stored }

def Cache.expire (cache : Cache) (client : TM1Session) : Cache :=
  { cache with expired := client :: cache.expired }

/-! ## Calls -/

/-- How far a call of `get_client` has come. -/
inductive Stage
  | idle
  /-- It awaits `_connect`, of the row that it was called with. -/
  | connecting (connection : TM1Connection)
  /-- It returned the client that was there. -/
  | handed (connection : TM1Connection) (client : TM1Session)
  /-- It returned the client that it opened. -/
  | built (connection : TM1Connection) (client : TM1Session)
  | raised

/-- How far a call of `update_connection` has come. -/
inductive EditStage
  | idle
  | loaded (connection : TM1Connection)
  /-- The attributes of the row that it read are set, and the client is dropped. The flush and
  the commit are to come. -/
  | invalidated (request : ConnectionUpdate) (read next : TM1Connection)
  | committed
  | raised

/-- The row as it is committed, the manager, and the calls. `updated`: an update has
committed. -/
structure State (Id : Type) where
  row : TM1Connection
  updated : Bool := false
  cache : Cache := {}
  calls : Id → Stage := fun _ => .idle
  edits : Id → EditStage := fun _ => .idle

/-- What is reached outside: name resolution, and TM1. -/
structure World where
  getaddrinfo : Getaddrinfo
  TM1Service : Tm1Kwargs → Except AppException Unit

/-- What happens next: a call begins or goes on from its `await`, or TM1 ends a session. -/
inductive Event (Id : Type)
  | calls (i : Id) (connection : TM1Connection)
  | connects (i : Id) (world : World)
  | reads (j : Id)
  | sets (j : Id) (ctx : ConnectionContext) (caller : Caller) (request : ConnectionUpdate)
  | commits (j : Id)
  | aborts (j : Id)
  | expires (client : TM1Session)

/-- The row after the flush: the columns that changed. A password is encrypted anew, so it
always changes. -/
def flushed (request : ConnectionUpdate) (read next stored : TM1Connection) : TM1Connection :=
  { stored with
    name := column read.name next.name stored.name
    address := column read.address next.address stored.address
    port := column read.port next.port stored.port
    ssl := column read.ssl next.ssl stored.ssl
    username := column read.username next.username stored.username
    password := if truthy request.password.join then next.password else stored.password
    authentication_type :=
      column read.authentication_type next.authentication_type stored.authentication_type
    tenant := column read.tenant next.tenant stored.tenant
    database := column read.database next.database stored.database
    gateway_id := column read.gateway_id next.gateway_id stored.gateway_id
    environment := column read.environment next.environment stored.environment
    visibility := column read.visibility next.visibility stored.visibility
    verify_ssl := column read.verify_ssl next.verify_ssl stored.verify_ssl }

section Step

variable {Id : Type} [DecidableEq Id]
  (TM1_ALLOW_PRIVATE_ADDRESSES : Bool) (TM1_REQUEST_TIMEOUT_SECONDS : ℕ)

def State.call (σ : State Id) (i : Id) (stage : Stage) : State Id :=
  { σ with calls := Function.update σ.calls i stage }

def State.edit (σ : State Id) (j : Id) (stage : EditStage) : State Id :=
  { σ with edits := Function.update σ.edits j stage }

/-- `get_client`, as far as it goes without waiting. -/
def begin_get_client (σ : State Id) (i : Id) (connection : TM1Connection) : State Id :=
  if connection.suspended_at.isSome then
    { σ.call i .raised with cache := σ.cache.invalidate }
  else
    match σ.cache.client with
    | some client => σ.call i (.handed connection client)
    | none => σ.call i (.connecting connection)

/-- The rest of `get_client`, from `_connect` on. -/
def finish_get_client (σ : State Id) (i : Id) (connection : TM1Connection) (world : World) :
    State Id :=
  match _connect TM1_ALLOW_PRIVATE_ADDRESSES TM1_REQUEST_TIMEOUT_SECONDS world.getaddrinfo
      world.TM1Service connection with
  | .error _ => σ.call i .raised
  | .ok kwargs =>
    { σ.call i (.built connection (σ.cache.next kwargs)) with cache := σ.cache.store kwargs }

/-- One stretch of a call between two waits, if there is one to take. -/
def step (σ : State Id) : Event Id → Option (State Id)
  | .calls i connection =>
    match σ.calls i with
    | .idle => some (begin_get_client σ i connection)
    | _ => none
  | .connects i world =>
    match σ.calls i with
    | .connecting connection => some (finish_get_client TM1_ALLOW_PRIVATE_ADDRESSES
        TM1_REQUEST_TIMEOUT_SECONDS σ i connection world)
    | _ => none
  | .reads j =>
    match σ.edits j with
    | .idle => some (σ.edit j (.loaded σ.row))
    | _ => none
  -- the client is dropped before the commit, and a call in between may store another
  | .sets j ctx caller request =>
    match σ.edits j with
    | .loaded connection =>
      match update_connection ctx caller connection request with
      | .error _ => some (σ.edit j .raised)
      | .ok next => some
        { σ.edit j (.invalidated request connection next) with cache := σ.cache.invalidate }
    | _ => none
  | .commits j =>
    match σ.edits j with
    | .invalidated request read next => some
        { σ.edit j .committed with row := flushed request read next σ.row, updated := true }
    | _ => none
  | .aborts j =>
    match σ.edits j with
    | .invalidated _ _ _ => some (σ.edit j .raised)
    | _ => none
  | .expires client =>
    if client ∈ σ.cache.stored then some { σ with cache := σ.cache.expire client } else none

/-- No call was made yet. -/
def start (row : TM1Connection) : State Id := { row := row }

/-! ## What is asked -/

/-- What a client of these settings is opened with. -/
def settings (connection : TM1Connection) : Tm1Kwargs :=
  build_tm1_kwargs TM1_REQUEST_TIMEOUT_SECONDS connection connection.password

/-- The client that `get_client` returns without opening one. -/
def handed (σ : State Id) (connection : TM1Connection) : Option TM1Session :=
  if connection.suspended_at.isSome then none else σ.cache.client

/-- Whoever asks with the updated row is given a client of the updated settings, at once or
after the wait, and every session that is still open is held or was handed over to be ended. -/
structure Kept (σ : State Id) : Prop where
  handed : σ.updated = true → ∀ client, handed σ σ.row = some client →
    client.kwargs = settings TM1_REQUEST_TIMEOUT_SECONDS σ.row
  built : ∀ i connection client, σ.calls i = .built connection client →
    client.kwargs = settings TM1_REQUEST_TIMEOUT_SECONDS connection
  ended : ∀ client ∈ σ.cache.stored, client ∉ σ.cache.expired →
    σ.cache.client = some client ∨ client ∈ σ.cache.leaving

/-- Nothing came between. A client is stored where no open one is and, once an update has
committed, with the settings that are committed; an update commits while the manager holds
no client of other settings. -/
def InTurn (σ : State Id) : Event Id → Prop
  | .connects i world => ∀ connection kwargs, σ.calls i = .connecting connection →
      _connect TM1_ALLOW_PRIVATE_ADDRESSES TM1_REQUEST_TIMEOUT_SECONDS world.getaddrinfo
        world.TM1Service connection = .ok kwargs →
      (∀ client, σ.cache.client = some client → client ∈ σ.cache.expired) ∧
      (σ.updated = true → σ.row.suspended_at = none →
        settings TM1_REQUEST_TIMEOUT_SECONDS connection =
          settings TM1_REQUEST_TIMEOUT_SECONDS σ.row)
  | .commits j => ∀ request read next, σ.edits j = .invalidated request read next →
      ∀ client, σ.cache.client = some client → σ.row.suspended_at = none →
        client.kwargs = settings TM1_REQUEST_TIMEOUT_SECONDS (flushed request read next σ.row)
  | _ => True

end Step

/-! ## The manager by itself -/

/-- What is true of the manager after any calls. A session has a number of its own. -/
structure Sound (cache : Cache) : Prop where
  number : ∀ client ∈ cache.stored, client.number < cache.opened
  client : ∀ client, cache.client = some client → client ∈ cache.stored
  here : ∀ client, cache.client = some client → client ∉ cache.leaving
  leaving : ∀ client ∈ cache.leaving, client ∈ cache.stored

/-- Every open session is held or was handed over. -/
def Ended (cache : Cache) : Prop :=
  ∀ client ∈ cache.stored, client ∉ cache.expired →
    cache.client = some client ∨ client ∈ cache.leaving

section Manager

variable {cache : Cache}

theorem Sound.invalidate (h : Sound cache) : Sound cache.invalidate := by
  refine ⟨h.number, by simp [Cache.invalidate], by simp [Cache.invalidate], ?_⟩
  intro client hclient
  rcases List.mem_append.mp hclient with hclient | hclient
  · exact h.client client (Option.mem_toList.mp hclient)
  · exact h.leaving client hclient

theorem Ended.invalidate (h : Ended cache) : Ended cache.invalidate := by
  intro client hstored hexpired
  right
  rcases h client hstored hexpired with hheld | hleaving
  · exact List.mem_append_left _ (Option.mem_toList.mpr hheld)
  · exact List.mem_append_right _ hleaving

theorem Sound.fresh (h : Sound cache) (kwargs : Tm1Kwargs) : cache.next kwargs ∉ cache.stored :=
  fun hmem => absurd (h.number _ hmem) (Nat.lt_irrefl _)

theorem Sound.store (h : Sound cache) (kwargs : Tm1Kwargs) : Sound (cache.store kwargs) := by
  have hnew : ∀ client, (cache.store kwargs).client = some client → client = cache.next kwargs :=
    fun client hclient => (Option.some.inj hclient).symm
  refine ⟨?_, ?_, ?_, ?_⟩
  · intro client hclient
    rcases List.mem_cons.mp hclient with rfl | hclient
    · exact Nat.lt_succ_self _
    · exact Nat.lt_succ_of_lt (h.number client hclient)
  · intro client hclient
    rw [hnew client hclient]
    exact List.mem_cons_self ..
  · intro client hclient hleaving
    rw [hnew client hclient] at hleaving
    exact h.fresh kwargs (h.leaving _ hleaving)
  · exact fun client hclient => List.mem_cons_of_mem _ (h.leaving client hclient)

/-- A client that is stored drops nothing exactly when no open one was there. -/
theorem Ended.store_iff (h : Ended cache) (hs : Sound cache) (kwargs : Tm1Kwargs) :
    Ended (cache.store kwargs) ↔
      ∀ client, cache.client = some client → client ∈ cache.expired := by
  constructor
  · intro hended client hclient
    by_contra hexpired
    have hstored := hs.client client hclient
    rcases hended client (List.mem_cons_of_mem _ hstored) hexpired with hnew | hleaving
    · rw [← Option.some.inj hnew] at hstored
      exact hs.fresh kwargs hstored
    · exact hs.here client hclient hleaving
  · intro hfree client hstored hexpired
    rcases List.mem_cons.mp hstored with rfl | hstored
    · exact .inl rfl
    · rcases h client hstored hexpired with hheld | hleaving
      · exact absurd (hfree client hheld) hexpired
      · exact .inr hleaving

theorem Sound.expire (h : Sound cache) (client : TM1Session) : Sound (cache.expire client) :=
  ⟨h.number, h.client, h.here, h.leaving⟩

theorem Ended.expire (h : Ended cache) (client : TM1Session) : Ended (cache.expire client) :=
  fun other hstored hexpired =>
    h other hstored fun hother => hexpired (List.mem_cons_of_mem _ hother)

end Manager

/-! ## Stretches of calls -/

section Calls

variable {Id : Type} [DecidableEq Id] {allow : Bool} {timeout : ℕ} {σ σ' : State Id} {e : Event Id}
  {i : Id}

theorem _connect_ok {world : World} {connection : TM1Connection} {kwargs : Tm1Kwargs}
    (h : _connect allow timeout world.getaddrinfo world.TM1Service connection = .ok kwargs) :
    kwargs = settings timeout connection := by
  unfold _connect at h
  dsimp only at h
  obtain ⟨_, h⟩ := rest_of_bind h
  obtain ⟨_, h⟩ := rest_of_bind h
  exact (Except.ok.inj h).symm

@[simp] theorem call_self (σ : State Id) (i : Id) (stage : Stage) :
    (σ.call i stage).calls i = stage := Function.update_self ..

theorem call_of_ne (σ : State Id) {i j : Id} (stage : Stage) (h : j ≠ i) :
    (σ.call i stage).calls j = σ.calls j := Function.update_of_ne h ..

/-- The clients that calls have opened are of the settings that they were called with. -/
def Built (timeout : ℕ) (σ : State Id) : Prop :=
  ∀ i connection client, σ.calls i = .built connection client →
    client.kwargs = settings timeout connection

theorem Built.call (h : Built timeout σ) {stage : Stage}
    (hstage : ∀ connection client, stage = .built connection client →
      client.kwargs = settings timeout connection) : Built timeout (σ.call i stage) := by
  intro j connection client hj
  by_cases hji : j = i
  · rw [hji, call_self] at hj
    exact hstage connection client hj
  · rw [call_of_ne σ stage hji] at hj
    exact h j connection client hj

/-- What a call has returned. -/
def Stage.result : Stage → Option Client
  | .handed _ client => some (.cached client.kwargs)
  | .built _ client => some (.opened client.kwargs)
  | _ => none

/-- A call that no other call comes between. -/
def wholeCall (allow : Bool) (timeout : ℕ) (σ : State Id) (i : Id) (connection : TM1Connection)
    (world : World) : State Id :=
  match (begin_get_client σ i connection).calls i with
  | .connecting connection =>
    finish_get_client allow timeout (begin_get_client σ i connection) i connection world
  | _ => begin_get_client σ i connection

/-- **The two stretches, one after the other, are `get_client`.** -/
theorem wholeCall_result (σ : State Id) (i : Id) (connection : TM1Connection) (world : World) :
    ((wholeCall allow timeout σ i connection world).calls i).result =
      (get_client allow timeout world.getaddrinfo world.TM1Service
        (fun _ => σ.cache.client.map TM1Session.kwargs) connection).toOption := by
  unfold wholeCall begin_get_client get_client
  by_cases hsuspended : connection.suspended_at.isSome = true
  · rw [if_pos hsuspended, refuse, if_pos hsuspended]
    dsimp only
    rw [call_self]
    dsimp only
    rw [call_self]
    rfl
  · rw [if_neg hsuspended, refuse_of_not _ hsuspended]
    rcases hclient : σ.cache.client with _ | client
    · dsimp only
      rw [call_self]
      dsimp only
      -- no client yet: the call awaits the connection, and nothing comes between here
      unfold finish_get_client
      split
      · rename_i hconnect
        rw [call_self]
        change none = (_connect allow timeout world.getaddrinfo world.TM1Service connection
          >>= fun kwargs => pure (Client.opened kwargs)).toOption
        rw [hconnect]
        rfl
      · rename_i hconnect
        dsimp only
        rw [call_self]
        change _ = (_connect allow timeout world.getaddrinfo world.TM1Service connection
          >>= fun kwargs => pure (Client.opened kwargs)).toOption
        rw [hconnect]
        rfl
    · dsimp only
      rw [call_self]
      dsimp only
      rw [call_self]
      rfl

/-- A stretch does one thing to the manager and the row. -/
inductive Stretch (allow : Bool) (timeout : ℕ) (σ : State Id) : Event Id → State Id → Prop
  | waits (e : Event Id) (σ' : State Id) (row : σ'.row = σ.row) (updated : σ'.updated = σ.updated)
      (cache : σ'.cache = σ.cache) (built : Built timeout σ → Built timeout σ')
      (inTurn : InTurn allow timeout σ e) : Stretch allow timeout σ e σ'
  | drops (e : Event Id) (σ' : State Id) (row : σ'.row = σ.row) (updated : σ'.updated = σ.updated)
      (cache : σ'.cache = σ.cache.invalidate) (built : Built timeout σ → Built timeout σ')
      (inTurn : InTurn allow timeout σ e) : Stretch allow timeout σ e σ'
  | stores (i : Id) (world : World) (connection : TM1Connection)
      (at_ : σ.calls i = .connecting connection)
      (opened : _connect allow timeout world.getaddrinfo world.TM1Service connection
        = .ok (settings timeout connection)) :
      Stretch allow timeout σ (.connects i world)
        { σ.call i (.built connection (σ.cache.next (settings timeout connection))) with
          cache := σ.cache.store (settings timeout connection) }
  | commits (j : Id) (request : ConnectionUpdate) (read next : TM1Connection)
      (at_ : σ.edits j = .invalidated request read next) :
      Stretch allow timeout σ (.commits j)
        { σ.edit j .committed with row := flushed request read next σ.row, updated := true }
  | ends (client : TM1Session) : Stretch allow timeout σ (.expires client)
      { σ with cache := σ.cache.expire client }

theorem begin_stretch (connection : TM1Connection) :
    Stretch allow timeout σ (.calls i connection) (begin_get_client σ i connection) := by
  have hnew : ∀ stage : Stage, (∀ connection client, stage ≠ .built connection client) →
      Built timeout σ → Built timeout (σ.call i stage) := fun stage hstage h =>
    h.call fun connection client heq => absurd heq (hstage connection client)
  unfold begin_get_client
  split
  · exact .drops _ _ rfl rfl rfl (hnew .raised (by simp)) trivial
  · split
    · exact .waits _ _ rfl rfl rfl (hnew (.handed _ _) (by simp)) trivial
    · exact .waits _ _ rfl rfl rfl (hnew (.connecting _) (by simp)) trivial

theorem finish_stretch {world : World} {connection : TM1Connection}
    (hat : σ.calls i = .connecting connection) :
    Stretch allow timeout σ (.connects i world)
      (finish_get_client allow timeout σ i connection world) := by
  unfold finish_get_client
  split
  · rename_i raised hconnect
    refine .waits _ _ rfl rfl rfl (fun h => h.call (by simp)) ?_
    intro other kwargs hother hopened
    rw [hat, Stage.connecting.injEq] at hother
    rw [← hother, hconnect] at hopened
    cases hopened
  · rename_i kwargs hconnect
    have hkwargs := _connect_ok hconnect
    rw [hkwargs] at hconnect ⊢
    exact .stores i world connection hat hconnect

/-- **What a stretch of a call does.** -/
theorem step_stretch (h : step allow timeout σ e = some σ') : Stretch allow timeout σ e σ' := by
  cases e with
  | calls i connection =>
    simp only [step] at h
    split at h
    · rw [← Option.some.inj h]
      -- up to the first await
      exact begin_stretch connection
    · cases h
  | connects i world =>
    simp only [step] at h
    split at h
    · rename_i connection hat
      rw [← Option.some.inj h]
      -- and from there to the end
      exact finish_stretch hat
    · cases h
  | reads j =>
    simp only [step] at h
    split at h
    · rw [← Option.some.inj h]
      exact .waits _ _ rfl rfl rfl id trivial
    · cases h
  | sets j ctx caller request =>
    simp only [step] at h
    split at h
    · split at h
      · rw [← Option.some.inj h]
        exact .waits _ _ rfl rfl rfl id trivial
      · rw [← Option.some.inj h]
        exact .drops _ _ rfl rfl rfl id trivial
    · cases h
  | commits j =>
    simp only [step] at h
    split at h
    · rename_i request read next hat
      rw [← Option.some.inj h]
      exact .commits j request read next hat
    · cases h
  | aborts j =>
    simp only [step] at h
    split at h
    · rw [← Option.some.inj h]
      exact .waits _ _ rfl rfl rfl id trivial
    · cases h
  | expires client =>
    simp only [step] at h
    split at h
    · rw [← Option.some.inj h]
      exact .ends client
    · cases h

theorem Sound.step (hs : Sound σ.cache) (h : step allow timeout σ e = some σ') :
    Sound σ'.cache := by
  cases step_stretch h with
  | waits e σ' row updated cache built inTurn => exact cache ▸ hs
  | drops e σ' row updated cache built inTurn => exact cache ▸ hs.invalidate
  | stores i world connection at_ opened => exact hs.store _
  | commits j request read next at_ => exact hs
  | ends client => exact hs.expire client

omit [DecidableEq Id] in
/-- The client that is handed out is the one that is held. -/
theorem handed_eq_some_iff {connection : TM1Connection} {client : TM1Session} :
    handed σ connection = some client ↔
      connection.suspended_at = none ∧ σ.cache.client = some client := by
  unfold handed
  cases connection.suspended_at <;> simp

/-- **A stretch keeps what is asked exactly when nothing came between.** -/
theorem Kept.step_iff (hk : Kept timeout σ) (hs : Sound σ.cache)
    (h : step allow timeout σ e = some σ') : Kept timeout σ' ↔ InTurn allow timeout σ e := by
  cases step_stretch h with
  | waits e σ' row updated cache built inTurn =>
    refine iff_of_true ⟨?_, built hk.built, cache ▸ hk.ended⟩ inTurn
    intro hupdated client hclient
    rw [handed_eq_some_iff, row, cache, ← handed_eq_some_iff] at hclient
    rw [row]
    exact hk.handed (updated ▸ hupdated) client hclient
  | drops e σ' row updated cache built inTurn =>
    refine iff_of_true ⟨?_, built hk.built, cache ▸ Ended.invalidate hk.ended⟩ inTurn
    intro _ client hclient
    rw [handed_eq_some_iff, cache] at hclient
    cases hclient.2
  | stores i world connection at_ opened =>
    -- the connection that was read before the await is the one that is stored for
    have hnew : ∀ other kwargs, σ.calls i = .connecting other →
        _connect allow timeout world.getaddrinfo world.TM1Service other = .ok kwargs →
        other = connection := by
      intro other kwargs hother _
      rw [at_] at hother
      exact (Stage.connecting.inj hother).symm
    constructor
    · intro hk' other kwargs hother hopened
      rw [hnew other kwargs hother hopened]
      refine ⟨(Ended.store_iff hk.ended hs _).mp hk'.ended, fun hupdated hsuspended => ?_⟩
      exact hk'.handed hupdated _ (handed_eq_some_iff.mpr ⟨hsuspended, rfl⟩)
    · intro hturn
      obtain ⟨hfree, hsettings⟩ := hturn connection _ at_ opened
      refine ⟨?_, ?_, (Ended.store_iff hk.ended hs _).mpr hfree⟩
      · intro hupdated client hclient
        obtain ⟨hsuspended, hclient⟩ := handed_eq_some_iff.mp hclient
        rw [← Option.some.inj hclient]
        exact hsettings hupdated hsuspended
      · refine Built.call hk.built fun other client hbuilt => ?_
        obtain ⟨rfl, rfl⟩ := Stage.built.inj hbuilt
        rfl
  | commits j request read next at_ =>
    constructor
    -- a client that is handed out after the commit is one of the cache before it
    · intro hk' request' read' next' hat' client hclient hsuspended
      rw [at_] at hat'
      obtain ⟨rfl, rfl, rfl⟩ := EditStage.invalidated.inj hat'
      exact hk'.handed rfl client (handed_eq_some_iff.mpr ⟨hsuspended, hclient⟩)
    · intro hturn
      refine ⟨fun _ client hclient => ?_, hk.built, hk.ended⟩
      obtain ⟨hsuspended, hclient⟩ := handed_eq_some_iff.mp hclient
      exact hturn request read next at_ client hclient hsuspended
  | ends client =>
    refine iff_of_true ⟨hk.handed, hk.built, Ended.expire hk.ended client⟩ trivial

/-- A stretch that cannot be taken comes between nothing. -/
theorem inTurn_of_none (h : step allow timeout σ e = none) : InTurn allow timeout σ e := by
  cases e with
  | connects i world =>
    intro connection kwargs hat _
    simp [step, hat] at h
  | commits j =>
    intro request read next hat
    simp [step, hat] at h
  | _ => trivial

/-- **Updated settings are used, and no session is lost, exactly while nothing comes between.** -/
theorem kept_iff (allow : Bool) (timeout : ℕ) (row : TM1Connection) (events : List (Event Id)) :
    Along (step allow timeout) (fun σ e => ∀ σ', step allow timeout σ e = some σ' → Kept timeout σ')
        (start row) events ↔
      Along (step allow timeout) (InTurn allow timeout) (start row) events := by
  refine along_reached_iff (I := fun σ => Sound σ.cache) ?_ ?_ ?_ ?_
  · exact fun σ e σ' hs hstep => hs.step hstep
  · intro σ e hs hk
    rcases hstep : step allow timeout σ e with _ | σ'
    · exact iff_of_true (by simp) (inTurn_of_none hstep)
    · rw [← hk.step_iff hs hstep]
      simp
  · exact ⟨by simp [start], by simp [start], by simp [start], by simp [start]⟩
  · exact ⟨by simp [start], by simp [start], by simp [start]⟩

end Calls

/-! ### Stores that come between -/

/-- A connection of a company's own server. -/
def planning : TM1Connection where
  id := 1
  organization_id := 1
  created_by := 7
  name := "Planning"
  address := "tm1.example.com"
  port := 8010
  ssl := true
  username := "admin"
  password := "apple"
  authentication_type := .native
  tenant := none
  database := none
  gateway_id := none
  environment := "dev"
  visibility := .private
  verify_ssl := true
  suspended_at := none

def office : ConnectionContext where
  TM1_ALLOW_PRIVATE_ADDRESSES := true
  db := {
    users := []
    roles := []
    permissions := []
    role_permissions := []
    user_roles := []
    users_id := by decide
    roles_id := by decide
    permissions_id := by decide
    permissions_code := by decide
    uq_role_permission := by decide
    uq_user_role := by decide }
  gateways := []

/-- TM1 answers. -/
def answering : World := ⟨fun _ => none, fun _ => .ok ()⟩

/-- The first call reads the row and waits for TM1 while the port is changed. -/
def acrossTheUpdate : List (Event ℕ) :=
  [.calls 0 planning, .reads 0, .sets 0 office ⟨7, 1⟩ { port := some (some 8020) }, .commits 0,
    .connects 0 answering]

/-- Two calls wait for TM1 at once. -/
def atOnce : List (Event ℕ) :=
  [.calls 0 planning, .calls 1 planning, .connects 0 answering, .connects 1 answering]

/-- The client of the first of them. -/
def firstOpened : TM1Session := ⟨0, settings 60 planning⟩

/-- A client of the old port is handed out with the new row, and a session is left open. -/
theorem old_client_handed_out :
    (∃ σ, run (step true 60) (start planning) acrossTheUpdate = some σ ∧ σ.updated = true ∧
      σ.row.port = 8020 ∧ (handed σ σ.row).map (fun client => client.kwargs.port) = some (some 8010) ∧
      ¬ Kept 60 σ) ∧
    (∃ σ, run (step true 60) (start planning) atOnce = some σ ∧
      firstOpened ∈ σ.cache.stored ∧ firstOpened ∉ σ.cache.expired ∧
      σ.cache.client ≠ some firstOpened ∧ firstOpened ∉ σ.cache.leaving ∧ ¬ Kept 60 σ) := by
  constructor
  · refine ⟨_, rfl, rfl, rfl, rfl, fun hkept => ?_⟩
    have hport := congrArg Tm1Kwargs.port (hkept.handed rfl _ rfl)
    revert hport
    decide
  · refine ⟨_, rfl, List.mem_cons_of_mem _ (List.mem_cons_self ..), by decide, by decide,
      by decide, fun hkept => ?_⟩
    have hended := hkept.ended firstOpened (List.mem_cons_of_mem _ (List.mem_cons_self ..)) (by decide)
    revert hended
    decide

end PaCopilot.client_cache
