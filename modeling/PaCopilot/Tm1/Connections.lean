/-
Adding and editing TM1 connections: the routes of `api/v1/tm1.py` over
`tm1/service.py`.

An edit names the fields it was sent. A field that was sent as null is not the same
as one that was not sent: the route compares both with what is stored, the service
changes only what is not null, except for the gateway.
-/
import PaCopilot.Tm1.Governance

set_option autoImplicit false

namespace PaCopilot

/-! ## The requests -/

/-- The labels a request may name. -/
inductive Environment
  | dev
  | qa
  | prod
  deriving DecidableEq

def Environment.value : Environment → String
  | .dev => "dev"
  | .qa => "qa"
  | .prod => "prod"

/-- The body of POST. -/
structure ConnectionCreate where
  name : String
  address : String
  port : Int := 443
  ssl : Bool := true
  username : String := "apikey"
  password : String
  authentication_type : AuthenticationType := .native
  tenant : Option String := none
  database : Option String := none
  gateway_id : Option ℕ := none
  environment : Environment := .dev
  visibility : Visibility := .private
  verify_ssl : Bool := true

/-- A field of PATCH: not sent, or sent as null or with a value. -/
abbrev Given (α : Type) := Option (Option α)

/-- The body of PATCH. -/
structure ConnectionUpdate where
  name : Given String := none
  address : Given String := none
  port : Given Int := none
  ssl : Given Bool := none
  username : Given String := none
  password : Given String := none
  authentication_type : Given AuthenticationType := none
  tenant : Given String := none
  database : Given String := none
  gateway_id : Given ℕ := none
  environment : Given Environment := none
  visibility : Given Visibility := none
  verify_ssl : Given Bool := none

/-- `x or y`. -/
def orElse (x y : Option String) : Option String :=
  match x with
  | none | some "" => y
  | some s => some s

/-- Neither null nor empty. -/
def truthy (x : Option String) : Bool := x.any (· ≠ "")

/-- The user of a request, and what is stored beside the connections. -/
structure Caller where
  id : ℕ
  organization_id : ℕ

structure Tm1Gateway where
  id : ℕ
  organization_id : ℕ

structure ConnectionContext where
  TM1_ALLOW_PRIVATE_ADDRESSES : Bool
  db : AuthDb
  gateways : List Tm1Gateway

/-! ## The service -/

namespace connection_service

inductive Purpose
  | use
  | manage
  deriving DecidableEq

/-- `may_access`. No user is the system: a scheduled job. -/
def may_access (db : AuthDb) (user : Option ℕ) (connection : TM1Connection) (purpose : Purpose) :
    Except AppException Bool :=
  match user with
  | none => .ok true
  | some user =>
    if connection.visibility = .organization ∨ connection.created_by = user then .ok true
    else if purpose = .manage then
      auth_repository.user_has_permission db user "tm1.connections.manage_all"
    else .ok false

def get_connection (db : AuthDb) (user : Option ℕ) (connections : List TM1Connection)
    (connection_id organization_id : ℕ) (purpose : Purpose) :
    Except AppException TM1Connection :=
  match connections.find? fun c => c.id = connection_id with
  | none => .error (NotFoundException "TM1 connection not found.")
  | some connection => do
    refuse (connection.organization_id ≠ organization_id)
      (NotFoundException "TM1 connection not found.")
    let allowed ← may_access db user connection purpose
    refuse (allowed = false) (NotFoundException "TM1 connection not found.")
    return connection

section Checks

variable (ctx : ConnectionContext)

def _check_address_reachable_by_policy (address : String) : Except AppException Unit :=
  refuse (ctx.TM1_ALLOW_PRIVATE_ADDRESSES = false ∧ is_private_address address = true)
    (ValidationException PRIVATE_ADDRESS_REFUSED)

def _check_pa_cloud (auth_type : AuthenticationType) (database username : Option String) :
    Except AppException Unit :=
  if auth_type ≠ .pa_cloud then .ok ()
  else do
    refuse (Python.strip (database.getD "").toList = []) (ValidationException
      ("A Planning Analytics on Cloud connection needs the database: "
        ++ "the TM1 server name shown in Planning Analytics Workspace."))
    refuse (Python.strip (username.getD "").toList = [] ∨ username = some "apikey")
      (ValidationException
        ("A Planning Analytics on Cloud connection needs the "
          ++ "non-interactive account name IBM issued."))

def _check_gateway (gateway_id organization_id : ℕ) (authentication_type : AuthenticationType) :
    Except AppException Unit := do
  refuse (authentication_type ≠ .native) (ValidationException
    ("Only a Native (on-premises) connection can go through a "
      ++ "gateway; Planning Analytics in IBM's cloud is reached directly."))
  refuse (¬ ∃ gateway ∈ ctx.gateways,
      gateway.id = gateway_id ∧ gateway.organization_id = organization_id)
    (NotFoundException "Gateway not found.")

/-- The SaaS type, and what it needs. -/
def checkSaas (address : String) (auth_type : AuthenticationType) (tenant database : Option String) :
    Except AppException Unit := do
  refuse (is_saas_host address = true ∧ auth_type ≠ .v12_saas) (ValidationException SAAS_NEEDS_SAAS_TYPE)
  refuse (auth_type = .v12_saas ∧ ¬ (truthy tenant = true ∧ truthy database = true))
    (ValidationException "v12_saas connections require both 'tenant' and 'database'.")

/-- `create_connection`. -/
def create_connection (id : ℕ) (caller : Caller) (request : ConnectionCreate) :
    Except AppException TM1Connection := do
  let parsed := parse_address request.address
  let address := parsed.host
  let tenant := orElse request.tenant parsed.tenant
  let database := orElse request.database parsed.database
  refuse (address = "") (ValidationException "Address is required.")
  (match request.gateway_id with
    | some gateway_id =>
      _check_gateway ctx gateway_id caller.organization_id request.authentication_type
    | none => _check_address_reachable_by_policy ctx address)
  checkSaas address request.authentication_type tenant database
  _check_pa_cloud request.authentication_type database (some request.username)
  return {
    id := id
    organization_id := caller.organization_id
    created_by := caller.id
    name := request.name
    address := address
    port := request.port
    ssl := request.ssl
    username := request.username
    password := request.password
    authentication_type := request.authentication_type
    tenant := tenant
    database := database
    gateway_id := request.gateway_id
    environment := request.environment.value
    visibility := request.visibility
    verify_ssl := request.verify_ssl
    suspended_at := none }

/-- The address of an edit, with the tenant and the database that it carries. -/
structure Placed where
  address : Option String
  tenant : Option String
  database : Option String

/-- The first part of `update_connection`: an address is stored as its host, and a REST
URL fills in what the request leaves empty. -/
def placed (request : ConnectionUpdate) : Placed :=
  match request.address.join with
  | none => ⟨none, request.tenant.join, request.database.join⟩
  | some address =>
    let parsed := parse_address address
    ⟨some parsed.host, orElse request.tenant.join parsed.tenant,
      orElse request.database.join parsed.database⟩

/-- What an edit writes to the row. -/
def edited (request : ConnectionUpdate) (connection : TM1Connection) : TM1Connection :=
  let place := placed request
  { connection with
    name := request.name.join.getD connection.name
    address := place.address.getD connection.address
    port := request.port.join.getD connection.port
    ssl := request.ssl.join.getD connection.ssl
    username := request.username.join.getD connection.username
    password := if truthy request.password.join then request.password.join.getD ""
      else connection.password
    authentication_type := request.authentication_type.join.getD connection.authentication_type
    tenant := place.tenant.or connection.tenant
    database := place.database.or connection.database
    environment := (request.environment.join.map Environment.value).getD connection.environment
    visibility := request.visibility.join.getD connection.visibility
    verify_ssl := request.verify_ssl.join.getD connection.verify_ssl
    gateway_id := request.gateway_id.getD connection.gateway_id }

/-- `update_connection`, of the connection it found. -/
def update_connection (caller : Caller) (connection : TM1Connection) (request : ConnectionUpdate) :
    Except AppException TM1Connection := do
  let next_gateway := request.gateway_id.getD connection.gateway_id
  let place := placed request
  let next := edited request connection
  refuse (place.address = some "") (ValidationException "Address is required.")
  (if place.address.isSome ∧ next_gateway = none then
    _check_address_reachable_by_policy ctx next.address
  else .ok ())
  (if (place.address.isSome ∨ request.authentication_type.join.isSome
      ∨ request.gateway_id.isSome) ∧ (next_gateway = none ∨ next.authentication_type ≠ .native) then
    _check_address_reachable_by_policy ctx next.address
  else .ok ())
  checkSaas next.address next.authentication_type next.tenant next.database
  _check_pa_cloud next.authentication_type next.database (some next.username)
  (match request.gateway_id with
    | none => .ok ()
    -- off the gateway, the address has to be reachable directly
    | some none => _check_address_reachable_by_policy ctx next.address
    | some (some gateway_id) =>
      _check_gateway ctx gateway_id caller.organization_id next.authentication_type)
  return next

end Checks

end connection_service

/-! ## The routes -/

section Routes

variable (ctx : ConnectionContext) (caller : Caller)

/-- `require_any_permission`. -/
def require_any_permission (db : AuthDb) (user_id : ℕ) (codes : List String) :
    Except AppException Unit :=
  go codes
where
  go : List String → Except AppException Unit
    | [] => .error (PermissionDeniedException ("Missing permission: " ++ codes.headD ""))
    | code :: rest => do
      let has_permission ← auth_repository.user_has_permission db user_id code
      if has_permission then .ok () else go rest

/-- `_MANAGE_CONNECTIONS`. -/
def _MANAGE_CONNECTIONS : List String := ["tm1.write", "tm1.connections.own"]

def _check_owns (connection : TM1Connection) : Except AppException Unit :=
  if connection.created_by = caller.id then .ok ()
  else do
    let writes ← auth_repository.user_has_permission ctx.db caller.id "tm1.write"
    refuse (writes = false) (PermissionDeniedException
      ("You can change only the connections you added. Ask an organization admin for "
        ++ "this one."))

def _check_own_scope (environment : Option String) (visibility : Option Visibility)
    (gateway_id : Option ℕ) : Except AppException Unit := do
  let writes ← auth_repository.user_has_permission ctx.db caller.id "tm1.write"
  (if writes then .ok ()
  else do
    refuse (environment ≠ none ∧ environment ≠ some "dev") (PermissionDeniedException
      "Your own connections are DEV connections. An organization admin labels QA and PROD.")
    refuse (visibility ≠ none ∧ visibility ≠ some .private) (PermissionDeniedException
      ("Your own connections are private to you. An organization admin can share a "
        ++ "connection."))
    refuse (gateway_id ≠ none) (PermissionDeniedException
      "Connecting through the organization's gateway needs an organization admin."))

/-- `create_connection` of the API. -/
def create_connection_route (id : ℕ) (request : ConnectionCreate) :
    Except AppException TM1Connection := do
  require_any_permission ctx.db caller.id _MANAGE_CONNECTIONS
  _check_own_scope ctx caller (some request.environment.value) (some request.visibility)
    request.gateway_id
  connection_service.create_connection ctx id caller request

/-- A field that was sent and differs from what is stored. -/
def differs {α : Type} [DecidableEq α] (sent : Given α) (stored : Option α) : Bool :=
  match sent with
  | none => false
  | some value => value ≠ stored

/-- The address as it is compared: `https://host:8010` and `host` are one server. -/
def comparedAddress (sent : Given String) : Given String :=
  match sent with
  | some (some address) =>
    if address = "" then sent else some (some (parse_address address).host)
  | other => other

/-- The endpoint fields that a request changes, and the certificate check when it
turns that off. -/
def moved (request : ConnectionUpdate) (existing : TM1Connection) : List String :=
  ([("address", differs (comparedAddress request.address) (some existing.address)),
    ("port", differs request.port (some existing.port)),
    ("ssl", differs request.ssl (some existing.ssl)),
    ("authentication_type", differs request.authentication_type
      (some existing.authentication_type)),
    ("tenant", differs request.tenant existing.tenant),
    ("database", differs request.database existing.database),
    ("gateway_id", differs request.gateway_id existing.gateway_id),
    ("certificate checking", request.verify_ssl = some (some false) && existing.verify_ssl)].filter
      Prod.snd).map Prod.fst

/-- The visibility is changed by whom it belongs to. -/
def checkVisibility (request : ConnectionUpdate) (existing : TM1Connection) :
    Except AppException Unit :=
  match request.visibility.join with
  | none => .ok ()
  | some visibility =>
    if visibility = existing.visibility ∨ existing.created_by = caller.id then .ok ()
    else do
      let manages ← auth_repository.user_has_permission ctx.db caller.id
        "tm1.connections.manage_all"
      refuse (manages = false) (PermissionDeniedException
        ("Only the connection's owner or an organization admin can change who sees it."))
      refuse (existing.visibility = .private)
        (PermissionDeniedException "Only its owner can share a private connection.")

/-- `update_connection` of the API, of the row it leaves. -/
def update_connection_route (connections : List TM1Connection) (connection_id : ℕ)
    (request : ConnectionUpdate) : Except AppException TM1Connection := do
  require_any_permission ctx.db caller.id _MANAGE_CONNECTIONS
  let existing ←
    connection_service.get_connection ctx.db (some caller.id) connections connection_id
      caller.organization_id .manage
  _check_owns ctx caller existing
  let environment := governance.environment_of existing
  -- as it is, and as it would be
  _check_own_scope ctx caller (some environment) (some existing.visibility) existing.gateway_id
  _check_own_scope ctx caller (request.environment.join.map Environment.value)
    request.visibility.join request.gateway_id.join
  checkVisibility ctx caller request existing
  (match request.environment.join with
    | none => .ok ()
    | some requested =>
      governance.check_environment_change ctx.db caller.id environment requested.value)
  -- a saved password goes to no endpoint but the one it was saved for
  let moved := moved request existing
  refuse (moved ≠ [] ∧ truthy request.password.join = false) (ValidationException
    ("Re-enter the password (or API key) when changing the server's "
      ++ ", ".intercalate moved ++ ": saved credentials are never sent to a new endpoint."))
  (if environment ≠ "dev"
      ∧ (moved ≠ [] ∨ truthy request.password.join = true ∨ request.username.isSome) then do
    let permission ← governance.deployPermission environment
    let deploys ← auth_repository.user_has_permission ctx.db caller.id permission
    refuse (deploys = false) (PermissionDeniedException
      (s!"Changing a {governance.upper environment} connection's server or credentials needs "
        ++ s!"the '{permission}' permission."))
  else .ok ())
  -- the service reads it once more
  let existing ←
    connection_service.get_connection ctx.db (some caller.id) connections connection_id
      caller.organization_id .manage
  connection_service.update_connection ctx caller existing request

end Routes

/-! ## What the service and the routes leave -/

section Left

variable {ctx : ConnectionContext} {caller : Caller} {connections : List TM1Connection}
  {id connection_id : ℕ} {existing connection next : TM1Connection}

/-- The connection that was found is the one of the identifier. -/
theorem connection_service.get_connection_find {db : AuthDb} {user : Option ℕ}
    {organization_id : ℕ} {purpose : connection_service.Purpose}
    (h : connection_service.get_connection db user connections connection_id organization_id
      purpose = .ok connection) :
    (connections.find? fun c => c.id = connection_id) = some connection := by
  unfold connection_service.get_connection at h
  rcases hfind : connections.find? fun c => c.id = connection_id with _ | found
  · rw [hfind] at h
    cases h
  · rw [hfind] at h
    dsimp only at h
    obtain ⟨_, h⟩ := rest_of_bind h
    obtain ⟨allowed, h⟩ := rest_of_bind h
    obtain ⟨_, h⟩ := rest_of_bind h
    cases h
    exact hfind

theorem connection_service.get_connection_ok {db : AuthDb} {user : Option ℕ}
    {organization_id : ℕ} {purpose : connection_service.Purpose}
    (h : connection_service.get_connection db user connections connection_id organization_id
      purpose = .ok connection) :
    connection ∈ connections ∧ connection.id = connection_id := by
  have hfind := connection_service.get_connection_find h
  have hid := List.find?_some hfind
  exact ⟨List.mem_of_find?_eq_some hfind, of_decide_eq_true hid⟩

theorem connection_service.update_connection_ok {request : ConnectionUpdate}
    (h : connection_service.update_connection ctx caller connection request = .ok next) :
    next = connection_service.edited request connection := by
  unfold connection_service.update_connection at h
  dsimp only at h
  obtain ⟨_, h⟩ := rest_of_bind h
  obtain ⟨_, h⟩ := rest_of_bind h
  obtain ⟨_, h⟩ := rest_of_bind h
  obtain ⟨_, h⟩ := rest_of_bind h
  obtain ⟨_, h⟩ := rest_of_bind h
  obtain ⟨_, h⟩ := rest_of_bind h
  exact (Except.ok.inj h).symm

/-- An edit that was accepted: it wrote what the request says to the connection, a
field of the endpoint that the request changes came with a password, and a label that
it changes was checked. -/
theorem update_connection_route_ok {request : ConnectionUpdate}
    (h : update_connection_route ctx caller connections connection_id request = .ok next) :
    ∃ existing,
      connection_service.get_connection ctx.db (some caller.id) connections connection_id
      caller.organization_id .manage
        = .ok existing ∧
      next = connection_service.edited request existing ∧
      (truthy request.password.join = false → moved request existing = []) ∧
      ∀ requested, request.environment.join = some requested →
        governance.check_environment_change ctx.db caller.id
          (governance.environment_of existing) requested.value = .ok () := by
  unfold update_connection_route at h
  obtain ⟨_, h⟩ := rest_of_bind h
  rw [bind_eq_ok_iff] at h
  obtain ⟨existing, hfound, h⟩ := h
  obtain ⟨_, h⟩ := rest_of_bind h
  dsimp only at h
  obtain ⟨_, h⟩ := rest_of_bind h
  obtain ⟨_, h⟩ := rest_of_bind h
  obtain ⟨_, h⟩ := rest_of_bind h
  rw [bind_eq_ok_iff] at h
  obtain ⟨_, hlabel, h⟩ := h
  obtain ⟨hpassword, h⟩ := passed_of_bind h
  obtain ⟨_, h⟩ := rest_of_bind h
  rw [bind_eq_ok_iff] at h
  -- the service reads the connection a second time, and finds the same
  obtain ⟨again, hagain, h⟩ := h
  rw [hfound] at hagain
  cases hagain
  refine ⟨existing, hfound, connection_service.update_connection_ok h, ?_, ?_⟩
  · intro hnone
    by_contra hmoved
    exact hpassword ⟨hmoved, hnone⟩
  · intro requested hrequested
    rw [hrequested] at hlabel
    exact hlabel

end Left

end PaCopilot
