/-
Where the saved credentials of a connection are sent, before and after an edit.

The route compares the fields of a request with the ones that are stored, and asks
for the password again when one of the endpoint differs. It compares the fields that
the request names. The service writes more than these: a REST URL in the address
field also says a tenant and a database, and what it says is stored where the
request leaves the field empty ([`endpoint_kept_iff`]).
-/
import PaCopilot.Tm1.Connections

set_option autoImplicit false

namespace PaCopilot

/-! ## The endpoint of a connection -/

/-- What decides where credentials go. -/
structure Endpoint where
  authentication_type : AuthenticationType
  host : String
  port : Option Int := none
  ssl : Bool := true
  tenant : Option String := none
  database : Option String := none
  gateway_id : Option ℕ := none
  deriving DecidableEq

/-- The endpoint that `build_tm1_kwargs` derives from a row. -/
def endpoint (connection : TM1Connection) : Endpoint :=
  let host := (parse_address connection.address).host
  match connection.authentication_type with
  | .v12_saas =>
    { authentication_type := .v12_saas
      host := host
      tenant := some (formatted connection.tenant)
      database := some (formatted connection.database) }
  | .pa_cloud =>
    { authentication_type := .pa_cloud
      host := host
      database := some (formatted connection.database) }
  -- the address as it was entered: it is taken apart for the cloud types alone
  | .native =>
    { authentication_type := .native
      host := connection.address
      port := some connection.port
      ssl := connection.ssl
      gateway_id := connection.gateway_id }

/-- The arguments that name an endpoint, with the credentials that are sent to it. -/
def Endpoint.kwargs (endpoint : Endpoint) (timeout : ℕ) (username password : String)
    (verify_ssl : Bool) : Tm1Kwargs :=
  match endpoint.authentication_type with
  | .v12_saas =>
    { base_url := some (s!"https://{endpoint.host}/api/{endpoint.tenant.getD default}"
        ++ s!"/v0/tm1/{endpoint.database.getD default}/")
      user := "apikey"
      password := password
      ssl := endpoint.ssl
      verify := some true
      timeout := timeout }
  | .pa_cloud =>
    { base_url := some s!"https://{endpoint.host}/tm1/api/{endpoint.database.getD default}/"
      user := username
      password := password
      «namespace» := some PA_CLOUD_NAMESPACE
      ssl := endpoint.ssl
      verify := some true
      async_requests_mode := some true
      timeout := timeout }
  | .native =>
    { address := some endpoint.host
      port := endpoint.port
      ssl := endpoint.ssl
      user := username
      password := password
      verify := if endpoint.ssl then some verify_ssl else none
      pa_gateway := endpoint.gateway_id
      timeout := timeout }

/-! ## What an edit without a password leaves -/

section Differs

variable {α : Type} [DecidableEq α]

theorem of_differs {sent : Given α} {stored : Option α} (h : differs sent stored = false) :
    sent = none ∨ sent = some stored := by
  cases sent with
  | none => exact .inl rfl
  | some value => exact .inr (congrArg some (of_not_not (of_decide_eq_false h)))

theorem kept {sent : Given α} {stored : α} (h : differs sent (some stored) = false) :
    sent.join.getD stored = stored := by
  rcases of_differs h with rfl | rfl <;> rfl

theorem kept_or {sent : Given α} {stored : Option α} (h : differs sent stored = false) :
    sent.join.or stored = stored := by
  rcases of_differs h with rfl | rfl
  · rfl
  · show stored.or stored = stored
    exact Option.or_self

/-- A text that is named as it is stored, and what a REST URL would fill in. -/
theorem kept_carried {sent : Given String} {stored : Option String}
    (h : differs sent stored = false) (carried : Option String) :
    (orElse sent.join carried).or stored
      = if truthy sent.join = true then stored else carried.or stored := by
  rcases of_differs h with rfl | rfl
  · rfl
  · show (orElse stored carried).or stored = if truthy stored = true then stored else _
    rcases stored with _ | text
    · rfl
    · by_cases hempty : text = ""
      · rw [hempty]
        rfl
      · have htruthy : truthy (some text) = true := decide_eq_true hempty
        have hor : orElse (some text) carried = some text := by
          unfold orElse
          split
          · rename_i heq
            cases heq
          · rename_i heq
            exact absurd (Option.some.inj heq) hempty
          · rename_i heq
            exact heq.symm
        rw [if_pos htruthy, hor]
        rfl

end Differs

section Kept

variable {ctx : ConnectionContext} {caller : Caller} {connections : List TM1Connection}
  {connection_id : ℕ} {request : ConnectionUpdate} {existing next : TM1Connection}

/-- A request that changes no endpoint field it names. -/
structure Unmoved (request : ConnectionUpdate) (existing : TM1Connection) : Prop where
  address : differs (comparedAddress request.address) (some existing.address) = false
  port : differs request.port (some existing.port) = false
  ssl : differs request.ssl (some existing.ssl) = false
  authentication_type :
    differs request.authentication_type (some existing.authentication_type) = false
  tenant : differs request.tenant existing.tenant = false
  database : differs request.database existing.database = false
  gateway_id : differs request.gateway_id existing.gateway_id = false

theorem unmoved_of_moved (h : moved request existing = []) : Unmoved request existing := by
  rw [moved, List.map_eq_nil_iff, List.filter_eq_nil_iff] at h
  simp only [List.forall_mem_cons, Bool.not_eq_true] at h
  obtain ⟨haddress, hport, hssl, htype, htenant, hdatabase, hgateway, -⟩ := h
  exact ⟨haddress, hport, hssl, htype, htenant, hdatabase, hgateway⟩

/-- The address of such a request is the stored one. -/
theorem Unmoved.host (h : Unmoved request existing) {text : String}
    (htext : request.address.join = some text) : (parse_address text).host = existing.address := by
  have hsent : request.address = some (some text) := by
    rcases hrequest : request.address with _ | _ | sent
    · rw [hrequest] at htext
      cases htext
    · rw [hrequest] at htext
      cases htext
    · rw [hrequest] at htext
      rw [show sent = text from Option.some.inj htext]
  have hsame := of_differs h.address
  rw [hsent, comparedAddress] at hsame
  by_cases hempty : text = ""
  · rw [if_pos hempty] at hsame
    rcases hsame with hsame | hsame
    · cases hsame
    · rw [← Option.some.inj (Option.some.inj hsame), hempty]
      decide
  · rw [if_neg hempty] at hsame
    rcases hsame with hsame | hsame
    · cases hsame
    · exact Option.some.inj (Option.some.inj hsame)

/-- What the address of a request says of a field that the request leaves empty. -/
def carried (request : ConnectionUpdate) (part : ParsedAddress → Option String)
    (sent : Given String) : Option String :=
  if truthy sent.join then none
  else request.address.join.bind fun text => part (parse_address text)

theorem Unmoved.edited_address (h : Unmoved request existing) :
    (connection_service.edited request existing).address = existing.address := by
  rcases htext : request.address.join with _ | text
  · simp only [connection_service.edited, connection_service.placed, htext, Option.getD_none]
  · simp only [connection_service.edited, connection_service.placed, htext, Option.getD_some]
    exact h.host htext

theorem Unmoved.edited_tenant (h : Unmoved request existing) :
    (connection_service.edited request existing).tenant
      = (carried request ParsedAddress.tenant request.tenant).or existing.tenant := by
  rcases htext : request.address.join with _ | text
  · simp only [connection_service.edited, connection_service.placed, carried, htext,
      Option.bind_none, ite_self, Option.none_or]
    exact kept_or h.tenant
  · simp only [connection_service.edited, connection_service.placed, carried, htext,
      Option.bind_some]
    rw [kept_carried h.tenant]
    split <;> rfl

theorem Unmoved.edited_database (h : Unmoved request existing) :
    (connection_service.edited request existing).database
      = (carried request ParsedAddress.database request.database).or existing.database := by
  rcases htext : request.address.join with _ | text
  · simp only [connection_service.edited, connection_service.placed, carried, htext,
      Option.bind_none, ite_self, Option.none_or]
    exact kept_or h.database
  · simp only [connection_service.edited, connection_service.placed, carried, htext,
      Option.bind_some]
    rw [kept_carried h.database]
    split <;> rfl

theorem Unmoved.edited_gateway (h : Unmoved request existing) :
    (connection_service.edited request existing).gateway_id = existing.gateway_id := by
  show request.gateway_id.getD existing.gateway_id = existing.gateway_id
  rcases of_differs h.gateway_id with hsent | hsent <;> rw [hsent] <;> rfl

/-- A REST URL in the request says of the tenant and of the database what the endpoint
has already. -/
structure NamesStored (request : ConnectionUpdate) (existing : TM1Connection) : Prop where
  /-- only the SaaS type has a tenant -/
  tenant : existing.authentication_type = .v12_saas →
    ∀ tenant ∈ carried request ParsedAddress.tenant request.tenant,
      tenant = formatted existing.tenant
  /-- and a native server no database -/
  database : existing.authentication_type ≠ .native →
    ∀ database ∈ carried request ParsedAddress.database request.database,
      database = formatted existing.database

theorem formatted_or {new stored : Option String} :
    formatted (new.or stored) = formatted stored ↔ ∀ text ∈ new, text = formatted stored := by
  rcases new with _ | text
  · exact ⟨fun _ _ h => (nomatch h), fun _ => rfl⟩
  · constructor
    · intro h other hother
      rw [← Option.some.inj hother, ← h]
      rfl
    · intro h
      exact h text rfl

/-- A request that names no new endpoint keeps the endpoint exactly when its address
names none either. -/
theorem Unmoved.endpoint_iff (h : Unmoved request existing) :
    endpoint (connection_service.edited request existing) = endpoint existing ↔
      NamesStored request existing := by
  have htype : (connection_service.edited request existing).authentication_type
      = existing.authentication_type := kept h.authentication_type
  have hport : (connection_service.edited request existing).port = existing.port := kept h.port
  have hssl : (connection_service.edited request existing).ssl = existing.ssl := kept h.ssl
  unfold endpoint
  rw [htype, h.edited_address, h.edited_tenant, h.edited_database, h.edited_gateway, hport, hssl]
  rcases hauth : existing.authentication_type
  · exact ⟨fun _ => ⟨fun hsaas => absurd (hauth.symm.trans hsaas) (by decide),
      fun hcloud => absurd hauth hcloud⟩, fun _ => rfl⟩
  · simp only [Endpoint.mk.injEq, Option.some.injEq, formatted_or, true_and, and_true]
    exact ⟨fun hsame => ⟨fun _ => hsame.1, fun _ => hsame.2⟩,
      fun hnames => ⟨hnames.tenant hauth, hnames.database (by rw [hauth]; decide)⟩⟩
  · simp only [Endpoint.mk.injEq, Option.some.injEq, formatted_or, true_and, and_true]
    exact ⟨fun hsame => ⟨fun hsaas => absurd (hauth.symm.trans hsaas) (by decide),
        fun _ => hsame⟩,
      fun hnames => hnames.database (by rw [hauth]; decide)⟩

/-- **When saved credentials stay at their endpoint.** An edit that is accepted and
changes the endpoint carries a password, exactly when it carries one anyway or its
address names no other tenant or database than the stored ones. -/
theorem endpoint_kept_iff
    (h : update_connection_route ctx caller connections connection_id request = .ok next) :
    ∃ existing,
      connection_service.get_connection ctx.db (some caller.id) connections connection_id
        caller.organization_id .manage = .ok existing ∧
      ((endpoint next ≠ endpoint existing → truthy request.password.join = true) ↔
        truthy request.password.join = true ∨ NamesStored request existing) := by
  obtain ⟨existing, hfound, rfl, hpassword, -⟩ := update_connection_route_ok h
  refine ⟨existing, hfound, ?_⟩
  by_cases hgiven : truthy request.password.join = true
  · exact ⟨fun _ => .inl hgiven, fun _ _ => hgiven⟩
  · rw [Bool.not_eq_true] at hgiven
    have hunmoved := unmoved_of_moved (hpassword hgiven)
    rw [hgiven, ← hunmoved.endpoint_iff]
    constructor
    · intro hkept
      by_contra hmoved
      rw [not_or] at hmoved
      exact Bool.false_ne_true (hkept hmoved.2)
    · rintro (hfalse | hsame) hmoved
      · exact absurd hfalse Bool.false_ne_true
      · exact absurd hsame hmoved

end Kept

/-! ## The REST URL of another database -/

/-- An administrator who may edit connections. -/
def manager : AuthDb where
  users := [⟨7, 1, .approved⟩]
  roles := [⟨1, none, "Admin", true⟩]
  permissions := [⟨1, "tm1.write"⟩]
  role_permissions := [⟨1, 1⟩]
  user_roles := [⟨7, 1⟩]
  users_id := twoRoles.users_id
  roles_id := by decide
  permissions_id := by decide
  permissions_code := by decide
  uq_role_permission := by decide
  uq_user_role := twoRoles.uq_user_role

def saasConnection : TM1Connection where
  id := 1
  organization_id := 1
  created_by := 7
  name := "Finance"
  address := "eu.planninganalytics.saas.ibm.com"
  port := 443
  ssl := true
  username := "apikey"
  password := "secret"
  authentication_type := .v12_saas
  tenant := some "ABC123"
  database := some "Finance"
  gateway_id := none
  environment := "dev"
  visibility := .private
  verify_ssl := true
  suspended_at := none

/-- **A key that is sent to another tenant.** The address of the edit is the REST URL of
a database of another tenant at the same host; no password comes with it. -/
theorem tenant_moved :
    ∃ next,
      update_connection_route ⟨false, manager, []⟩ ⟨7, 1⟩ [saasConnection] 1
        { address :=
            some (some "https://eu.planninganalytics.saas.ibm.com/api/XYZ789/v0/tm1/Payroll/") }
        = .ok next ∧
      endpoint next ≠ endpoint saasConnection ∧ next.password = saasConnection.password ∧
      next.tenant = some "XYZ789" ∧ next.database = some "Payroll" :=
  ⟨_, rfl, by decide, rfl, rfl, rfl⟩

/-- `endpoint_kept_iff` of an edit that sends the stored host and no password. -/
theorem host_kept :
    ∃ next existing,
      connection_service.get_connection manager (some 7) [saasConnection] 1 1 .manage
        = .ok existing ∧
      ((endpoint next ≠ endpoint existing → truthy none = true) ↔
        truthy none = true ∨ NamesStored
          { address := some (some "eu.planninganalytics.saas.ibm.com") } existing) := by
  have haccepted : update_connection_route ⟨false, manager, []⟩ ⟨7, 1⟩ [saasConnection] 1
      { address := some (some "eu.planninganalytics.saas.ibm.com") }
      = .ok (connection_service.edited
          { address := some (some "eu.planninganalytics.saas.ibm.com") } saasConnection) := rfl
  exact ⟨_, endpoint_kept_iff haccepted⟩

end PaCopilot
