/-
A TM1 connection, and what its credentials are sent to
(`tm1/client/connection_manager.py`).

`build_tm1_kwargs` makes what TM1py is given of a row, for each way to
authenticate, and TM1py makes a URL of that. `_refuse_private_destination` keeps
the credentials from a private address, by a reading of the address of its own.
`Destination.lean` compares the two.
-/
import PaCopilot.Errors
import PaCopilot.Tm1.Addressing

set_option autoImplicit false

namespace PaCopilot

/-! ## The row -/

inductive AuthenticationType
  | native
  | v12_saas
  | pa_cloud
  deriving DecidableEq

inductive Visibility
  | «private»
  | organization
  deriving DecidableEq

/-- A row of `tm1_connections`. `password` is what `decrypt_password` makes of the
encrypted column. -/
structure TM1Connection where
  id : ℕ
  organization_id : ℕ
  created_by : ℕ
  name : String
  address : String
  port : Int
  ssl : Bool
  username : String
  password : String
  authentication_type : AuthenticationType
  tenant : Option String
  database : Option String
  gateway_id : Option ℕ
  environment : String
  visibility : Visibility
  verify_ssl : Bool
  suspended_at : Option ℕ
  deriving DecidableEq

/-! ## `build_tm1_kwargs` -/

/-- The arguments of `TM1Service`; `none` for one that is not passed. -/
structure Tm1Kwargs where
  base_url : Option String := none
  address : Option String := none
  port : Option Int := none
  ssl : Bool
  user : String
  password : String
  «namespace» : Option String := none
  verify : Option Bool := none
  async_requests_mode : Option Bool := none
  pa_gateway : Option ℕ := none
  timeout : ℕ
  cancel_at_timeout : Bool := true
  deriving DecidableEq

/-- The namespace IBM assigns non-interactive accounts on PA on Cloud. -/
def PA_CLOUD_NAMESPACE : String := "LDAP"

/-- How Python writes a column that may be null into a text. -/
def formatted (x : Option String) : String := x.getD "None"

def build_tm1_kwargs (TM1_REQUEST_TIMEOUT_SECONDS : ℕ) (connection : TM1Connection)
    (password : String) : Tm1Kwargs :=
  let host := (parse_address connection.address).host
  match connection.authentication_type with
  | .v12_saas =>
    { base_url := some (s!"https://{host}/api/{formatted connection.tenant}"
        ++ s!"/v0/tm1/{formatted connection.database}/")
      user := "apikey"
      password := password
      ssl := true
      verify := some true
      timeout := TM1_REQUEST_TIMEOUT_SECONDS }
  | .pa_cloud =>
    { base_url := some s!"https://{host}/tm1/api/{formatted connection.database}/"
      user := connection.username
      password := password
      «namespace» := some PA_CLOUD_NAMESPACE
      ssl := true
      verify := some true
      async_requests_mode := some true
      timeout := TM1_REQUEST_TIMEOUT_SECONDS }
  | .native =>
    -- the address as it is stored, not its host
    { address := some connection.address
      port := some connection.port
      ssl := connection.ssl
      user := connection.username
      password := password
      verify := if connection.ssl then some connection.verify_ssl else none
      pa_gateway := connection.gateway_id
      timeout := TM1_REQUEST_TIMEOUT_SECONDS }

/-- The URL that TM1py sends the credentials to: the one it is given, or
`https://<address>:<port>`. -/
def Tm1Kwargs.url (kwargs : Tm1Kwargs) : String :=
  match kwargs.base_url with
  | some url => url
  | none =>
    (if kwargs.ssl then "https://" else "http://") ++ kwargs.address.getD ""
      ++ s!":{kwargs.port.getD 0}"

/-! ## `get_client` -/

/-- Name resolution: the addresses of a host, `none` for an `OSError`. -/
abbrev Getaddrinfo := String → Option (List String)

abbrev TM1ConnectionError (message : String) : AppException :=
  .definite ⟨.TM1ConnectionError, message⟩

abbrev TM1ConnectionSuspendedError (message : String) : AppException :=
  .definite ⟨.TM1ConnectionSuspendedError, message⟩

section Client

variable (TM1_ALLOW_PRIVATE_ADDRESSES : Bool) (TM1_REQUEST_TIMEOUT_SECONDS : ℕ)
  (getaddrinfo : Getaddrinfo) (TM1Service : Tm1Kwargs → Except AppException Unit)

/-- `_refuse_private_destination`. -/
def _refuse_private_destination (connection : TM1Connection) : Except AppException Unit :=
  if TM1_ALLOW_PRIVATE_ADDRESSES then .ok ()
  else if connection.gateway_id.isSome && connection.authentication_type = .native then .ok ()
  else do
    let host := (parse_address connection.address).host
    refuse (is_private_address host = true) (TM1ConnectionError PRIVATE_ADDRESS_REFUSED)
    match getaddrinfo host with
    -- TM1py reports it as unreachable
    | none => .ok ()
    | some infos =>
      refuse (∃ address ∈ infos, is_private_address address = true)
        (TM1ConnectionError PRIVATE_ADDRESS_REFUSED)

/-- `_connect`: what the new client was opened with. -/
def _connect (connection : TM1Connection) : Except AppException Tm1Kwargs := do
  _refuse_private_destination TM1_ALLOW_PRIVATE_ADDRESSES getaddrinfo connection
  let kwargs := build_tm1_kwargs TM1_REQUEST_TIMEOUT_SECONDS connection connection.password
  TM1Service kwargs
  return kwargs

/-- A client that `get_client` hands out. -/
inductive Client
  | cached (kwargs : Tm1Kwargs)
  | opened (kwargs : Tm1Kwargs)

/-- `get_client`, with the clients that are open already. -/
def get_client (clients : ℕ → Option Tm1Kwargs) (connection : TM1Connection) :
    Except AppException Client := do
  refuse (connection.suspended_at.isSome = true) (TM1ConnectionSuspendedError
    "This TM1 connection has been suspended by the platform administrator.")
  match clients connection.id with
  | some kwargs => return .cached kwargs
  | none =>
    let kwargs ← _connect TM1_ALLOW_PRIVATE_ADDRESSES TM1_REQUEST_TIMEOUT_SECONDS getaddrinfo
      TM1Service connection
    return .opened kwargs

end Client

end PaCopilot
