/-
`tm1/addressing.py`: what the text in the address field of a connection stands for.

`parse_address` finds the host in what a user pasted, and, in the REST URL of a
Planning Analytics service, the tenant and the database too. `is_private_address`
says whether a text is the literal of an address that is not a public one. A text
that is no literal, such as a host with a port, is not private to it.

Lower case is that of the letters of ASCII. The comparisons made here are with
texts of such letters, and no other letter has one of them for its lower case but
the Kelvin sign, whose `k` none of them has.
-/
import PaCopilot.Python
import PaCopilot.Lib.IPAddress

set_option autoImplicit false

namespace PaCopilot

open Python

/-! ## Texts -/

namespace Python

/-- `s.split("://", 1)[1]`, where there is such a part. -/
def afterScheme : List Char → Option (List Char)
  | ':' :: '/' :: '/' :: rest => some rest
  | _ :: rest => afterScheme rest
  | [] => none

/-- `s.lower()`, of the letters of ASCII. -/
def lower (s : List Char) : List Char := s.map Char.toLower

/-- `s.strip(chars)`. -/
def stripChars (chars s : List Char) : List Char :=
  ((s.dropWhile (· ∈ chars)).reverse.dropWhile (· ∈ chars)).reverse

end Python

/-! ## `parse_address` -/

structure ParsedAddress where
  host : String
  tenant : Option String := none
  database : Option String := none
  deriving DecidableEq

/-- The parts of a path, without the empty ones. -/
def pathSegments (path : List Char) : List String :=
  ((path.splitOn '/').filter fun segment => segment ≠ []).map String.ofList

def parse_address (raw : String) : ParsedAddress :=
  let text := strip raw.toList
  let value := (afterScheme text).getD text
  let host := String.ofList (value.takeWhile (· ≠ '/'))
  let segments := pathSegments ((value.dropWhile (· ≠ '/')).drop 1)
  match segments with
  | "api" :: tenant :: "v0" :: "tm1" :: database :: _ => ⟨host, some tenant, some database⟩
  | "tm1" :: "api" :: database :: _ => ⟨host, none, some database⟩
  | _ => ⟨host, none, none⟩

def SAAS_HOST_SUFFIX : String := ".planninganalytics.saas.ibm.com"

def is_saas_host (address : String) : Bool :=
  SAAS_HOST_SUFFIX.toList <:+ lower (parse_address address).host.toList

/-! ## `is_private_address` -/

/-- The text that `is_private_address` reads as a literal. -/
def literalText (host : String) : List Char := lower (stripChars ['[', ']'] (strip host.toList))

def is_private_address (host : String) : Bool :=
  literalText host = "localhost".toList ||
    match Ipaddress.ip_address (literalText host) with
    | none => false
    | some ip => !Ipaddress.is_global ip || Ipaddress.is_multicast ip

def PRIVATE_ADDRESS_REFUSED : String :=
  "This address points at a local or private network, which this "
    ++ "deployment does not reach. Enter the public hostname of your TM1 "
    ++ "server. For a self-hosted deployment whose TM1 is on the same "
    ++ "network, the administrator can set TM1_ALLOW_PRIVATE_ADDRESSES."

def SAAS_NEEDS_SAAS_TYPE : String :=
  "This is an IBM Planning Analytics as a Service address. Choose the "
    ++ "'Planning Analytics as a Service' connection type and enter your "
    ++ "tenant ID and database name with your API key — SaaS does not accept "
    ++ "a port or a native TM1 login."

/-- What is pasted from the browser bar. -/
example : parse_address " https://eu-central-1.planninganalytics.saas.ibm.com/api/ABC123/v0/tm1/Finance/ "
    = ⟨"eu-central-1.planninganalytics.saas.ibm.com", some "ABC123", some "Finance"⟩ := by
  decide

example : is_private_address "[::1]" = true ∧ is_private_address "LOCALHOST" = true ∧
    is_private_address "8.8.8.8" = false ∧ is_private_address "tm1.example.com" = false := by
  decide

end PaCopilot
