/-
Where the credentials of a connection go.

The guard of `get_client` classifies and resolves the host that `parse_address`
finds in the address. The credentials go where the URL points, which is taken to be the
host that it names as a text, and a URL is read by other rules: what stands before an `@` is the user, what follows a
colon the port, what follows a `?` or a `#` no part of the authority. A text with
one of these is no literal and no host name, so the guard lets it pass; the host
inside it may be any ([`no_private_destination_iff`]).
-/
import PaCopilot.Tm1.Connection

set_option autoImplicit false

namespace PaCopilot

open Python

/-! ## The host of a URL -/

/-- The authority of a URL: what follows the scheme, without path, query and
fragment. -/
def authority (url : List Char) : List Char :=
  ((afterScheme url).getD url).takeWhile fun c => c ≠ '/' ∧ c ≠ '?' ∧ c ≠ '#'

/-- The host of an authority: without the user information before its last `@`, and
without the port after a colon or after the bracket of an IPv6 address. -/
def hostOfAuthority (authority : List Char) : List Char :=
  let info := (authority.reverse.takeWhile (· ≠ '@')).reverse
  if '[' ∈ info then ((info.dropWhile (· ≠ '[')).drop 1).takeWhile (· ≠ ']')
  else info.takeWhile (· ≠ ':')

/-- The host a URL names. -/
def urlHost (url : String) : String := String.ofList (hostOfAuthority (authority url.toList))

/-- The host that the URL of a connection names, as a text: its authority without user information
and port. How an HTTP client reads a text that is no proper URL is not said here. -/
def destination (connection : TM1Connection) : String :=
  urlHost (build_tm1_kwargs 0 connection connection.password).url

/-- The host that the guard looks at. -/
def guardedHost (connection : TM1Connection) : String := (parse_address connection.address).host

/-! ## Private destinations -/

/-- The host is the literal of a private, loopback or link-local address. -/
def PrivateLiteral (host : String) : Bool :=
  ((Ipaddress.ip_address (literalText host)).map Ipaddress.is_private).getD false

/-- The text is an address literal. -/
def isLiteral (host : String) : Bool := (Ipaddress.ip_address host.toList).isSome

/-- A host name: letters, digits, hyphens, dots and underscores, or letters beyond
ASCII. -/
def HostName (host : String) : Prop :=
  host ≠ "" ∧ ∀ c ∈ host.toList, c.isAlphanum ∨ c = '-' ∨ c = '.' ∨ c = '_' ∨ 128 ≤ c.toNat

instance (host : String) : Decidable (HostName host) := inferInstanceAs (Decidable (_ ∧ _))

/-- What is known of name resolution: a text that is no host name and no literal does
not resolve, and a literal resolves to the address that it is. -/
structure Resolves (getaddrinfo : Getaddrinfo) : Prop where
  fails : ∀ host, ¬ HostName host → isLiteral host = false → getaddrinfo host = none
  literal : ∀ host infos, isLiteral host = true → getaddrinfo host = some infos →
    ∀ address ∈ infos, PrivateLiteral address = PrivateLiteral host

/-- The host is no private literal, and resolved to none. -/
def Public (getaddrinfo : Getaddrinfo) (host : String) : Prop :=
  PrivateLiteral host = false ∧
    ∀ infos, getaddrinfo host = some infos → ∀ address ∈ infos, PrivateLiteral address = false

section

variable {host : String}

/-- The guard knows every private literal. -/
theorem privateLiteral_of_not_private (h : is_private_address host = false) :
    PrivateLiteral host = false := by
  rw [is_private_address, Bool.or_eq_false_iff] at h
  rw [PrivateLiteral]
  rcases hip : Ipaddress.ip_address (literalText host) with _ | ip
  · rfl
  · have hglobal := h.2
    rw [hip] at hglobal
    dsimp only at hglobal
    rw [Bool.or_eq_false_iff, Bool.not_eq_false'] at hglobal
    rw [Option.map_some, Option.getD_some]
    cases ip with
    | v4 n =>
      have hboth := hglobal.1
      rw [Ipaddress.is_global, Bool.and_eq_true, Bool.not_eq_true'] at hboth
      simpa [Ipaddress.is_private] using hboth.2
    | v6 n =>
      have hprivate := hglobal.1
      rw [Ipaddress.is_global, Bool.not_eq_true'] at hprivate
      exact hprivate

end

/-! ## The guard -/

section Guard

variable {getaddrinfo : Getaddrinfo} {TM1Service : Tm1Kwargs → Except AppException Unit}
  {timeout : ℕ} {clients : ℕ → Option Tm1Kwargs} {connection : TM1Connection}

/-- A direct connection. -/
theorem refuse_private_destination_ok (hgateway : connection.gateway_id = none) :
    _refuse_private_destination false getaddrinfo connection = .ok () ↔
      is_private_address (guardedHost connection) = false ∧
        ∀ infos, getaddrinfo (guardedHost connection) = some infos →
          ∀ address ∈ infos, is_private_address address = false := by
  unfold _refuse_private_destination
  rw [hgateway, if_neg Bool.false_ne_true, if_neg (by simp)]
  dsimp only
  rw [bind_eq_ok_iff]
  constructor
  · rintro ⟨_, hhost, hinfos⟩
    rw [refuse_eq_ok_iff, Bool.not_eq_true] at hhost
    refine ⟨hhost, fun infos hresolved address haddress => ?_⟩
    rw [guardedHost] at hresolved
    rw [hresolved] at hinfos
    dsimp only at hinfos
    rw [refuse_eq_ok_iff] at hinfos
    rw [← Bool.not_eq_true]
    exact fun hprivate => hinfos ⟨address, haddress, hprivate⟩
  · rintro ⟨hhost, hinfos⟩
    refine ⟨(), ?_, ?_⟩
    · rw [refuse_eq_ok_iff, Bool.not_eq_true]
      exact hhost
    · rcases hresolved : getaddrinfo (parse_address connection.address).host with _ | infos
      · rfl
      · dsimp only
        rw [refuse_eq_ok_iff]
        rintro ⟨address, haddress, hprivate⟩
        rw [hinfos infos hresolved address haddress] at hprivate
        cases hprivate

/-- A client is opened when nothing stands against it. -/
theorem get_client_opened (kwargs : Tm1Kwargs) :
    get_client false timeout getaddrinfo TM1Service clients connection = .ok (.opened kwargs) ↔
      connection.suspended_at = none ∧ clients connection.id = none ∧
        _refuse_private_destination false getaddrinfo connection = .ok () ∧
        kwargs = build_tm1_kwargs timeout connection connection.password ∧
        TM1Service kwargs = .ok () := by
  unfold get_client
  rw [bind_eq_ok_iff]
  constructor
  · rintro ⟨_, hsuspended, h⟩
    rw [refuse_eq_ok_iff, Bool.not_eq_true, Option.isSome_eq_false_iff,
      Option.isNone_iff_eq_none] at hsuspended
    -- a client that is cached is handed out, and nothing is opened
    rcases hcached : clients connection.id with _ | cached
    · rw [hcached] at h
      dsimp only at h
      rw [bind_eq_ok_iff] at h
      obtain ⟨opened, hconnect, h⟩ := h
      cases h
      rw [_connect, bind_eq_ok_iff] at hconnect
      obtain ⟨_, hguard, hconnect⟩ := hconnect
      dsimp only at hconnect
      rw [bind_eq_ok_iff] at hconnect
      obtain ⟨_, hservice, hconnect⟩ := hconnect
      cases hconnect
      exact ⟨hsuspended, rfl, hguard, rfl, hservice⟩
    · rw [hcached] at h
      cases h
  · rintro ⟨hsuspended, hcached, hguard, rfl, hservice⟩
    refine ⟨(), ?_, ?_⟩
    · rw [hsuspended]
      rfl
    · rw [hcached]
      dsimp only
      rw [_connect, hguard]
      show ((TM1Service _ >>= fun _ => _) >>= fun _ => _) = _
      rw [hservice]
      rfl

end Guard

/-! ## The guard and the URL -/

theorem url_timeout (timeout : ℕ) (connection : TM1Connection) (password : String) :
    (build_tm1_kwargs timeout connection password).url
      = (build_tm1_kwargs 0 connection password).url := by
  unfold build_tm1_kwargs
  cases connection.authentication_type <;> rfl

/-- The address of a connection is one that the guard reads as the URL does, or reads
to no harm. -/
structure Guarded (connection : TM1Connection) : Prop where
  /-- the guard refuses the text it reads, or reads the host that the URL names, or
  that host is a public literal, or is no host at all -/
  agrees : is_private_address (guardedHost connection) = true ∨
    destination connection = guardedHost connection ∨
    (PrivateLiteral (destination connection) = false ∧
      (HostName (destination connection) → isLiteral (destination connection) = true))

instance (connection : TM1Connection) : Decidable (Guarded connection) :=
  decidable_of_iff (_ ∨ _ ∨ _) ⟨fun h => ⟨h⟩, fun h => h.agrees⟩

/-- Name resolution in which one host is the loopback address, and nothing else
resolves but the literals. -/
def rebinding (target : String) : Getaddrinfo := fun host =>
  if isLiteral host then some [host]
  else if host = target ∧ HostName host then some ["127.0.0.1"]
  else none

theorem rebinding_resolves (target : String) : Resolves (rebinding target) where
  fails := by
    intro host hname hliteral
    rw [rebinding, if_neg (by rw [hliteral]; exact Bool.false_ne_true), if_neg fun h => hname h.2]
  literal := by
    intro host infos hliteral hresolved address haddress
    rw [rebinding, if_pos hliteral, Option.some.injEq] at hresolved
    rw [← hresolved, List.mem_singleton] at haddress
    rw [haddress]

/-- A guarded address leads to a public destination. -/
theorem Guarded.public {connection : TM1Connection} (h : Guarded connection)
    (hgateway : connection.gateway_id = none) {getaddrinfo : Getaddrinfo}
    (hresolves : Resolves getaddrinfo)
    (hguard : _refuse_private_destination false getaddrinfo connection = .ok ()) :
    Public getaddrinfo (destination connection) := by
  obtain ⟨hhost, hinfos⟩ := (refuse_private_destination_ok hgateway).mp hguard
  rcases h.agrees with hrefused | hsame | ⟨hliteral, hname⟩
  · rw [hhost] at hrefused
    cases hrefused
  · rw [hsame]
    exact ⟨privateLiteral_of_not_private hhost, fun infos hresolved address haddress =>
      privateLiteral_of_not_private (hinfos infos hresolved address haddress)⟩
  · refine ⟨hliteral, fun infos hresolved address haddress => ?_⟩
    by_cases his : isLiteral (destination connection) = true
    · rw [hresolves.literal _ infos his hresolved address haddress, hliteral]
    · -- what is no literal here is no host name either, and does not resolve
      rw [Bool.not_eq_true] at his
      have hnot : ¬ HostName (destination connection) := by
        intro hhostname
        rw [hname hhostname] at his
        cases his
      rw [hresolves.fails _ hnot his] at hresolved
      cases hresolved

/-- Where the address is not guarded, some network leads the credentials to a private
host. -/
theorem rebinding_private {connection : TM1Connection} (h : ¬ Guarded connection)
    (hgateway : connection.gateway_id = none) :
    _refuse_private_destination false (rebinding (destination connection)) connection = .ok () ∧
      ¬ Public (rebinding (destination connection)) (destination connection) := by
  have hhost : is_private_address (guardedHost connection) = false := by
    rw [← Bool.not_eq_true]
    exact fun hrefused => h ⟨.inl hrefused⟩
  have hdiffers : guardedHost connection ≠ destination connection :=
    fun heq => h ⟨.inr (.inl heq.symm)⟩
  constructor
  · rw [refuse_private_destination_ok hgateway]
    refine ⟨hhost, fun infos hresolved address haddress => ?_⟩
    -- the text that the guard reads is resolved to itself or not at all
    rw [rebinding] at hresolved
    by_cases hliteral : isLiteral (guardedHost connection) = true
    · rw [if_pos hliteral, Option.some.injEq] at hresolved
      rw [← hresolved, List.mem_singleton] at haddress
      rw [haddress]
      exact hhost
    · rw [if_neg hliteral, if_neg fun hand => hdiffers hand.1] at hresolved
      cases hresolved
  · rintro ⟨hliteral, hinfos⟩
    apply h
    refine ⟨.inr (.inr ⟨hliteral, fun hname => ?_⟩)⟩
    by_contra hnot
    have hresolved : rebinding (destination connection) (destination connection)
        = some ["127.0.0.1"] := by
      rw [rebinding, if_neg hnot, if_pos ⟨rfl, hname⟩]
    have hpublic := hinfos _ hresolved "127.0.0.1" List.mem_cons_self
    revert hpublic
    decide

/-- **When no credentials go to a private address.** A direct connection's credentials
are sent to no private, loopback or link-local address, whatever names resolve to,
exactly when the connection is suspended or its address is guarded. -/
theorem no_private_destination_iff (connection : TM1Connection)
    (hgateway : connection.gateway_id = none) :
    (∀ getaddrinfo, Resolves getaddrinfo → ∀ TM1Service timeout clients kwargs,
      get_client false timeout getaddrinfo TM1Service clients connection = .ok (.opened kwargs) →
        Public getaddrinfo (urlHost kwargs.url)) ↔
      connection.suspended_at.isSome = true ∨ Guarded connection := by
  constructor
  · intro hsafe
    by_contra hnot
    rw [not_or, Bool.not_eq_true, Option.isSome_eq_false_iff, Option.isNone_iff_eq_none] at hnot
    obtain ⟨hsuspended, hguarded⟩ := hnot
    obtain ⟨hguard, hprivate⟩ := rebinding_private hguarded hgateway
    have hopened : get_client false 0 _ (fun _ => .ok ()) (fun _ => none) connection
        = .ok (.opened (build_tm1_kwargs 0 connection connection.password)) :=
      (get_client_opened _).mpr ⟨hsuspended, rfl, hguard, rfl, rfl⟩
    exact hprivate (hsafe _ (rebinding_resolves _) _ _ _ _ hopened)
  · intro hcondition getaddrinfo hresolves TM1Service timeout clients kwargs hopened
    obtain ⟨hsuspended, -, hguard, rfl, -⟩ := (get_client_opened kwargs).mp hopened
    rcases hcondition with hsome | hguarded
    · rw [hsuspended] at hsome
      cases hsome
    · rw [url_timeout]
      exact hguarded.public hgateway hresolves hguard

/-! ## A port in the address -/

/-- A connection whose address carries a port. -/
def portConnection : TM1Connection where
  id := 1
  organization_id := 1
  created_by := 7
  name := "Finance"
  address := "127.0.0.1:9510"
  port := 443
  ssl := true
  username := "apikey"
  password := "secret"
  authentication_type := .v12_saas
  tenant := some "ABC123"
  database := some "Finance"
  gateway_id := none
  environment := "dev"
  visibility := .private
  verify_ssl := true
  suspended_at := none

/-- **Credentials that are sent to the loopback address.** The text with the port is
no literal and does not resolve; the URL names the host without it. -/
theorem loopback_reached :
    ∃ getaddrinfo, Resolves getaddrinfo ∧ ∃ kwargs,
      get_client false 60 getaddrinfo (fun _ => .ok ()) (fun _ => none) portConnection
        = .ok (.opened kwargs) ∧
      kwargs.url = "https://127.0.0.1:9510/api/ABC123/v0/tm1/Finance/" ∧
      PrivateLiteral (urlHost kwargs.url) = true ∧ ¬ Public getaddrinfo (urlHost kwargs.url) := by
  refine ⟨rebinding "tm1.example.com", rebinding_resolves _, _, rfl, by decide, by decide, ?_⟩
  intro hpublic
  have hliteral := hpublic.1
  revert hliteral
  decide

/-- `no_private_destination_iff` at a plain host name. -/
theorem plain_host_guarded :
    Guarded { portConnection with address := "tm1.example.com" } ∧
    ∀ getaddrinfo, Resolves getaddrinfo → ∀ TM1Service timeout clients kwargs,
      get_client false timeout getaddrinfo TM1Service clients
        { portConnection with address := "tm1.example.com" } = .ok (.opened kwargs) →
        Public getaddrinfo (urlHost kwargs.url) :=
  ⟨by decide, (no_private_destination_iff { portConnection with address := "tm1.example.com" }
    rfl).mpr (.inr (by decide))⟩

end PaCopilot
