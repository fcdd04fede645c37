/-
Sessions: `auth_service.py`, `jwt_service.py`, `token_revocation_service.py`, the
dependency that admits an access token, and `set_temporary_password` of `platform.py`.

A token is taken on two conditions. Its own identifier has no row in `revoked_tokens`, and
the second it was issued in is later than the second of the `tokens_valid_from` of its
user. Requests run one after another here. Within one, time passes between the readings of
the clock.
-/
import PaCopilot.Auth.Permissions
import PaCopilot.Reports.Execution
import PaCopilot.Lib.Run

set_option autoImplicit false

namespace PaCopilot.auth_service

open reports (Time seconds)

/-! ## The rows -/

/-- What `CryptContext.hash` makes of a password. A hash is checked by one password only,
so it is kept as the password that it is of. -/
structure PasswordHash where
  password : String
  deriving DecidableEq

def hash_password (password : String) : PasswordHash := ⟨password⟩

def verify_password (plain_password : String) (hashed_password : PasswordHash) : Bool :=
  hash_password plain_password = hashed_password

/-- A row of `users`. -/
structure User where
  id : ℕ
  username : String
  email : String
  password_hash : PasswordHash
  is_active : Bool := true
  registration_status : RegistrationStatus := .approved
  tokens_valid_from : Time := 0
  email_verified_at : Option Time := none
  must_change_password : Bool := false
  temporary_password_expires_at : Option Time := none
  deriving DecidableEq

inductive TokenType
  | access
  | refresh
  deriving DecidableEq

/-- The claims of a token. `exp` and `iat` are in seconds, and a token from before there
was an `iat` or a `jti` has none. -/
structure Payload where
  sub : ℕ
  type : TokenType
  exp : ℕ
  iat : Option ℕ
  jti : Option ℕ
  deriving DecidableEq

/-- A row of `revoked_tokens`. -/
structure RevokedToken where
  jti : ℕ
  user_id : ℕ
  expires_at : Time
  reason : String
  deriving DecidableEq

/-- A row of `password_reset_tokens`. The digest is kept as the token that it is of. -/
structure PasswordResetToken where
  user_id : ℕ
  token_hash : ℕ
  expires_at : Time
  used_at : Option Time := none
  deriving DecidableEq

structure TokenResponse where
  access_token : Payload
  refresh_token : Payload
  deriving DecidableEq

/-- The settings of `core/config.py` that sessions depend on. -/
structure Settings where
  ACCESS_TOKEN_EXPIRE_MINUTES : ℕ
  REFRESH_TOKEN_EXPIRE_DAYS : ℕ
  PASSWORD_RESET_TOKEN_EXPIRE_MINUTES : ℕ
  TEMPORARY_PASSWORD_EXPIRE_HOURS : ℕ

def defaultSettings : Settings where
  ACCESS_TOKEN_EXPIRE_MINUTES := 30
  REFRESH_TOKEN_EXPIRE_DAYS := 7
  PASSWORD_RESET_TOKEN_EXPIRE_MINUTES := 30
  TEMPORARY_PASSWORD_EXPIRE_HOURS := 24

/-- The tables and the clock. `draw` numbers what `uuid4` and `secrets` draw, no two draws
being alike. Kept beside them: the tokens that were issued, the refresh tokens that were
spent or logged out, and the temporary passwords that were set, the last one first. -/
structure State where
  now : Time
  draw : ℕ := 0
  users : List User
  super_admins : List ℕ := []
  revoked_tokens : List RevokedToken := []
  reset_tokens : List PasswordResetToken := []
  issued : List Payload := []
  ended : List Payload := []
  temporary : List (ℕ × String) := []
  deriving DecidableEq

/-- How long a request takes up to the check of the account, from there to the next time it
reads the clock, and from there to the last. -/
structure Pace where
  check : Time := 0
  next : Time := 0
  last : Time := 0
  deriving DecidableEq

section Repositories

variable (s : State)

def get_by_id (user_id : ℕ) : Option User := s.users.find? fun user => user.id = user_id

def get_by_username (username : String) : Option User :=
  s.users.find? fun user => user.username = username

def get_by_email (email : String) : Option User := s.users.find? fun user => user.email = email

/-- The table with a row written. -/
def update (user : User) : State :=
  { s with users := s.users.map fun row => if row.id = user.id then user else row }

/-- Time passes. -/
def after (duration : Time) : State := { s with now := s.now + duration }

def get_by_token_hash (token_hash : ℕ) : Option PasswordResetToken :=
  s.reset_tokens.find? fun token => token.token_hash = token_hash

def mark_used (token : PasswordResetToken) (used_at : Time) : State :=
  { s with reset_tokens := s.reset_tokens.map fun row =>
      if row.token_hash = token.token_hash then { row with used_at := some used_at } else row }

/-- `revoked_token_repository.exists`. -/
def revoked_exists (jti : ℕ) : Bool := s.revoked_tokens.any fun row => row.jti = jti

end Repositories

/-! ## `jwt_service.py` -/

section Tokens

variable (settings : Settings) (s : State)

def create_access_token (issued_at : Time) (jti subject : ℕ) : Payload where
  sub := subject
  type := .access
  exp := (issued_at + seconds (settings.ACCESS_TOKEN_EXPIRE_MINUTES * 60)) / seconds 1
  iat := some (issued_at / seconds 1)
  jti := some jti

def create_refresh_token (issued_at : Time) (jti subject : ℕ) : Payload where
  sub := subject
  type := .refresh
  exp := (issued_at + seconds (settings.REFRESH_TOKEN_EXPIRE_DAYS * 86400)) / seconds 1
  iat := some (issued_at / seconds 1)
  jti := some jti

def expiry_of (payload : Payload) : Time := seconds payload.exp

/-- The token is past its own expiry. -/
def expired (payload : Payload) : Bool := payload.exp < s.now / seconds 1

/-- `decode_token`: `none` where it raises. Nobody else signs with the key of the
application. -/
def decode_token (token : Payload) : Option Payload :=
  if token ∈ s.issued ∧ expired s token = false then some token else none

/-- The pair that a request returns. -/
def create_tokens (pace : Pace) (subject : ℕ) : State × TokenResponse :=
  let access_token := create_access_token settings (s.now + pace.next) s.draw subject
  let refresh_token :=
    create_refresh_token settings (s.now + pace.next + pace.last) (s.draw + 1) subject
  ({ s with
      now := s.now + pace.next + pace.last
      draw := s.draw + 2
      issued := s.issued ++ [access_token, refresh_token] },
    ⟨access_token, refresh_token⟩)

end Tokens

/-! ## `token_revocation_service.py` -/

section Revocation

variable (s : State)

def revoke (jti : Option ℕ) (user_id : ℕ) (expires_at : Time) (reason : String) : State :=
  match jti with
  | none => s
  | some jti =>
    if revoked_exists s jti then s
    else { s with revoked_tokens := s.revoked_tokens ++ [⟨jti, user_id, expires_at, reason⟩] }

def revoke_all_for_user (user_id : ℕ) : State :=
  match get_by_id s user_id with
  | none => s
  | some user => update s { user with tokens_valid_from := s.now }

def is_revoked (payload : Payload) : Bool :=
  match payload.jti with
  | none => false
  | some jti => revoked_exists s jti

def issued_before_cutoff (payload : Payload) (cutoff : Time) : Bool :=
  match payload.iat with
  | none => false
  | some issued => issued ≤ cutoff / seconds 1

/-- A refresh token is retired, and the history says so. -/
def retire (token : Payload) (user_id : ℕ) (reason : String) : State :=
  { revoke s token.jti user_id (expiry_of token) reason with ended := s.ended ++ [token] }

end Revocation

/-! ## `auth_service.py` -/

def expiredTemporaryPassword : AppException :=
  AuthenticationException
    "This temporary password has expired. Ask your administrator for a new one."

def _check_can_authenticate (user : User) : Except AppException Unit := do
  refuse (user.registration_status = .pending)
    (PermissionDeniedException "Your account is pending administrator approval.")
  refuse (user.registration_status = .rejected)
    (PermissionDeniedException
      "Your access request was not approved. Contact your administrator.")
  refuse (user.is_active = false) (PermissionDeniedException "User account is inactive")

/-- The password of the row is a temporary one and its time is over. -/
def temporaryPasswordOver (now : Time) (user : User) : Bool :=
  user.must_change_password && user.temporary_password_expires_at.any fun expires_at =>
    expires_at < now

def _check_temporary_password (now : Time) (user : User) : Except AppException Unit :=
  refuse (temporaryPasswordOver now user = true) expiredTemporaryPassword

/-- What a request leaves committed, and what it answers. -/
abbrev Outcome := State × Except AppException (Option TokenResponse)

section Requests

variable (settings : Settings) (s : State)

/-- A request that raises is rolled back. -/
def rolledBack (e : AppException) : Outcome := (s, .error e)

/-- `login` up to the pair: the user who signs in. -/
def signing_in (now : Time) (username password : String) : Except AppException User :=
  match get_by_username s username with
  | none => .error (AuthenticationException "Invalid username or password")
  | some user => do
    refuse (verify_password password user.password_hash = false)
      (AuthenticationException "Invalid username or password")
    _check_can_authenticate user
    _check_temporary_password now user
    return user

def login (pace : Pace) (username password : String) : Outcome :=
  match signing_in s (s.now + pace.check) username password with
  | .error e => rolledBack s e
  | .ok user =>
    let (s, tokens) := create_tokens settings (after s pace.check) pace user.id
    (s, .ok (some tokens))

/-- `refresh` up to the question whether the token was spent: the user of the token. -/
def refreshing (now : Time) (refresh_token : Payload) : Except AppException User :=
  match decode_token s refresh_token with
  | none => .error (AuthenticationException "Invalid or expired refresh token")
  | some payload => do
    refuse (payload.type ≠ .refresh) (AuthenticationException "Invalid token type")
    match get_by_id s payload.sub with
    | none => .error (AuthenticationException "Invalid or expired refresh token")
    | some user => do
      _check_can_authenticate user
      _check_temporary_password now user
      return user

def refresh (pace : Pace) (refresh_token : Payload) : Outcome :=
  match refreshing s (s.now + pace.check) refresh_token with
  | .error e => rolledBack s e
  | .ok user =>
    if is_revoked s refresh_token then
      -- committed before it raises, so this is not rolled back
      (revoke_all_for_user (after s (pace.check + pace.next)) user.id,
        .error (AuthenticationException ("This session has been ended for security reasons. "
          ++ "Please sign in again.")))
    else if issued_before_cutoff refresh_token user.tokens_valid_from then
      rolledBack s (AuthenticationException "Session ended. Sign in again.")
    else
      let (s, tokens) := create_tokens settings
        (retire (after s pace.check) refresh_token user.id "rotated") pace user.id
      (s, .ok (some tokens))

/-- `request_password_reset`, with the token it draws. -/
def request_password_reset (email : String) : Outcome :=
  match get_by_email s email with
  | none => (s, .ok none)
  | some user =>
    if user.is_active = false then (s, .ok none)
    else
      let expires_at := s.now + seconds (settings.PASSWORD_RESET_TOKEN_EXPIRE_MINUTES * 60)
      ({ s with
          draw := s.draw + 1
          reset_tokens := s.reset_tokens ++ [⟨user.id, s.draw, expires_at, none⟩] }, .ok none)

/-- The row that a reset link is good for, and its user. -/
def resetting (token : ℕ) : Option (PasswordResetToken × User) := do
  let reset_token ← get_by_token_hash s token
  if reset_token.used_at ≠ none ∨ reset_token.expires_at < s.now then none
  else
    let user ← get_by_id s reset_token.user_id
    if user.is_active = false then none else some (reset_token, user)

def reset_password (pace : Pace) (token : ℕ) (new_password : String) : Outcome :=
  match resetting s token with
  | none => rolledBack s (AuthenticationException "Invalid or expired reset link")
  | some (reset_token, user) =>
    let s' := update s { user with
      password_hash := hash_password new_password
      email_verified_at := user.email_verified_at.or (some (s.now + pace.check)) }
    let s' := mark_used s' reset_token s.now
    (revoke_all_for_user (after s' (pace.check + pace.next)) user.id, .ok none)

/-- The user whose password is changed. -/
def changing (user_id : ℕ) (current_password new_password : String) :
    Except AppException User :=
  match get_by_id s user_id with
  | none => .error (NotFoundException "User not found")
  | some user => do
    refuse (verify_password current_password user.password_hash = false)
      (ValidationException "The current password is not right.")
    refuse (verify_password new_password user.password_hash = true)
      (ValidationException "Choose a password different from the current one.")
    return user

/-- `1 - cutoff.microsecond / 1_000_000 + 0.01`. -/
def waitAfter (cutoff : Time) : Time := seconds 1 - cutoff % seconds 1 + 10000

def change_password (pace : Pace) (user_id : ℕ) (current_password new_password : String) :
    Outcome :=
  match changing s user_id current_password new_password with
  | .error e => rolledBack s e
  | .ok user =>
    let s := update s { user with
      password_hash := hash_password new_password
      must_change_password := false
      temporary_password_expires_at := none }
    let s := revoke_all_for_user (after s pace.check) user.id
    -- the cutoff is the instant that `revoke_all_for_user` has just read
    let (s, tokens) := create_tokens settings (after s (waitAfter s.now)) pace user.id
    (s, .ok (some tokens))

def logout (user_id : ℕ) (refresh_token : Option Payload) : Outcome :=
  match refresh_token.bind (decode_token s) with
  | none => (s, .ok none)
  | some payload =>
    if payload.type ≠ .refresh then (s, .ok none)
    else if payload.sub ≠ user_id then (s, .ok none)
    else (retire s payload user_id "logout", .ok none)

def logout_all (user_id : ℕ) : Outcome := (revoke_all_for_user s user_id, .ok none)

/-- The person that `set_temporary_password` is about. -/
def locked_out (user_id caller_id : ℕ) : Except AppException User := do
  refuse (user_id = caller_id) (ValidationException "You cannot restrict your own account.")
  match get_by_id s user_id with
  | none => .error (NotFoundException "User not found.")
  | some user => do
    refuse (user.is_active = false ∨ user.registration_status ≠ .approved)
      (ValidationException "Reactivate (or approve) the account first.")
    refuse (user.id ∈ s.super_admins)
      (ValidationException "Another Super Admin resets their own password.")
    return user

/-- `set_temporary_password`, with the password it draws. -/
def set_temporary_password (pace : Pace) (user_id caller_id : ℕ) (password : String) : Outcome :=
  match locked_out s user_id caller_id with
  | .error e => rolledBack s e
  | .ok user =>
    let expires_at := s.now + seconds (settings.TEMPORARY_PASSWORD_EXPIRE_HOURS * 3600)
    let s := update s { user with
      password_hash := hash_password password
      must_change_password := true
      temporary_password_expires_at := some expires_at }
    (revoke_all_for_user
      { after s pace.next with temporary := (user.id, password) :: s.temporary } user.id, .ok none)

/-! ### Admission -/

/-- `get_current_user`: the user of an access token. The request is one that a session with
a temporary password may make, or not. -/
def get_current_user (may_run_with_temporary_password : Bool) (token : Payload) :
    Except AppException User :=
  match decode_token s token with
  | none => .error (AuthenticationException "Invalid or expired token")
  | some payload => do
    refuse (payload.type ≠ .access) (AuthenticationException "Invalid token type")
    refuse (is_revoked s payload = true) (AuthenticationException "Invalid or expired token")
    match get_by_id s payload.sub with
    | none => .error (NotFoundException "User not found")
    | some user => do
      -- issued before all sessions of the user were ended
      refuse (issued_before_cutoff payload user.tokens_valid_from = true)
        (AuthenticationException "Session ended. Sign in again.")
      refuse (user.registration_status ≠ .approved)
        (PermissionDeniedException "Your account is pending administrator approval.")
      refuse (user.must_change_password = true ∧ may_run_with_temporary_password = false)
        (PermissionDeniedException "Set a new password before continuing.")
      return user

def get_current_active_user (may_run_with_temporary_password : Bool) (token : Payload) :
    Except AppException User := do
  let current_user ← get_current_user s may_run_with_temporary_password token
  refuse (current_user.is_active = false) (PermissionDeniedException "Inactive user")
  return current_user

/-! ### Runs -/

inductive Event
  | login (pace : Pace) (username password : String)
  | refresh (pace : Pace) (refresh_token : Payload)
  | logout (user_id : ℕ) (refresh_token : Option Payload)
  | logout_all (user_id : ℕ)
  | change_password (pace : Pace) (user_id : ℕ) (current_password new_password : String)
  | request_password_reset (email : String)
  | reset_password (pace : Pace) (token : ℕ) (new_password : String)
  | set_temporary_password (pace : Pace) (user_id caller_id : ℕ) (password : String)
  | wait (duration : Time)
  deriving DecidableEq

/-- What a request leaves and answers. -/
def respond : Event → Outcome
  | .login pace username password => login settings s pace username password
  | .refresh pace refresh_token => refresh settings s pace refresh_token
  | .logout user_id refresh_token => logout s user_id refresh_token
  | .logout_all user_id => logout_all s user_id
  | .change_password pace user_id current_password new_password =>
    change_password settings s pace user_id current_password new_password
  | .request_password_reset email => request_password_reset settings s email
  | .reset_password pace token new_password => reset_password s pace token new_password
  | .set_temporary_password pace user_id caller_id password =>
    set_temporary_password settings s pace user_id caller_id password
  | .wait duration => (after s duration, .ok none)

def step (e : Event) : Option State := some (respond settings s e).1

end Requests

end PaCopilot.auth_service
