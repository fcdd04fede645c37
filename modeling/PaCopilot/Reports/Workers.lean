/-
The workers of the report plane, `reports/worker_service.py` and
`reports/worker_credentials.py`.

A worker is enrolled with a token that is good for one enrollment, which gives it a secret.
The secret is presented for tokens that are good for minutes. A token carries the
`secret_version` of the row it was minted for, and is refused where the row has another
one by now.

What an operation makes of a row is a function of the row it read, so that the requests
one after another and the transactions next to each other are about the same functions.
-/
import PaCopilot.Python
import PaCopilot.Lib.Run
import PaCopilot.Reports.Executions
import Mathlib.Data.List.Sort

set_option autoImplicit false

namespace PaCopilot.workers

open Python (strip)
open reports (Time seconds WorkerStatus WorkerCapability)

/-! ## Secrets -/

/-- What `secrets.token_urlsafe(32)` draws, behind its label. No two draws are alike. -/
structure Secret where
  label : String
  draw : ℕ
  deriving DecidableEq

def generate_enrollment_token (draw : ℕ) : Secret := ⟨"pacw-enroll-", draw⟩

def generate_worker_secret (draw : ℕ) : Secret := ⟨"pacw-secret-", draw⟩

/-- An HMAC-SHA256 under the key of the application. Nobody has two secrets of one digest,
so it is kept as the secret that it is of. -/
structure Digest where
  value : Secret
  deriving DecidableEq

def hash_secret (value : Secret) : Digest := ⟨value⟩

def verify_secret (value : Secret) (expected_hash : Option Digest) : Bool :=
  match expected_hash with
  | none => false
  | some expected => hash_secret value = expected

/-- The settings of `core/config.py` that credentials depend on. -/
structure Settings where
  REPORT_WORKER_ENROLLMENT_TTL_MINUTES : ℕ
  REPORT_WORKER_TOKEN_EXPIRE_MINUTES : ℕ

def defaultSettings : Settings where
  REPORT_WORKER_ENROLLMENT_TTL_MINUTES := 60
  REPORT_WORKER_TOKEN_EXPIRE_MINUTES := 15

def enrollment_expiry (settings : Settings) (now : Time) : Time :=
  now + seconds (settings.REPORT_WORKER_ENROLLMENT_TTL_MINUTES * 60)

/-! ## The row -/

/-- A row of `report_workers`. -/
structure ReportWorker where
  id : ℕ
  organization_id : ℕ
  created_by : ℕ
  name : String
  description : Option String
  status : WorkerStatus
  enrollment_token_hash : Option Digest
  enrollment_expires_at : Option Time
  enrolled_at : Option Time := none
  secret_hash : Option Digest := none
  secret_version : ℕ
  secret_rotated_at : Option Time := none
  version : Option String := none
  os : Option String := none
  excel_version : Option String := none
  pafe_version : Option String := none
  hostname : Option String := none
  capabilities : Option (List String) := none
  last_heartbeat_at : Option Time := none
  disabled_at : Option Time := none
  last_error : Option String := none
  deriving DecidableEq

/-- `WorkerHostFacts`, as `model_dump` returns it. -/
structure HostFacts where
  version : Option String := none
  os : Option String := none
  excel_version : Option String := none
  pafe_version : Option String := none
  hostname : Option String := none
  capabilities : List String := []
  deriving DecidableEq

/-- `value[:limit]`. -/
def truncate (limit : ℕ) (value : String) : String := String.ofList (value.toList.take limit)

/-- A column that a fact goes to, if the worker says it. -/
def trimmed (fact : Option String) (limit : ℕ) (stored : Option String) : Option String :=
  match fact with
  | none => stored
  | some value => some (truncate limit value)

def _apply_host_facts (worker : ReportWorker) (facts : HostFacts) : ReportWorker :=
  { worker with
    version := trimmed facts.version 30 worker.version
    os := trimmed facts.os 100 worker.os
    excel_version := trimmed facts.excel_version 50 worker.excel_version
    pafe_version := trimmed facts.pafe_version 50 worker.pafe_version
    hostname := trimmed facts.hostname 100 worker.hostname
    capabilities := some ((facts.capabilities.filter fun value =>
      (WorkerCapability.ofText value).isSome).dedup.insertionSort fun a b => a ≤ b) }

def _MAX_LAST_ERROR_CHARS : ℕ := 500

/-! ## What the operations make of a row -/

def invalidEnrollment : AppException :=
  AuthenticationException "The enrollment token is invalid or has expired."

def invalidCredentials : AppException := AuthenticationException "Invalid worker credentials."

def workerDisabled : AppException := AuthenticationException "This worker has been disabled."

def invalidToken : AppException := AuthenticationException "Invalid or expired worker token."

section Operations

variable (settings : Settings) (now : Time)

/-- `rotate_credential`, with the secret it draws. -/
def rotate_credential (secret : Secret) (worker : ReportWorker) :
    Except AppException ReportWorker := do
  refuse (worker.status = .PENDING_ENROLLMENT)
    (ConflictException ("This worker has not completed enrollment yet. Re-issue its "
      ++ "enrollment token instead."))
  return { worker with
    secret_hash := some (hash_secret secret)
    secret_version := worker.secret_version + 1
    secret_rotated_at := some now }

/-- `reissue_enrollment`, with the token it draws. -/
def reissue_enrollment (token : Secret) (worker : ReportWorker) :
    Except AppException ReportWorker := do
  refuse (worker.status = .DISABLED)
    (ConflictException "Enable the worker before re-issuing an enrollment token.")
  return { worker with
    enrollment_token_hash := some (hash_secret token)
    enrollment_expires_at := some (enrollment_expiry settings now)
    secret_hash := none
    secret_version := worker.secret_version + 1
    status := .PENDING_ENROLLMENT }

/-- `set_enabled`. -/
def set_enabled (enabled : Bool) (worker : ReportWorker) : ReportWorker :=
  if enabled then
    if worker.status ≠ .DISABLED then worker
    else
      { worker with
        disabled_at := none
        status := if worker.secret_hash.isSome then .OFFLINE else .PENDING_ENROLLMENT }
  else { worker with status := .DISABLED, disabled_at := some now }

/-- `enroll`, from the row that the token was found in, with the secret it draws. -/
def enroll (secret : Secret) (host_facts : HostFacts) (worker : ReportWorker) :
    Except AppException ReportWorker := do
  refuse (worker.status = .DISABLED) invalidEnrollment
  match worker.enrollment_expires_at with
  | none => .error invalidEnrollment
  | some expires_at => do
    refuse (expires_at < now) invalidEnrollment
    return _apply_host_facts
      { worker with
        secret_hash := some (hash_secret secret)
        enrollment_token_hash := none
        enrollment_expires_at := none
        enrolled_at := some now
        status := .ONLINE
        last_heartbeat_at := some now } host_facts

/-- `heartbeat`. -/
def heartbeat (host_facts : Option HostFacts) (busy : Bool) (last_error : Option String)
    (worker : ReportWorker) : ReportWorker :=
  let worker := { worker with
    last_heartbeat_at := some now
    status := if busy then .BUSY else .ONLINE
    last_error := trimmed last_error _MAX_LAST_ERROR_CHARS worker.last_error }
  match host_facts with
  | none => worker
  | some facts => _apply_host_facts worker facts

end Operations

/-! ## Tokens -/

/-- The claims of a worker token. Times are in seconds. -/
structure WorkerToken where
  sub : ℕ
  org : ℕ
  sv : ℕ
  iat : ℕ
  exp : ℕ
  jti : ℕ
  deriving DecidableEq

def create_worker_token (settings : Settings) (now : Time) (jti : ℕ) (worker : ReportWorker) :
    WorkerToken where
  sub := worker.id
  org := worker.organization_id
  sv := worker.secret_version
  iat := now / seconds 1
  exp := (now + seconds (settings.REPORT_WORKER_TOKEN_EXPIRE_MINUTES * 60)) / seconds 1
  jti := jti

/-- The table, and the clock. Kept beside it: how much has been drawn, the tokens that were
minted, each with the secret that was presented for it, and the enrollment tokens that
were spent. -/
structure State where
  now : Time
  draw : ℕ := 0
  rows : List ReportWorker := []
  issued : List (WorkerToken × Secret) := []
  spent : List Secret := []
  deriving DecidableEq

section Requests

variable (settings : Settings) (s : State)

def get_by_id (worker_id : ℕ) : Option ReportWorker := s.rows.find? fun w => w.id = worker_id

def get_by_enrollment_token_hash (token_hash : Digest) : Option ReportWorker :=
  s.rows.find? fun w => w.enrollment_token_hash = some token_hash

def get_by_name (organization_id : ℕ) (name : String) : Option ReportWorker :=
  s.rows.find? fun w => w.organization_id = organization_id && w.name = name

def get_worker (worker_id organization_id : ℕ) : Except AppException ReportWorker :=
  match get_by_id s worker_id with
  | none => .error (NotFoundException "Worker not found.")
  | some worker =>
    if worker.organization_id ≠ organization_id then .error (NotFoundException "Worker not found.")
    else .ok worker

/-- `authenticate`. -/
def authenticate (worker_id : ℕ) (secret : Secret) : Except AppException ReportWorker :=
  match get_by_id s worker_id with
  | none => .error invalidCredentials
  | some worker => do
    refuse (verify_secret secret worker.secret_hash = false) invalidCredentials
    refuse (worker.status = .DISABLED) workerDisabled
    return worker

/-- `resolve_token_subject`. -/
def resolve_token_subject (payload : WorkerToken) : Except AppException ReportWorker :=
  match get_by_id s payload.sub with
  | none => .error invalidToken
  | some worker => do
    refuse (payload.sv ≠ worker.secret_version) invalidToken
    refuse (worker.organization_id ≠ payload.org) invalidToken
    refuse (worker.status = .DISABLED) workerDisabled
    refuse (worker.secret_hash = none) invalidToken
    return worker

/-- `decode_worker_token`: nobody else signs with the key of the application. -/
def decode_worker_token (token : WorkerToken) : Except AppException WorkerToken := do
  refuse (token ∉ s.issued.map Prod.fst) invalidToken
  refuse (token.exp < s.now / seconds 1) invalidToken
  return token

/-- `get_current_worker`. -/
def get_current_worker (token : WorkerToken) : Except AppException ReportWorker := do
  let payload ← decode_worker_token s token
  resolve_token_subject s payload

/-- The table with a row written. -/
def update (worker : ReportWorker) : State :=
  { s with rows := s.rows.map fun w => if w.id = worker.id then worker else w }

/-! ## Requests -/

inductive Event
  | register (organization_id user_id : ℕ) (name : String) (description : Option String)
  | enroll (enrollment_token : Secret) (host_facts : HostFacts)
  | rotate_credential (worker_id organization_id : ℕ)
  | reissue_enrollment (worker_id organization_id : ℕ)
  | set_enabled (worker_id organization_id : ℕ) (enabled : Bool)
  | issue_token (worker_id : ℕ) (worker_secret : Secret)
  | heartbeat (token : WorkerToken) (host_facts : Option HostFacts) (busy : Bool)
      (last_error : Option String)
  | wait (duration : Time)
  deriving DecidableEq

/-- `register`: the new row. -/
def register (organization_id user_id : ℕ) (name : String) (description : Option String) :
    Except AppException ReportWorker := do
  let name := String.ofList (strip name.toList)
  refuse (name = "") (ValidationException "A worker name is required.")
  refuse ((get_by_name s organization_id name).isSome = true)
    (ConflictException s!"A worker named '{name}' already exists.")
  return {
    id := s.draw
    organization_id := organization_id
    created_by := user_id
    name := name
    description := description
    status := .PENDING_ENROLLMENT
    enrollment_token_hash := some (hash_secret (generate_enrollment_token s.draw))
    enrollment_expires_at := some (enrollment_expiry settings s.now)
    secret_version := 1 }

/-- The enrollment that a token is spent for: the row it is found in, before and after. -/
def enrollment (enrollment_token : Secret) (host_facts : HostFacts) :
    Except AppException (ReportWorker × ReportWorker) :=
  match get_by_enrollment_token_hash s (hash_secret enrollment_token) with
  | none => .error invalidEnrollment
  | some worker => do
    let enrolled ← enroll s.now (generate_worker_secret s.draw) host_facts worker
    return (worker, enrolled)

/-- The table after a request that returns. -/
def outcome : Event → Except AppException State
  | .register organization_id user_id name description => do
    let worker ← register settings s organization_id user_id name description
    return { s with rows := s.rows ++ [worker], draw := s.draw + 1 }
  | .enroll enrollment_token host_facts => do
    let (_, enrolled) ← enrollment s enrollment_token host_facts
    return { update s enrolled with draw := s.draw + 1, spent := s.spent ++ [enrollment_token] }
  | .rotate_credential worker_id organization_id => do
    let worker ← get_worker s worker_id organization_id
    let worker ← rotate_credential s.now (generate_worker_secret s.draw) worker
    return { update s worker with draw := s.draw + 1 }
  | .reissue_enrollment worker_id organization_id => do
    let worker ← get_worker s worker_id organization_id
    let worker ← reissue_enrollment settings s.now (generate_enrollment_token s.draw) worker
    return { update s worker with draw := s.draw + 1 }
  | .set_enabled worker_id organization_id enabled => do
    let worker ← get_worker s worker_id organization_id
    return update s (set_enabled s.now enabled worker)
  | .issue_token worker_id worker_secret => do
    let worker ← authenticate s worker_id worker_secret
    return { s with
      draw := s.draw + 1
      issued := s.issued ++ [(create_worker_token settings s.now s.draw worker, worker_secret)] }
  | .heartbeat token host_facts busy last_error => do
    let worker ← get_current_worker s token
    return update s (heartbeat s.now host_facts busy last_error worker)
  | .wait duration => .ok { s with now := s.now + duration }

/-- One request. One that raises is rolled back. -/
def step (e : Event) : Option State :=
  match outcome settings s e with
  | .ok s' => some s'
  | .error _ => some s

end Requests

end PaCopilot.workers
