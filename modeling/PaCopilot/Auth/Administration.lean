/-
The administration of workspaces: what `roles.py`, `users.py`, `signups.py` and `platform.py`
of the API let a signed-in person do to roles and accounts, and what `register` makes of
somebody who is not signed in yet.

Everybody who signs up without a code administers a workspace of their own. So most callers of
these routes hold every permission of their organization, and what keeps them out of the next
one, and out of the platform, are the checks of the services: the organization of a user and of
a role, the system roles that nobody edits, and the Super Admin role that only a Super Admin
gives. The session filter of `tenancy.py` hides rows that these checks refuse anyway, with the
same answer, and is not part of the model.

Requests come one after another, and one that raises is rolled back.
-/
import PaCopilot.Auth.Permissions
import PaCopilot.Reports.Execution
import PaCopilot.Lib.Run
import PaCopilot.Python
import Mathlib.Data.List.MinMax
import Mathlib.Logic.Function.Basic

set_option autoImplicit false

namespace PaCopilot

open Table
open reports (Time)

/-! ## The tables -/

namespace AuthDb

/-- A new row of `users`. -/
def insertUser (db : AuthDb) (user : User) : Except AppException AuthDb :=
  match h : Table.insert everyRow User.id IntegrityError db.users user with
  | .error e => .error e
  | .ok rows => .ok { db with users := rows, users_id := db.users_id.insert h }

/-- A new row of `roles`, under its two constraints. A role without an organization is like
no other. -/
def insertRole (db : AuthDb) (role : Role) : Except AppException AuthDb :=
  if role.organization_id ≠ none ∧ ∃ r ∈ db.roles,
      r.organization_id = role.organization_id ∧ r.name = role.name then .error IntegrityError
  else
    match h : Table.insert everyRow Role.id IntegrityError db.roles role with
    | .error e => .error e
    | .ok rows => .ok { db with roles := rows, roles_id := db.roles_id.insert h }

/-- The role's new columns. -/
def updateRole (db : AuthDb) (role : Role) : Except AppException AuthDb :=
  if role.organization_id ≠ none ∧ ∃ r ∈ db.roles, r.id ≠ role.id ∧
      r.organization_id = role.organization_id ∧ r.name = role.name then .error IntegrityError
  else .ok { db with
    roles := db.roles.map fun r => if r.id = role.id then role else r
    roles_id := db.roles_id.map (fun _ _ _ => rfl) fun r _ _ => by
      show (if r.id = role.id then role else r).id = r.id
      split
      · rename_i h
        exact h.symm
      · rfl }

/-- The role goes, and with it who holds it and what it grants. -/
def deleteRole (db : AuthDb) (role_id : ℕ) : AuthDb :=
  { db with
    roles := db.roles.filter fun r => r.id ≠ role_id
    role_permissions := db.role_permissions.filter fun g => g.role_id ≠ role_id
    user_roles := db.user_roles.filter fun r => r.role_id ≠ role_id
    roles_id := db.roles_id.filter _
    uq_role_permission := db.uq_role_permission.filter _
    uq_user_role := db.uq_user_role.filter _ }

/-- A new row of `role_permissions`. -/
def insertRolePermission (db : AuthDb) (granted : RolePermission) : Except AppException AuthDb :=
  match h : Table.insert everyRow id IntegrityError db.role_permissions granted with
  | .error e => .error e
  | .ok rows => .ok { db with role_permissions := rows, uq_role_permission := db.uq_role_permission.insert h }

def deleteRolePermission (db : AuthDb) (granted : RolePermission) : AuthDb :=
  { db with
    role_permissions := db.role_permissions.filter fun g => g ≠ granted
    uq_role_permission := db.uq_role_permission.filter _ }

def deleteUserRole (db : AuthDb) (user_role : UserRole) : AuthDb :=
  { db with
    user_roles := db.user_roles.filter fun r => r ≠ user_role
    uq_user_role := db.uq_user_role.filter _ }

end AuthDb

namespace role_repository

def get_by_name (db : AuthDb) (organization_id : ℕ) (name : String) :
    Except AppException (Option Role) :=
  scalar_one_or_none MultipleResultsFound
    (db.roles.filter fun r => r.organization_id = some organization_id ∧ r.name = name)

def get_system_role (db : AuthDb) (name : String) : Except AppException (Option Role) :=
  scalar_one_or_none MultipleResultsFound
    (db.roles.filter fun r => r.organization_id = none ∧ r.name = name ∧ r.is_system)

end role_repository

namespace permission_repository

def get_by_id (db : AuthDb) (permission_id : ℕ) : Except AppException (Option Permission) :=
  scalar_one_or_none MultipleResultsFound (db.permissions.filter fun p => p.id = permission_id)

end permission_repository

namespace role_permission_repository

def get_by_role_and_permission (db : AuthDb) (role_id permission_id : ℕ) :
    Except AppException (Option RolePermission) :=
  scalar_one_or_none MultipleResultsFound
    (db.role_permissions.filter fun g => g.role_id = role_id ∧ g.permission_id = permission_id)

end role_permission_repository

/-! ## Roles -/

namespace role_service

/-- `get_role`: a role of the organization, or one of everybody's. -/
def get_role (db : AuthDb) (role_id organization_id : ℕ) : Except AppException Role := do
  match ← role_repository.get_by_id db role_id with
  | none => .error (NotFoundException "Role not found.")
  | some role => do
    refuse (role.organization_id ≠ some organization_id ∧ role.organization_id ≠ none)
      (NotFoundException "Role not found.")
    return role

/-- `create_role` of a role with that identifier. -/
def create_role (db : AuthDb) (role_id organization_id : ℕ) (name : String) (is_system : Bool) :
    Except AppException AuthDb := do
  let existing ← role_repository.get_by_name db organization_id name
  refuse (existing.isSome = true) (ConflictException s!"Role '{name}' already exists.")
  db.insertRole ⟨role_id, some organization_id, name, is_system⟩

def update_role (db : AuthDb) (role_id organization_id : ℕ) (name : Option String) :
    Except AppException AuthDb := do
  let role ← get_role db role_id organization_id
  refuse (role.is_system = true) (PermissionDeniedException "System roles cannot be modified.")
  db.updateRole { role with name := name.getD role.name }

def delete_role (db : AuthDb) (role_id organization_id : ℕ) : Except AppException AuthDb := do
  let role ← get_role db role_id organization_id
  refuse (role.is_system = true) (PermissionDeniedException "System roles cannot be deleted.")
  return db.deleteRole role.id

def remove_role (db : AuthDb) (user_id role_id caller_organization_id : ℕ)
    (caller_user_id : Option ℕ) : Except AppException AuthDb := do
  let user ← user_repository.get_by_id db user_id
  refuse (user.map User.organization_id ≠ some caller_organization_id)
    (PermissionDeniedException "Cannot remove roles from a user outside your organization.")
  let role ← role_repository.get_by_id db role_id
  -- a role that is gone is not the platform's
  refuse (role.any (fun role => role.is_system ∧ role.name = SUPER_ADMIN_ROLE) = true
      ∧ (caller_user_id.map (is_super_admin db)).getD false = false)
    (PermissionDeniedException "Only a Super Admin can remove the Super Admin role.")
  match ← user_role_repository.get_by_user_and_role db user_id role_id with
  | none => .error (NotFoundException "Role assignment not found.")
  | some existing => return db.deleteUserRole existing

end role_service

namespace permission_service

def assign_permission (db : AuthDb) (role_id permission_id : ℕ) : Except AppException AuthDb := do
  match ← role_repository.get_by_id db role_id with
  | none => .error (NotFoundException "Role not found.")
  | some _ =>
    match ← permission_repository.get_by_id db permission_id with
    | none => .error (NotFoundException "Permission not found.")
    | some _ =>
      match ← role_permission_repository.get_by_role_and_permission db role_id permission_id with
      -- the role grants it already
      | some _ => return db
      | none => db.insertRolePermission ⟨role_id, permission_id⟩

def remove_permission (db : AuthDb) (role_id permission_id : ℕ) : Except AppException AuthDb := do
  match ← role_permission_repository.get_by_role_and_permission db role_id permission_id with
  | none => .error (NotFoundException "Permission assignment not found.")
  | some existing => return db.deleteRolePermission existing

end permission_service

namespace user_service

def reject_user (db : AuthDb) (user_id caller_organization_id : ℕ) : Except AppException AuthDb := do
  let user ← _get_pending_user db user_id caller_organization_id
  return db.setRegistrationStatus user.id .rejected

end user_service

/-! ## The platform -/

structure Organization where
  id : ℕ
  code : String
  deriving DecidableEq

/-- A row of `audit_logs`. -/
structure AuditLog where
  entity_id : ℕ
  action : String
  created_at : Time
  deriving DecidableEq

/-- The tables, with `is_active` and `tokens_valid_from` of the users. -/
structure Platform where
  auth : AuthDb
  organizations : List Organization
  is_active : ℕ → Bool
  tokens_valid_from : ℕ → Time
  audit_log : List AuditLog

/-- `DEFAULT_SIGNUP_ROLE` and `REGISTRATION_AUTO_APPROVE`. -/
structure SignupSettings where
  DEFAULT_SIGNUP_ROLE : String
  REGISTRATION_AUTO_APPROVE : Bool

/-- The role of the one whose sign-up made the workspace. -/
def WORKSPACE_OWNER_ROLE : String := "Organization Admin"

/-- What `register` reads, with the identifiers and the code that are drawn on the way, and
whether the user name or the e-mail address is taken. -/
structure RegisterRequest where
  organization_code : Option String
  user_id : ℕ
  organization_id : ℕ
  workspace_code : String
  username_exists : Bool
  email_exists : Bool

namespace Platform

/-- The decisions of the platform's owner on an account. -/
def platformActions : List String := ["platform_deactivate_user", "platform_activate_user"]

/-- The newest decision on a user. -/
def latest (s : Platform) (user_id : ℕ) : Option String :=
  ((s.audit_log.filter fun row => row.entity_id = user_id ∧ row.action ∈ platformActions).argmax
    AuditLog.created_at).map AuditLog.action

/-- `_deactivated_by_platform`. -/
def _deactivated_by_platform (s : Platform) (user_id : ℕ) : Bool :=
  s.latest user_id = some "platform_deactivate_user"

/-- `audit_service.log`. -/
def log (s : Platform) (entity_id : ℕ) (action : String) (now : Time) : Platform :=
  { s with audit_log := s.audit_log ++ [⟨entity_id, action, now⟩] }

/-- `user.is_active = is_active`, and on a deactivation `revoke_all_for_user`. -/
def setActive (s : Platform) (user_id : ℕ) (is_active : Bool) (now : Time) : Platform :=
  { s with
    is_active := Function.update s.is_active user_id is_active
    tokens_valid_from := if is_active then s.tokens_valid_from
      else Function.update s.tokens_valid_from user_id now }

/-- `get_current_active_user`, for a token that is good. -/
def get_current_active_user (s : Platform) (user_id : ℕ) : Except AppException User := do
  match ← user_repository.get_by_id s.auth user_id with
  | none => .error (NotFoundException "User not found")
  | some user => do
    refuse (user.registration_status ≠ .approved)
      (PermissionDeniedException "Your account is pending administrator approval.")
    refuse (s.is_active user_id = false) (PermissionDeniedException "Inactive user")
    return user

/-- `Depends(require_permission(code))`. -/
def permitted (s : Platform) (code : String) (user_id : ℕ) : Except AppException User := do
  let user ← s.get_current_active_user user_id
  let _ ← require_permission code s.auth user.id
  return user

/-- `Depends(require_super_admin)`. -/
def require_super_admin (s : Platform) (user_id : ℕ) : Except AppException User := do
  let user ← s.get_current_active_user user_id
  refuse (role_service.is_super_admin s.auth user.id = false)
    (PermissionDeniedException "Only a Super Admin can review sign-ups.")
  return user

/-! ## Signing up -/

/-- `_grant_default_role`. -/
def _grant_default_role (settings : SignupSettings) (db : AuthDb) (user : User)
    (role_name : Option String) : Except AppException AuthDb := do
  let role_name := String.ofList
    (Python.strip (role_name.getD settings.DEFAULT_SIGNUP_ROLE).toList)
  if role_name = "" then return db
  match ← role_repository.get_system_role db role_name with
  | none => return db
  | some role =>
    match ← user_role_repository.get_by_user_and_role db user.id role.id with
    | some _ => return db
    | none => db.insertUserRole ⟨user.id, role.id⟩

/-- `organization_repository.create`. -/
def insertOrganization (s : Platform) (organization : Organization) :
    Except AppException Platform :=
  if ∃ o ∈ s.organizations, o.id = organization.id ∨ o.code = organization.code then
    .error IntegrityError
  else .ok { s with organizations := s.organizations ++ [organization] }

/-- `_resolve_registration_organization`: the organization of the code, or a new one of one's
own. -/
def _resolve_registration_organization (s : Platform) (request : RegisterRequest) :
    Except AppException (Platform × ℕ × Option String) :=
  match request.organization_code with
  | some code =>
    match s.organizations.find? fun o => o.code = code with
    | none => .error (NotFoundException
        "No organization found with that code. Check it with your administrator.")
    | some organization => .ok (s, organization.id, none)
  | none => do
    let s ← s.insertOrganization ⟨request.organization_id, request.workspace_code⟩
    return (s, request.organization_id, some WORKSPACE_OWNER_ROLE)

def _initial_registration_status (settings : SignupSettings) : RegistrationStatus :=
  if settings.REGISTRATION_AUTO_APPROVE then .approved else .pending

/-- `register`. -/
def register (settings : SignupSettings) (s : Platform) (now : Time) (request : RegisterRequest) :
    Except AppException Platform := do
  let (s, organization_id, role_name) ← s._resolve_registration_organization request
  refuse (request.username_exists = true) (ConflictException "Username already exists")
  refuse (request.email_exists = true) (ConflictException "Email already exists")
  let user : User :=
    ⟨request.user_id, organization_id, _initial_registration_status settings⟩
  let db ← s.auth.insertUser user
  let db ← _grant_default_role settings db user role_name
  return ({ s with auth := db, is_active := Function.update s.is_active user.id true }).log user.id
    "register" now

/-! ## The routes -/

inductive Act
  | create_role (role_id : ℕ) (name : String)
  | update_role (role_id : ℕ) (name : Option String)
  | delete_role (role_id : ℕ)
  | assign_permission (role_id permission_id : ℕ)
  | remove_permission (role_id permission_id : ℕ)
  | assign_role (user_id role_id : ℕ)
  | remove_role (user_id role_id : ℕ)
  | approve_user (user_id : ℕ) (role_id : Option ℕ)
  | reject_user (user_id : ℕ)
  | set_active (user_id : ℕ) (is_active : Bool)
  | decide_signup (user_id : ℕ) (approved : Bool)
  | platform_set_active (user_id : ℕ) (is_active : Bool)
  deriving DecidableEq

/-- `assign_permission` and `remove_permission` of the API: a service called for a role that
is not everybody's. -/
def onPermissions (s : Platform) (user : User) (role_id : ℕ)
    (service : AuthDb → Except AppException AuthDb) : Except AppException AuthDb := do
  let role ← role_service.get_role s.auth role_id user.organization_id
  refuse (role.is_system = true)
    (PermissionDeniedException "Permissions on system roles cannot be modified.")
  service s.auth

/-- `user_service.set_active`. -/
def set_active (s : Platform) (caller : User) (user_id : ℕ) (is_active : Bool) (now : Time) :
    Except AppException Platform := do
  refuse (user_id = caller.id) (ValidationException "You cannot deactivate your own account.")
  match ← user_repository.get_by_id s.auth user_id with
  | none => .error (NotFoundException "User not found.")
  | some user => do
    refuse (user.organization_id ≠ caller.organization_id) (NotFoundException "User not found.")
    refuse (is_active = true ∧ s._deactivated_by_platform user.id = true)
      (PermissionDeniedException ("This account was deactivated by the platform administrator; "
        ++ "only they can reactivate it."))
    return s.setActive user.id is_active now

/-- `_decide` of the sign-ups. -/
def _decide (s : Platform) (user_id : ℕ) (decision : RegistrationStatus) :
    Except AppException Platform := do
  match ← user_repository.get_by_id s.auth user_id with
  | none => .error (NotFoundException "User not found.")
  | some user => do
    refuse (user.registration_status ≠ .pending)
      (ConflictException s!"This request was already {user.registration_status.text}.")
    return { s with auth := s.auth.setRegistrationStatus user.id decision }

/-- `_target_user`. -/
def _target_user (s : Platform) (user_id : ℕ) (caller : User) : Except AppException User := do
  refuse (user_id = caller.id) (ValidationException "You cannot restrict your own account.")
  match ← user_repository.get_by_id s.auth user_id with
  | none => .error (NotFoundException "User not found.")
  | some user => return user

/-- A route of someone who is signed in. -/
def act (s : Platform) (caller : ℕ) (now : Time) : Act → Except AppException Platform
  | .create_role role_id name => do
    let user ← s.permitted "roles.write" caller
    let db ← role_service.create_role s.auth role_id user.organization_id name false
    return ({ s with auth := db }).log role_id "create" now
  | .update_role role_id name => do
    let user ← s.permitted "roles.write" caller
    let db ← role_service.update_role s.auth role_id user.organization_id name
    return ({ s with auth := db }).log role_id "update" now
  | .delete_role role_id => do
    let user ← s.permitted "roles.write" caller
    let db ← role_service.delete_role s.auth role_id user.organization_id
    return ({ s with auth := db }).log role_id "delete" now
  | .assign_permission role_id permission_id => do
    let user ← s.permitted "roles.write" caller
    let db ← s.onPermissions user role_id fun db =>
      permission_service.assign_permission db role_id permission_id
    return ({ s with auth := db }).log role_id "assign_permission" now
  | .remove_permission role_id permission_id => do
    let user ← s.permitted "roles.write" caller
    let db ← s.onPermissions user role_id fun db =>
      permission_service.remove_permission db role_id permission_id
    return ({ s with auth := db }).log role_id "remove_permission" now
  | .assign_role user_id role_id => do
    let user ← s.permitted "users.write" caller
    let db ← role_service.assign_role s.auth user_id role_id user.organization_id (some user.id)
    return ({ s with auth := db }).log user_id "assign_role" now
  | .remove_role user_id role_id => do
    let user ← s.permitted "users.write" caller
    let db ← role_service.remove_role s.auth user_id role_id user.organization_id (some user.id)
    return ({ s with auth := db }).log user_id "remove_role" now
  | .approve_user user_id role_id => do
    let user ← s.permitted "users.write" caller
    let db ← user_service.approve_user s.auth user_id user.organization_id role_id (some user.id)
    return ({ s with auth := db }).log user_id "approve_user" now
  | .reject_user user_id => do
    let user ← s.permitted "users.write" caller
    let db ← user_service.reject_user s.auth user_id user.organization_id
    return ({ s with auth := db }).log user_id "reject_user" now
  | .set_active user_id is_active => do
    let user ← s.permitted "users.write" caller
    let s ← s.set_active user user_id is_active now
    return s.log user_id (if is_active then "activate_user" else "deactivate_user") now
  | .decide_signup user_id approved => do
    let _ ← s.require_super_admin caller
    let s ← s._decide user_id (if approved then .approved else .rejected)
    return s.log user_id (if approved then "approve_signup" else "reject_signup") now
  | .platform_set_active user_id is_active => do
    let user ← s.require_super_admin caller
    let target ← s._target_user user_id user
    return (s.setActive target.id is_active now).log target.id
      (if is_active then "platform_activate_user" else "platform_deactivate_user") now

/-- A request: a sign-up, or an act of someone who is signed in. -/
inductive Request
  | register (now : Time) (request : RegisterRequest)
  | act (caller : ℕ) (now : Time) (act : Act)

/-- Who asks, of those who are signed in. -/
def Request.caller : Request → Option ℕ
  | .register .. => none
  | .act caller .. => some caller

def Request.now : Request → Time
  | .register now _ => now
  | .act _ now _ => now

def answer (settings : SignupSettings) (s : Platform) : Request → Except AppException Platform
  | .register now request => s.register settings now request
  | .act caller now act => s.act caller now act

/-- One request after the other. One that raises leaves everything as it is. -/
def step (settings : SignupSettings) (s : Platform) (request : Request) : Option Platform :=
  match s.answer settings request with
  | .error _ => some s
  | .ok s' => some s'

end Platform

end PaCopilot
