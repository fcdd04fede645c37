/-
Roles and permissions: `auth_repository.py`, `require_permission`, and the two
ways a user gets a role (`assign_role` of `role_service.py`, `approve_user` of
`user_service.py`).

A user may hold any number of roles and a permission may be granted by any number
of them, so the join that `user_has_permission` counts has one row for each role
of the user that grants the permission. The accessor it reads the join with takes
at most one.
-/
import PaCopilot.Errors
import PaCopilot.Lib.Table

set_option autoImplicit false

namespace PaCopilot

open Table

/-! ## The tables -/

inductive RegistrationStatus
  | pending
  | approved
  | rejected
  deriving DecidableEq

def RegistrationStatus.text : RegistrationStatus → String
  | .pending => "pending"
  | .approved => "approved"
  | .rejected => "rejected"

structure User where
  id : ℕ
  organization_id : ℕ
  registration_status : RegistrationStatus
  deriving DecidableEq

/-- A role without an organization is a system-wide one. -/
structure Role where
  id : ℕ
  organization_id : Option ℕ
  name : String
  is_system : Bool
  deriving DecidableEq

structure Permission where
  id : ℕ
  code : String
  deriving DecidableEq

structure RolePermission where
  role_id : ℕ
  permission_id : ℕ
  deriving DecidableEq

structure UserRole where
  user_id : ℕ
  role_id : ℕ
  deriving DecidableEq

/-- The five tables under their primary keys and unique constraints. -/
structure AuthDb where
  users : List User
  roles : List Role
  permissions : List Permission
  role_permissions : List RolePermission
  user_roles : List UserRole
  users_id : Unique everyRow User.id users
  roles_id : Unique everyRow Role.id roles
  permissions_id : Unique everyRow Permission.id permissions
  permissions_code : Unique everyRow Permission.code permissions
  uq_role_permission : Unique everyRow id role_permissions
  uq_user_role : Unique everyRow id user_roles

/-- What SQLAlchemy raises for a second row. -/
def MultipleResultsFound : AppException := PythonError "MultipleResultsFound"

namespace AuthDb

/-- A new row of `user_roles`. -/
def insertUserRole (db : AuthDb) (user_role : UserRole) : Except AppException AuthDb :=
  match h : Table.insert everyRow id (PythonError "IntegrityError") db.user_roles user_role with
  | .error e => .error e
  | .ok rows => .ok { db with user_roles := rows, uq_user_role := db.uq_user_role.insert h }

/-- The user's new registration status. -/
def setRegistrationStatus (db : AuthDb) (user_id : ℕ) (status : RegistrationStatus) : AuthDb :=
  let update (u : User) : User :=
    if u.id = user_id then { u with registration_status := status } else u
  { db with
    users := db.users.map update
    users_id := db.users_id.map (fun _ _ _ => rfl) fun u _ _ => by
      show (if u.id = user_id then { u with registration_status := status } else u).id = u.id
      split <;> rfl }

end AuthDb

namespace user_repository

def get_by_id (db : AuthDb) (user_id : ℕ) : Except AppException (Option User) :=
  scalar_one_or_none MultipleResultsFound (db.users.filter fun u => u.id = user_id)

end user_repository

namespace role_repository

def get_by_id (db : AuthDb) (role_id : ℕ) : Except AppException (Option Role) :=
  scalar_one_or_none MultipleResultsFound (db.roles.filter fun r => r.id = role_id)

end role_repository

namespace user_role_repository

def get_by_user_and_role (db : AuthDb) (user_id role_id : ℕ) :
    Except AppException (Option UserRole) :=
  scalar_one_or_none MultipleResultsFound
    (db.user_roles.filter fun r => r.user_id = user_id ∧ r.role_id = role_id)

end user_role_repository

/-! ## `user_has_permission` -/

namespace auth_repository

/-- The join of permissions, their grants to roles, and the user's roles. -/
def permissionRows (db : AuthDb) (user_id : ℕ) (code : String) :
    List ((Permission × RolePermission) × UserRole) :=
  (join (fun granted user_role => user_role.role_id = granted.2.role_id)
    (join (fun permission grant => grant.permission_id = permission.id)
      db.permissions db.role_permissions)
    db.user_roles).filter fun row => row.2.user_id = user_id ∧ row.1.1.code = code

def user_has_permission (db : AuthDb) (user_id : ℕ) (code : String) : Except AppException Bool :=
  (scalar_one_or_none MultipleResultsFound
    ((permissionRows db user_id code).map fun row => row.1.1.id)).map Option.isSome

end auth_repository

/-- `require_permission(code)`, of the user it lets through. -/
def require_permission (code : String) (db : AuthDb) (user_id : ℕ) : Except AppException ℕ := do
  let has_permission ← auth_repository.user_has_permission db user_id code
  refuse (has_permission = false) (PermissionDeniedException s!"Missing permission: {code}")
  return user_id

/-! ## Getting a role -/

namespace role_service

/-- The platform owner's role. -/
def SUPER_ADMIN_ROLE : String := "Super Admin"

/-- `is_super_admin`. The query stops at its first row, so this never raises. -/
def is_super_admin (db : AuthDb) (user_id : ℕ) : Bool :=
  (join (fun user_role role => role.id = user_role.role_id) db.user_roles db.roles).any
    fun (user_role, role) => user_role.user_id = user_id ∧ role.name = SUPER_ADMIN_ROLE
      ∧ role.is_system ∧ role.organization_id = none

def assign_role (db : AuthDb) (user_id role_id caller_organization_id : ℕ)
    (caller_user_id : Option ℕ) : Except AppException AuthDb := do
  let user ← user_repository.get_by_id db user_id
  refuse (user.map User.organization_id ≠ some caller_organization_id)
    (PermissionDeniedException "Cannot assign roles to a user outside your organization.")
  match ← role_repository.get_by_id db role_id with
  | none => .error (PermissionDeniedException "Cannot assign a role outside your organization.")
  | some role => do
    refuse (role.organization_id ≠ some caller_organization_id ∧ role.organization_id ≠ none)
      (PermissionDeniedException "Cannot assign a role outside your organization.")
    refuse (role.is_system ∧ role.name = SUPER_ADMIN_ROLE
        ∧ (caller_user_id.map (is_super_admin db)).getD false = false)
      (PermissionDeniedException "Only a Super Admin can grant the Super Admin role.")
    match ← user_role_repository.get_by_user_and_role db user_id role_id with
    -- the user has it already
    | some _ => return db
    | none => db.insertUserRole ⟨user_id, role_id⟩

end role_service

namespace user_service

def _get_pending_user (db : AuthDb) (user_id caller_organization_id : ℕ) :
    Except AppException User := do
  match ← user_repository.get_by_id db user_id with
  | none => .error (NotFoundException "User not found.")
  | some user => do
    refuse (user.organization_id ≠ caller_organization_id)
      (NotFoundException "User not found.")
    refuse (user.registration_status ≠ .pending)
      (ConflictException s!"This request was already {user.registration_status.text}.")
    return user

def approve_user (db : AuthDb) (user_id caller_organization_id : ℕ) (role_id : Option ℕ)
    (caller_user_id : Option ℕ) : Except AppException AuthDb := do
  let user ← _get_pending_user db user_id caller_organization_id
  let db := db.setRegistrationStatus user.id .approved
  match role_id with
  | none => return db
  | some role_id =>
    role_service.assign_role db user.id role_id caller_organization_id caller_user_id

end user_service

/-! ## What access is -/

/-- The role grants a permission with that code. -/
def AuthDb.Grants (db : AuthDb) (role_id : ℕ) (code : String) : Prop :=
  ∃ permission ∈ db.permissions, permission.code = code ∧
    ⟨role_id, permission.id⟩ ∈ db.role_permissions

/-- The user holds the role. -/
def AuthDb.Holds (db : AuthDb) (user_id role_id : ℕ) : Prop := ⟨user_id, role_id⟩ ∈ db.user_roles

/-- Some role of the user's grants the permission. -/
def AuthDb.Granted (db : AuthDb) (user_id : ℕ) (code : String) : Prop :=
  ∃ role_id, db.Holds user_id role_id ∧ db.Grants role_id code

/-- No two roles of the user's grant the permission. -/
def AuthDb.GrantedOnce (db : AuthDb) (user_id : ℕ) (code : String) : Prop :=
  ∀ r r', db.Holds user_id r → db.Grants r code → db.Holds user_id r' → db.Grants r' code → r = r'

namespace auth_repository

variable {db : AuthDb} {user_id : ℕ} {code : String}

theorem mem_permissionRows {p : Permission} {g : RolePermission} {ur : UserRole} :
    ((p, g), ur) ∈ permissionRows db user_id code ↔
      p ∈ db.permissions ∧ p.code = code ∧ g ∈ db.role_permissions ∧ g.permission_id = p.id ∧
        ur ∈ db.user_roles ∧ ur.role_id = g.role_id ∧ ur.user_id = user_id := by
  rw [permissionRows, List.mem_filter, mem_join, mem_join]
  simp only [decide_eq_true_eq]
  tauto

theorem nodup_permissionRows (db : AuthDb) (user_id : ℕ) (code : String) :
    (permissionRows db user_id code).Nodup := by
  apply List.Nodup.filter
  apply nodup_join
  · exact nodup_join (db.permissions_id.nodup fun _ _ => rfl)
      (db.uq_role_permission.nodup fun _ _ => rfl)
  · exact db.uq_user_role.nodup fun _ _ => rfl

/-- A row of the join says that a role of the user's grants the permission. -/
theorem granted_of_mem {row : (Permission × RolePermission) × UserRole}
    (h : row ∈ permissionRows db user_id code) :
    db.Holds user_id row.2.role_id ∧ db.Grants row.2.role_id code := by
  obtain ⟨⟨p, g⟩, ur⟩ := row
  obtain ⟨hp, hcode, hg, hperm, hur, hrole, huser⟩ := mem_permissionRows.mp h
  refine ⟨?_, p, hp, hcode, ?_⟩
  · show (⟨user_id, ur.role_id⟩ : UserRole) ∈ db.user_roles
    rw [← huser]
    exact hur
  · show (⟨ur.role_id, p.id⟩ : RolePermission) ∈ db.role_permissions
    rw [hrole, ← hperm]
    exact hg

/-- Each granting role of the user's has a row. -/
theorem mem_of_granted {role_id : ℕ} (hholds : db.Holds user_id role_id)
    (hgrants : db.Grants role_id code) :
    ∃ row ∈ permissionRows db user_id code, row.2.role_id = role_id := by
  obtain ⟨p, hp, hcode, hg⟩ := hgrants
  exact ⟨((p, ⟨role_id, p.id⟩), ⟨user_id, role_id⟩),
    mem_permissionRows.mpr ⟨hp, hcode, hg, rfl, hholds, rfl, rfl⟩, rfl⟩

/-- Two rows of one role are the same row: the code names one permission. -/
theorem row_eq {row row' : (Permission × RolePermission) × UserRole}
    (h : row ∈ permissionRows db user_id code) (h' : row' ∈ permissionRows db user_id code)
    (hrole : row.2.role_id = row'.2.role_id) : row = row' := by
  obtain ⟨⟨p, ⟨gr, gp⟩⟩, ⟨uu, ur⟩⟩ := row
  obtain ⟨⟨p', ⟨gr', gp'⟩⟩, ⟨uu', ur'⟩⟩ := row'
  obtain ⟨hp, hcode, -, hperm, -, hr, huser⟩ := mem_permissionRows.mp h
  obtain ⟨hp', hcode', -, hperm', -, hr', huser'⟩ := mem_permissionRows.mp h'
  have hpp : p = p' := db.permissions_code.eq hp hp' rfl rfl (hcode.trans hcode'.symm)
  subst hpp
  dsimp only at hrole hperm hperm' hr hr' huser huser'
  rw [← hr, ← hr', hperm, hperm', huser, huser', hrole]

/-- The join has at most one row exactly when at most one role grants. -/
theorem permissionRows_length_iff :
    (permissionRows db user_id code).length ≤ 1 ↔ db.GrantedOnce user_id code := by
  rw [length_le_one_iff (nodup_permissionRows db user_id code)]
  constructor
  · intro h r r' hr hg hr' hg'
    obtain ⟨row, hrow, rfl⟩ := mem_of_granted hr hg
    obtain ⟨row', hrow', rfl⟩ := mem_of_granted hr' hg'
    rw [h row hrow row' hrow']
  · intro h row hrow row' hrow'
    obtain ⟨hr, hg⟩ := granted_of_mem hrow
    obtain ⟨hr', hg'⟩ := granted_of_mem hrow'
    exact row_eq hrow hrow' (h _ _ hr hg hr' hg')

theorem granted_iff : db.Granted user_id code ↔ permissionRows db user_id code ≠ [] := by
  constructor
  · rintro ⟨role_id, hholds, hgrants⟩ hnil
    obtain ⟨row, hrow, -⟩ := mem_of_granted hholds hgrants
    rw [hnil] at hrow
    cases hrow
  · intro hne
    obtain ⟨row, hrow⟩ := List.exists_mem_of_ne_nil _ hne
    exact ⟨_, granted_of_mem hrow⟩

/-- `user_has_permission` answers when at most one role grants, and then rightly. -/
theorem user_has_permission_eq_ok_iff {b : Bool} :
    user_has_permission db user_id code = .ok b ↔
      db.GrantedOnce user_id code ∧ (b = true ↔ db.Granted user_id code) := by
  rw [user_has_permission, map_eq_ok_iff, ← permissionRows_length_iff, granted_iff]
  simp only [scalar_one_or_none_eq_ok_iff, List.length_map]
  constructor
  · rintro ⟨x, ⟨hlen, hhead⟩, rfl⟩
    refine ⟨hlen, ?_⟩
    rw [← hhead]
    rcases permissionRows db user_id code with _ | ⟨row, rows⟩ <;> simp
  · rintro ⟨hlen, hb⟩
    refine ⟨_, ⟨hlen, rfl⟩, ?_⟩
    rw [Bool.eq_iff_iff, hb]
    rcases permissionRows db user_id code with _ | ⟨row, rows⟩ <;> simp

/-- Some role grants and the check says so: exactly one role does. -/
theorem has_permission_iff :
    user_has_permission db user_id code = .ok true ↔
      db.GrantedOnce user_id code ∧ db.Granted user_id code := by
  rw [user_has_permission_eq_ok_iff]
  simp

end auth_repository

/-! ## What another role does -/

/-- `db'` is `db` with one more role of the user's, or the same if the user has
it. -/
structure AuthDb.Assigned (db db' : AuthDb) (user_id role_id : ℕ) : Prop where
  permissions : db'.permissions = db.permissions
  role_permissions : db'.role_permissions = db.role_permissions
  user_roles : ∀ r, r ∈ db'.user_roles ↔ r ∈ db.user_roles ∨ r = ⟨user_id, role_id⟩

section Assigned

variable {db db' : AuthDb} {user_id role_id : ℕ}

theorem insertUserRole_assigned (h : db.insertUserRole ⟨user_id, role_id⟩ = .ok db') :
    db.Assigned db' user_id role_id := by
  unfold AuthDb.insertUserRole at h
  split at h
  · cases h
  · rename_i rows hinsert
    rw [Except.ok.injEq] at h
    have hrows := insert_eq_ok hinsert
    subst h
    refine ⟨rfl, rfl, fun r => ?_⟩
    show r ∈ rows ↔ _
    rw [hrows, List.mem_append, List.mem_singleton]

/-- A user who has the role already keeps what there was. -/
theorem held_assigned {r : UserRole} (hr : r ∈ db.user_roles)
    (heq : r.user_id = user_id ∧ r.role_id = role_id) : db.Assigned db user_id role_id := by
  have hr' : r = ⟨user_id, role_id⟩ := by
    rcases r with ⟨u, q⟩
    rw [← heq.1, ← heq.2]
  refine ⟨rfl, rfl, fun q => ⟨.inl, ?_⟩⟩
  rintro (hq | rfl)
  · exact hq
  · rw [← hr']
    exact hr

theorem role_service.assign_role_assigned {caller_organization_id : ℕ}
    {caller_user_id : Option ℕ}
    (h : assign_role db user_id role_id caller_organization_id caller_user_id = .ok db') :
    db.Assigned db' user_id role_id := by
  rw [assign_role, bind_eq_ok_iff] at h
  obtain ⟨user, -, h⟩ := h
  rw [bind_eq_ok_iff] at h
  obtain ⟨-, -, h⟩ := h
  rw [bind_eq_ok_iff] at h
  obtain ⟨role, -, h⟩ := h
  rcases role with _ | role
  · cases h
  dsimp only at h
  rw [bind_eq_ok_iff] at h
  obtain ⟨-, -, h⟩ := h
  rw [bind_eq_ok_iff] at h
  obtain ⟨-, -, h⟩ := h
  rw [bind_eq_ok_iff] at h
  obtain ⟨existing, hexisting, h⟩ := h
  rcases existing with _ | existing
  · exact insertUserRole_assigned h
  · have hhead := (scalar_one_or_none_eq_ok_iff.mp hexisting).2
    have hmem := List.mem_of_head? hhead
    rw [List.mem_filter, decide_eq_true_eq] at hmem
    cases h
    exact held_assigned hmem.1 hmem.2

theorem user_service.approve_user_assigned {caller_organization_id : ℕ}
    {caller_user_id : Option ℕ}
    (h : approve_user db user_id caller_organization_id (some role_id) caller_user_id = .ok db') :
    db.Assigned db' user_id role_id := by
  rw [approve_user, bind_eq_ok_iff] at h
  obtain ⟨user, hpending, h⟩ := h
  have hid : user.id = user_id := by
    rw [_get_pending_user, bind_eq_ok_iff] at hpending
    obtain ⟨found, hfound, hpending⟩ := hpending
    rcases found with _ | found
    · cases hpending
    dsimp only at hpending
    rw [bind_eq_ok_iff] at hpending
    obtain ⟨-, -, hpending⟩ := hpending
    rw [bind_eq_ok_iff] at hpending
    obtain ⟨-, -, hpending⟩ := hpending
    cases hpending
    have hmem := List.mem_of_head? (scalar_one_or_none_eq_ok_iff.mp hfound).2
    rw [List.mem_filter, decide_eq_true_eq] at hmem
    exact hmem.2
  rw [hid] at h
  dsimp only at h
  -- approving touches the user's row only
  have hassigned := role_service.assign_role_assigned h
  exact ⟨hassigned.permissions, hassigned.role_permissions, hassigned.user_roles⟩

variable {code : String}

theorem AuthDb.Assigned.grants (h : db.Assigned db' user_id role_id) {r : ℕ} :
    db'.Grants r code ↔ db.Grants r code := by
  rw [Grants, Grants, h.permissions, h.role_permissions]

theorem AuthDb.Assigned.holds (h : db.Assigned db' user_id role_id) {r : ℕ} :
    db'.Holds user_id r ↔ db.Holds user_id r ∨ r = role_id := by
  rw [Holds, h.user_roles, UserRole.mk.injEq]
  simp [Holds]

/-- Access survives another role exactly when that role does not grant it too. -/
theorem AuthDb.Assigned.has_permission_iff (h : db.Assigned db' user_id role_id)
    (hbefore : auth_repository.user_has_permission db user_id code = .ok true) :
    auth_repository.user_has_permission db' user_id code = .ok true ↔
      db.Holds user_id role_id ∨ ¬ db.Grants role_id code := by
  obtain ⟨honce, r₀, hholds, hgrants⟩ := auth_repository.has_permission_iff.mp hbefore
  rw [auth_repository.has_permission_iff]
  constructor
  · rintro ⟨honce', -⟩
    by_cases hgrant : db.Grants role_id code
    · have hsame := honce' r₀ role_id (h.holds.mpr (.inl hholds)) (h.grants.mpr hgrants)
        (h.holds.mpr (.inr rfl)) (h.grants.mpr hgrant)
      rw [← hsame]
      exact .inl hholds
    · exact .inr hgrant
  · intro hcond
    -- whichever role of `db'` grants, the user held it before
    have hheld : ∀ r, db'.Holds user_id r → db'.Grants r code → db.Holds user_id r := by
      intro r hr hg
      rcases h.holds.mp hr with hr | rfl
      · exact hr
      · rcases hcond with hheld | hnot
        · exact hheld
        · exact absurd (h.grants.mp hg) hnot
    refine ⟨?_, r₀, h.holds.mpr (.inl hholds), h.grants.mpr hgrants⟩
    intro r r' hr hg hr' hg'
    exact honce r r' (hheld r hr hg) (h.grants.mp hg) (hheld r' hr' hg') (h.grants.mp hg')

end Assigned

/-- **The permission check answers, and rightly, exactly when at most one role of
the user's grants the permission**; and a user who has access keeps it through
another role exactly when that role was already held or does not grant the
permission as well. -/
theorem permission_check_iff (db : AuthDb) (user_id : ℕ) (code : String) :
    ((∃ b, auth_repository.user_has_permission db user_id code = .ok b ∧
          (b = true ↔ db.Granted user_id code))
        ↔ db.GrantedOnce user_id code) ∧
      ∀ role_id caller_organization_id caller_user_id db',
        (role_service.assign_role db user_id role_id caller_organization_id caller_user_id
              = .ok db' ∨
            user_service.approve_user db user_id caller_organization_id (some role_id)
              caller_user_id = .ok db') →
          auth_repository.user_has_permission db user_id code = .ok true →
          (auth_repository.user_has_permission db' user_id code = .ok true ↔
            db.Holds user_id role_id ∨ ¬ db.Grants role_id code) := by
  constructor
  · constructor
    · rintro ⟨b, hb, -⟩
      exact (auth_repository.user_has_permission_eq_ok_iff.mp hb).1
    · intro honce
      by_cases hgranted : db.Granted user_id code
      · have hb : true = true ↔ db.Granted user_id code := iff_of_true rfl hgranted
        exact ⟨true, auth_repository.user_has_permission_eq_ok_iff.mpr ⟨honce, hb⟩, hb⟩
      · have hb : false = true ↔ db.Granted user_id code := iff_of_false (by simp) hgranted
        exact ⟨false, auth_repository.user_has_permission_eq_ok_iff.mpr ⟨honce, hb⟩, hb⟩
  · rintro role_id caller_organization_id caller_user_id db' (hassign | happrove) hbefore
    · exact (role_service.assign_role_assigned hassign).has_permission_iff hbefore
    · exact (user_service.approve_user_assigned happrove).has_permission_iff hbefore

/-! ## An administrator who is also an analyst -/

/-- One user, and two roles of the same organization that both may deploy. -/
def twoRoles : AuthDb where
  users := [⟨7, 1, .approved⟩]
  roles := [⟨1, none, "Admin", true⟩, ⟨2, none, "Analyst", true⟩]
  permissions := [⟨1, "tm1.deploy"⟩]
  role_permissions := [⟨1, 1⟩, ⟨2, 1⟩]
  user_roles := [⟨7, 1⟩]
  users_id := by decide
  roles_id := by decide
  permissions_id := by decide
  permissions_code := by decide
  uq_role_permission := by decide
  uq_user_role := by decide

/-- The administrator's access is there. -/
example : auth_repository.user_has_permission twoRoles 7 "tm1.deploy" = .ok true := by
  decide

/-- **A role that takes access away.** The administrator is made an analyst as
well, and the check that let them through raises. -/
theorem second_role_locks_out :
    ∃ db', role_service.assign_role twoRoles 7 2 1 none = .ok db' ∧
      auth_repository.user_has_permission twoRoles 7 "tm1.deploy" = .ok true ∧
      auth_repository.user_has_permission db' 7 "tm1.deploy" = .error MultipleResultsFound :=
  ⟨_, rfl, rfl, rfl⟩

end PaCopilot
