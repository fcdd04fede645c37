/-
What a request of the administration does, said once.

A request that is carried out is one of a few deeds ([`Platform.Effect`]): it edits one role of
the caller's organization, or one account of it, or, of a Super Admin's, any account, or it is a
sign-up. That it can be no more rests on two facts about the tables, which every deed keeps
([`Platform.Sound`]): a role that belongs to no organization is a system role, and a role of an
organization is held by its members only.
-/
import PaCopilot.Auth.Administration

set_option autoImplicit false

namespace PaCopilot

open Table
open reports (Time)

/-- A role without an organization is a system role, and who holds a role is there, and in the
role's organization if it has one. -/
structure Platform.Sound (s : Platform) : Prop where
  system : ∀ role ∈ s.auth.roles, role.organization_id = none → role.is_system = true
  held : ∀ r ∈ s.auth.user_roles, ∃ user ∈ s.auth.users, user.id = r.user_id ∧
    ∃ role ∈ s.auth.roles, role.id = r.role_id ∧
      (role.organization_id = none ∨ role.organization_id = some user.organization_id)

/-! ## What a deed changes -/

/-- The role of the platform's owner. -/
def Role.SuperAdmin (role : Role) : Prop :=
  role.is_system = true ∧ role.name = role_service.SUPER_ADMIN_ROLE

/-- The tables after an edit of one role of the organization: made, renamed, deleted, or
granted another permission or one less. -/
structure AuthDb.RoleEdit (organization_id role_id : ℕ) (db db' : AuthDb) : Prop where
  users : db'.users = db.users
  permissions : db'.permissions = db.permissions
  owned : ∀ role ∈ db.roles, role.id = role_id →
    role.organization_id = some organization_id ∧ role.is_system = false
  written : ∀ role ∈ db'.roles, role.id = role_id →
    role.organization_id = some organization_id ∧ role.is_system = false
  roles : ∀ role : Role, role.id ≠ role_id → (role ∈ db'.roles ↔ role ∈ db.roles)
  grants : ∀ g : RolePermission, g.role_id ≠ role_id →
    (g ∈ db'.role_permissions ↔ g ∈ db.role_permissions)
  holders : ∀ r : UserRole, r.role_id ≠ role_id → (r ∈ db'.user_roles ↔ r ∈ db.user_roles)
  kept : ∀ r ∈ db'.user_roles, r ∈ db.user_roles ∧
    (r.role_id = role_id → ∃ role ∈ db'.roles, role.id = role_id)

/-- The tables after an edit of one account: its status, and whether it holds one role. -/
structure AuthDb.AccountEdit (user_id : ℕ) (role_id : Option ℕ) (db db' : AuthDb) : Prop where
  roles : db'.roles = db.roles
  permissions : db'.permissions = db.permissions
  role_permissions : db'.role_permissions = db.role_permissions
  users : ∃ status : User → RegistrationStatus, db'.users = db.users.map fun u =>
    if u.id = user_id then { u with registration_status := status u } else u
  user_roles : ∀ r : UserRole, role_id.map (UserRole.mk user_id) ≠ some r →
    (r ∈ db'.user_roles ↔ r ∈ db.user_roles)

namespace AuthDb

variable {db db' : AuthDb} {organization_id role_id user_id : ℕ} {role : Role} {user : User}

/-- A row that was inserted was not there. -/
theorem ne_of_insert {α Key : Type} [DecidableEq Key] {key : α → Key} {rows rows' : List α} {x : α}
    {taken : AppException} (h : Table.insert everyRow key taken rows x = .ok rows') {y : α}
    (hy : y ∈ rows) : key y ≠ key x := by
  intro hkey
  have herror : Table.insert everyRow key taken rows x = .error taken :=
    insert_eq_error_iff.mpr ⟨rfl, rfl, y, hy, rfl, hkey⟩
  rw [h] at herror
  cases herror

/-- What an insertion of a role leaves: one row more, with an identifier of its own. -/
theorem insertRole_ok (h : db.insertRole role = .ok db') :
    (∀ r ∈ db.roles, r.id ≠ role.id) ∧ db'.roles = db.roles ++ [role] ∧ db'.users = db.users ∧
      db'.permissions = db.permissions ∧ db'.role_permissions = db.role_permissions ∧
      db'.user_roles = db.user_roles := by
  unfold insertRole at h
  split at h
  · cases h
  split at h
  · cases h
  · rename_i rows hinsert
    cases h
    exact ⟨fun r hr => ne_of_insert hinsert hr, insert_eq_ok hinsert, rfl, rfl, rfl, rfl⟩

theorem insertRole_edit (h : db.insertRole role = .ok db')
    (hrole : role.organization_id = some organization_id ∧ role.is_system = false)
    (hheld : ∀ r ∈ db.user_roles, ∃ role ∈ db.roles, role.id = r.role_id) :
    db.RoleEdit organization_id role.id db' := by
  obtain ⟨hnew, hroles, husers, hpermissions, hgrants, hholders⟩ := insertRole_ok h
  refine ⟨husers, hpermissions, fun r hr hid => absurd hid (hnew r hr), ?_, ?_, ?_, ?_, ?_⟩
  · intro r hr hid
    rw [hroles, List.mem_append, List.mem_singleton] at hr
    rcases hr with hr | rfl
    · exact absurd hid (hnew r hr)
    · exact hrole
  · intro r hid
    rw [hroles, List.mem_append, List.mem_singleton]
    exact or_iff_left fun heq => hid (by rw [heq])
  · intro g _
    rw [hgrants]
  · intro r _
    rw [hholders]
  · intro r hr
    rw [hholders] at hr
    refine ⟨hr, fun hid => ?_⟩
    -- nobody holds a role that is only being made
    obtain ⟨q, hq, hqid⟩ := hheld r hr
    exact absurd (hqid.trans hid) (hnew q hq)

theorem updateRole_edit (h : db.updateRole role = .ok db') (hmem : ∃ r ∈ db.roles, r.id = role.id)
    (hrole : role.organization_id = some organization_id ∧ role.is_system = false)
    (howned : ∀ r ∈ db.roles, r.id = role.id →
      r.organization_id = some organization_id ∧ r.is_system = false) :
    db.RoleEdit organization_id role.id db' := by
  unfold updateRole at h
  split at h
  · cases h
  · cases h
    refine ⟨rfl, rfl, howned, ?_, ?_, fun _ _ => Iff.rfl, fun _ _ => Iff.rfl, ?_⟩
    · intro r hr hid
      obtain ⟨q, hq, rfl⟩ := List.mem_map.mp hr
      by_cases hqid : q.id = role.id
      · rw [if_pos hqid]
        exact hrole
      · rw [if_neg hqid] at hid
        exact absurd hid hqid
    · intro r hid
      rw [List.mem_map]
      constructor
      · rintro ⟨q, hq, rfl⟩
        by_cases hqid : q.id = role.id
        · rw [if_pos hqid] at hid
          exact absurd rfl hid
        · rw [if_neg hqid]
          exact hq
      · intro hr
        exact ⟨r, hr, if_neg hid⟩
    · intro r hr
      refine ⟨hr, fun _ => ?_⟩
      obtain ⟨q, hq, hqid⟩ := hmem
      exact ⟨role, List.mem_map.mpr ⟨q, hq, if_pos hqid⟩, rfl⟩

theorem deleteRole_edit (howned : ∀ r ∈ db.roles, r.id = role_id →
      r.organization_id = some organization_id ∧ r.is_system = false) :
    db.RoleEdit organization_id role_id (db.deleteRole role_id) := by
  refine ⟨rfl, rfl, howned, ?_, ?_, ?_, ?_, ?_⟩
  · intro r hr hid
    have hne := (List.mem_filter.mp hr).2
    rw [decide_eq_true_eq] at hne
    exact absurd hid hne
  · intro r hid
    exact List.mem_filter.trans (and_iff_left (decide_eq_true hid))
  · intro g hid
    exact List.mem_filter.trans (and_iff_left (decide_eq_true hid))
  · intro r hid
    exact List.mem_filter.trans (and_iff_left (decide_eq_true hid))
  · intro r hr
    obtain ⟨hmem, hne⟩ := List.mem_filter.mp hr
    rw [decide_eq_true_eq] at hne
    exact ⟨hmem, fun hid => absurd hid hne⟩

/-- An edit of what a role grants leaves the rest. -/
theorem grants_edit (hroles : db'.roles = db.roles) (husers : db'.users = db.users)
    (hpermissions : db'.permissions = db.permissions) (hheld : db'.user_roles = db.user_roles)
    (hmem : ∃ r ∈ db.roles, r.id = role_id)
    (howned : ∀ r ∈ db.roles, r.id = role_id →
      r.organization_id = some organization_id ∧ r.is_system = false)
    (hgrants : ∀ g : RolePermission, g.role_id ≠ role_id →
      (g ∈ db'.role_permissions ↔ g ∈ db.role_permissions)) :
    db.RoleEdit organization_id role_id db' := by
  refine ⟨husers, hpermissions, howned, ?_, ?_, hgrants, ?_, ?_⟩
  · rw [hroles]
    exact howned
  · intro r _
    rw [hroles]
  · intro r _
    rw [hheld]
  · intro r hr
    rw [hheld] at hr
    rw [hroles]
    exact ⟨hr, fun _ => hmem⟩

/-! ### Accounts -/

theorem AccountEdit.mem_of {edited : Option ℕ} (h : db.AccountEdit user_id edited db')
    (huser : user ∈ db.users) : ∃ u ∈ db'.users, u.id = user.id ∧
      u.organization_id = user.organization_id := by
  obtain ⟨status, husers⟩ := h.users
  rw [husers]
  refine ⟨_, List.mem_map.mpr ⟨user, huser, rfl⟩, ?_⟩
  split <;> exact ⟨rfl, rfl⟩

/-- The other accounts are as they were. -/
theorem AccountEdit.other {edited : Option ℕ} (h : db.AccountEdit user_id edited db')
    (huser : user ∈ db.users) (hid : user.id ≠ user_id) : user ∈ db'.users := by
  obtain ⟨status, husers⟩ := h.users
  rw [husers]
  exact List.mem_map.mpr ⟨user, huser, if_neg hid⟩

theorem setRegistrationStatus_edit (db : AuthDb) (user_id : ℕ) (status : RegistrationStatus) :
    db.AccountEdit user_id none (db.setRegistrationStatus user_id status) :=
  ⟨rfl, rfl, rfl, ⟨fun _ => status, rfl⟩, fun _ _ => Iff.rfl⟩

/-- Nothing of an account need change. -/
theorem AccountEdit.refl (db : AuthDb) (user_id : ℕ) (role_id : Option ℕ) :
    db.AccountEdit user_id role_id db := by
  refine ⟨rfl, rfl, rfl, ⟨User.registration_status, ?_⟩, fun _ _ => Iff.rfl⟩
  have hid : ∀ u : User, (if u.id = user_id then
      { u with registration_status := u.registration_status } else u) = u := by
    intro u
    split <;> rfl
  rw [List.map_congr_left fun u _ => hid u, List.map_id']

/-- A change of the status and then of a role held. -/
theorem AccountEdit.trans {db'' : AuthDb} {edited : Option ℕ} (h : db.AccountEdit user_id none db')
    (h' : db'.AccountEdit user_id edited db'') (hsame : db''.users = db'.users) :
    db.AccountEdit user_id edited db'' := by
  refine ⟨h'.roles.trans h.roles, h'.permissions.trans h.permissions,
    h'.role_permissions.trans h.role_permissions, ?_, ?_⟩
  · rw [hsame]
    exact h.users
  · intro r hr
    rw [h'.user_roles r hr]
    exact h.user_roles r fun heq => nomatch heq

end AuthDb

/-! ## What the services do -/

section Services

variable {db db' : AuthDb} {user_id role_id permission_id organization_id : ℕ} {role : Role}
  {user : User} {caller : Option ℕ}

theorem found_user (h : user_repository.get_by_id db user_id = .ok (some user)) :
    user ∈ db.users ∧ user.id = user_id := by
  obtain ⟨hmem, hid⟩ := mem_of_scalar h
  exact ⟨hmem, of_decide_eq_true hid⟩

theorem found_role (h : role_repository.get_by_id db role_id = .ok (some role)) :
    role ∈ db.roles ∧ role.id = role_id := by
  obtain ⟨hmem, hid⟩ := mem_of_scalar h
  exact ⟨hmem, of_decide_eq_true hid⟩

/-- A user who was found to be of the organization. -/
theorem member_of_found {found : Option User}
    (h : user_repository.get_by_id db user_id = .ok found)
    (horganization : ¬ found.map User.organization_id ≠ some organization_id) :
    ∃ user ∈ db.users, user.id = user_id ∧ user.organization_id = organization_id := by
  rcases found with _ | user
  · exact absurd nofun horganization
  · obtain ⟨hmem, hid⟩ := found_user h
    rw [not_ne_iff, Option.map_some, Option.some.injEq] at horganization
    exact ⟨user, hmem, hid, horganization⟩

namespace role_service

theorem get_role_ok (h : get_role db role_id organization_id = .ok role) :
    role ∈ db.roles ∧ role.id = role_id ∧
      (role.organization_id = none ∨ role.organization_id = some organization_id) := by
  rw [get_role, bind_eq_ok_iff] at h
  obtain ⟨found, hfound, h⟩ := h
  rcases found with _ | found
  · cases h
  obtain ⟨hvisible, h⟩ := passed_of_bind h
  cases h
  obtain ⟨hmem, hid⟩ := found_role hfound
  refine ⟨hmem, hid, ?_⟩
  by_cases hnone : role.organization_id = none
  · exact .inl hnone
  · exact .inr (not_not.mp fun hne => hvisible ⟨hne, hnone⟩)

/-- A role that passed `get_role` and is no system role belongs to the organization, and its
identifier is no other role's. -/
theorem owned_of_get_role (hsystem : ∀ role ∈ db.roles, role.organization_id = none →
      role.is_system = true) (h : get_role db role_id organization_id = .ok role)
    (hown : ¬ role.is_system = true) : ∀ r ∈ db.roles, r.id = role_id →
      r.organization_id = some organization_id ∧ r.is_system = false := by
  obtain ⟨hmem, hid, hvisible⟩ := get_role_ok h
  intro r hr hrid
  have hsame : r = role := db.roles_id.eq hr hmem rfl rfl (hrid.trans hid.symm)
  subst hsame
  rcases hvisible with hnone | hsome
  · exact absurd (hsystem r hr hnone) hown
  · exact ⟨hsome, Bool.eq_false_iff.mpr hown⟩

theorem create_role_edit {name : String}
    (h : create_role db role_id organization_id name false = .ok db')
    (hheld : ∀ r ∈ db.user_roles, ∃ role ∈ db.roles, role.id = r.role_id) :
    db.RoleEdit organization_id role_id db' := by
  rw [create_role, bind_eq_ok_iff] at h
  obtain ⟨_, -, h⟩ := h
  exact AuthDb.insertRole_edit (passed_of_bind h).2 ⟨rfl, rfl⟩ hheld

theorem update_role_edit {name : Option String}
    (hsystem : ∀ role ∈ db.roles, role.organization_id = none → role.is_system = true)
    (h : update_role db role_id organization_id name = .ok db') :
    db.RoleEdit organization_id role_id db' := by
  rw [update_role, bind_eq_ok_iff] at h
  obtain ⟨role, hrole, h⟩ := h
  obtain ⟨hown, h⟩ := passed_of_bind h
  have howned := owned_of_get_role hsystem hrole hown
  obtain ⟨hmem, rfl, -⟩ := get_role_ok hrole
  have hedit := AuthDb.updateRole_edit h ⟨role, hmem, rfl⟩ (howned role hmem rfl) howned
  exact hedit

theorem delete_role_edit
    (hsystem : ∀ role ∈ db.roles, role.organization_id = none → role.is_system = true)
    (h : delete_role db role_id organization_id = .ok db') :
    db.RoleEdit organization_id role_id db' := by
  rw [delete_role, bind_eq_ok_iff] at h
  obtain ⟨role, hrole, h⟩ := h
  obtain ⟨hown, h⟩ := passed_of_bind h
  have howned := owned_of_get_role hsystem hrole hown
  obtain ⟨-, rfl, -⟩ := get_role_ok hrole
  cases h
  exact AuthDb.deleteRole_edit howned

end role_service

/-- One row more of what a role grants, or none. -/
theorem permission_service.assign_permission_grants
    (h : assign_permission db role_id permission_id = .ok db') :
    db'.roles = db.roles ∧ db'.users = db.users ∧ db'.permissions = db.permissions ∧
      db'.user_roles = db.user_roles ∧ ∀ g : RolePermission, g.role_id ≠ role_id →
        (g ∈ db'.role_permissions ↔ g ∈ db.role_permissions) := by
  rw [assign_permission, bind_eq_ok_iff] at h
  obtain ⟨role, -, h⟩ := h
  rcases role with _ | role
  · cases h
  dsimp only at h
  rw [bind_eq_ok_iff] at h
  obtain ⟨permission, -, h⟩ := h
  rcases permission with _ | permission
  · cases h
  dsimp only at h
  rw [bind_eq_ok_iff] at h
  obtain ⟨existing, -, h⟩ := h
  rcases existing with _ | existing
  · dsimp only at h
    unfold AuthDb.insertRolePermission at h
    split at h
    · cases h
    · rename_i rows hinsert
      cases h
      refine ⟨rfl, rfl, rfl, rfl, fun g hg => ?_⟩
      show g ∈ rows ↔ _
      rw [insert_eq_ok hinsert, List.mem_append, List.mem_singleton]
      exact or_iff_left fun heq => hg (by rw [heq])
  · cases h
    exact ⟨rfl, rfl, rfl, rfl, fun _ _ => Iff.rfl⟩

theorem permission_service.remove_permission_grants
    (h : remove_permission db role_id permission_id = .ok db') :
    db'.roles = db.roles ∧ db'.users = db.users ∧ db'.permissions = db.permissions ∧
      db'.user_roles = db.user_roles ∧ ∀ g : RolePermission, g.role_id ≠ role_id →
        (g ∈ db'.role_permissions ↔ g ∈ db.role_permissions) := by
  rw [remove_permission, bind_eq_ok_iff] at h
  obtain ⟨existing, hexisting, h⟩ := h
  rcases existing with _ | existing
  · cases h
  · obtain ⟨-, hrow⟩ := mem_of_scalar hexisting
    rw [decide_eq_true_eq] at hrow
    cases h
    refine ⟨rfl, rfl, rfl, rfl, fun g hg => List.mem_filter.trans (and_iff_left ?_)⟩
    exact decide_eq_true fun heq => hg (by rw [heq, hrow.1])

/-- Who holds a role after an insertion that was taken. -/
theorem AuthDb.insertUserRole_ok {r : UserRole} (h : db.insertUserRole r = .ok db') :
    db'.users = db.users ∧ db'.roles = db.roles ∧ db'.permissions = db.permissions ∧
      db'.role_permissions = db.role_permissions ∧ db'.user_roles = db.user_roles ++ [r] := by
  unfold insertUserRole at h
  split at h
  · cases h
  · rename_i rows hinsert
    cases h
    exact ⟨rfl, rfl, rfl, rfl, insert_eq_ok hinsert⟩

theorem AuthDb.insertUserRole_edit (h : db.insertUserRole ⟨user_id, role_id⟩ = .ok db') :
    db.AccountEdit user_id (some role_id) db' ∧ db'.users = db.users ∧
      ∀ r ∈ db'.user_roles, r ∈ db.user_roles ∨ r = ⟨user_id, role_id⟩ := by
  obtain ⟨husers, hroles, hpermissions, hgrants, hheld⟩ := insertUserRole_ok h
  obtain ⟨-, -, -, status, -⟩ := AuthDb.AccountEdit.refl db user_id none
  refine ⟨⟨hroles, hpermissions, hgrants, ?_, ?_⟩, husers, ?_⟩
  · rw [husers]
    exact status
  · intro r hr
    rw [hheld, List.mem_append, List.mem_singleton]
    exact or_iff_left fun heq => hr (by rw [heq]; rfl)
  · intro r hr
    rw [hheld, List.mem_append, List.mem_singleton] at hr
    exact hr

/-- What `assign_role` leaves: a member of the caller's organization who holds a role that
the organization has, and the Super Admin's only from a Super Admin. -/
theorem role_service.assign_role_ok
    (h : assign_role db user_id role_id organization_id caller = .ok db') :
    (∃ user ∈ db.users, user.id = user_id ∧ user.organization_id = organization_id) ∧
      (∃ role ∈ db.roles, role.id = role_id ∧
        (role.organization_id = none ∨ role.organization_id = some organization_id) ∧
        (role.SuperAdmin → (caller.map (is_super_admin db)).getD false = true)) ∧
      db.AccountEdit user_id (some role_id) db' ∧ db'.users = db.users ∧
      ∀ r ∈ db'.user_roles, r ∈ db.user_roles ∨ r = ⟨user_id, role_id⟩ := by
  rw [assign_role, bind_eq_ok_iff] at h
  obtain ⟨found, hfound, h⟩ := h
  obtain ⟨hmember, h⟩ := passed_of_bind h
  rw [bind_eq_ok_iff] at h
  obtain ⟨role, hrole, h⟩ := h
  rcases role with _ | role
  · cases h
  dsimp only at h
  obtain ⟨hvisible, h⟩ := passed_of_bind h
  obtain ⟨hguard, h⟩ := passed_of_bind h
  obtain ⟨hmem, hid⟩ := found_role hrole
  refine ⟨member_of_found hfound hmember, ⟨role, hmem, hid, ?_, ?_⟩, ?_⟩
  · by_cases hnone : role.organization_id = none
    · exact .inl hnone
    · exact .inr (not_not.mp fun hne => hvisible ⟨hne, hnone⟩)
  · rintro ⟨hsystem, hname⟩
    by_contra hnot
    exact hguard ⟨hsystem, hname, Bool.eq_false_iff.mpr hnot⟩
  · rw [bind_eq_ok_iff] at h
    obtain ⟨existing, -, h⟩ := h
    rcases existing with _ | existing
    · exact AuthDb.insertUserRole_edit h
    · cases h
      exact ⟨.refl _ _ _, rfl, fun r hr => .inl hr⟩

theorem role_service.remove_role_ok
    (h : remove_role db user_id role_id organization_id caller = .ok db') :
    (∃ user ∈ db.users, user.id = user_id ∧ user.organization_id = organization_id) ∧
      (∀ role ∈ db.roles, role.id = role_id → role.SuperAdmin →
        (caller.map (is_super_admin db)).getD false = true) ∧
      db.AccountEdit user_id (some role_id) db' ∧ ∀ r ∈ db'.user_roles, r ∈ db.user_roles := by
  rw [remove_role, bind_eq_ok_iff] at h
  obtain ⟨found, hfound, h⟩ := h
  obtain ⟨hmember, h⟩ := passed_of_bind h
  rw [bind_eq_ok_iff] at h
  obtain ⟨role, hrole, h⟩ := h
  obtain ⟨hguard, h⟩ := passed_of_bind h
  refine ⟨member_of_found hfound hmember, ?_, ?_⟩
  · rintro q hq hid ⟨hsystem, hname⟩
    by_contra hnot
    rcases role with _ | role
    · have hnone := none_of_scalar hrole hq
      rw [decide_eq_false_iff_not] at hnone
      exact hnone hid
    · obtain ⟨hmem, hrid⟩ := found_role hrole
      have hsame : q = role := db.roles_id.eq hq hmem rfl rfl (hid.trans hrid.symm)
      subst hsame
      exact hguard ⟨decide_eq_true ⟨hsystem, hname⟩, Bool.eq_false_iff.mpr hnot⟩
  · rw [bind_eq_ok_iff] at h
    obtain ⟨existing, hexisting, h⟩ := h
    rcases existing with _ | existing
    · cases h
    · obtain ⟨-, hrow⟩ := mem_of_scalar hexisting
      rw [decide_eq_true_eq] at hrow
      cases h
      obtain ⟨-, -, -, status, -⟩ := AuthDb.AccountEdit.refl db user_id none
      refine ⟨⟨rfl, rfl, rfl, status, fun r hr => List.mem_filter.trans (and_iff_left ?_)⟩,
        fun r hr => (List.mem_filter.mp hr).1⟩
      refine decide_eq_true fun heq => hr ?_
      rw [heq, Option.map_some, ← hrow.1, ← hrow.2]

namespace user_service

theorem _get_pending_user_ok (h : _get_pending_user db user_id organization_id = .ok user) :
    user ∈ db.users ∧ user.id = user_id ∧ user.organization_id = organization_id := by
  rw [_get_pending_user, bind_eq_ok_iff] at h
  obtain ⟨found, hfound, h⟩ := h
  rcases found with _ | found
  · cases h
  dsimp only at h
  obtain ⟨horganization, h⟩ := passed_of_bind h
  cases (passed_of_bind h).2
  obtain ⟨hmem, hid⟩ := found_user hfound
  exact ⟨hmem, hid, not_ne_iff.mp horganization⟩

/-- What `approve_user` leaves: a member of the caller's organization, who may hold one role
more. -/
theorem approve_user_ok {role_id : Option ℕ}
    (h : approve_user db user_id organization_id role_id caller = .ok db') :
    (∃ user ∈ db.users, user.id = user_id ∧ user.organization_id = organization_id) ∧
      (∀ id, role_id = some id → ∃ role ∈ db.roles, role.id = id ∧
        (role.organization_id = none ∨ role.organization_id = some organization_id) ∧
        (role.SuperAdmin → (caller.map (role_service.is_super_admin db)).getD false = true)) ∧
      db.AccountEdit user_id role_id db' ∧
      ∀ r ∈ db'.user_roles, r ∈ db.user_roles ∨ role_id.map (UserRole.mk user_id) = some r := by
  rw [approve_user, bind_eq_ok_iff] at h
  obtain ⟨user, hpending, h⟩ := h
  obtain ⟨hmem, rfl, horganization⟩ := _get_pending_user_ok hpending
  refine ⟨⟨user, hmem, rfl, horganization⟩, ?_⟩
  have hstatus := AuthDb.setRegistrationStatus_edit db user.id .approved
  rcases role_id with _ | role_id
  · cases h
    exact ⟨fun id hid => absurd hid.symm (Option.some_ne_none id), hstatus, fun r hr => .inl hr⟩
  · obtain ⟨-, hrole, hedit, husers, hheld⟩ := role_service.assign_role_ok h
    refine ⟨?_, hstatus.trans hedit husers, fun r hr => (hheld r hr).imp_right ?_⟩
    · rintro id ⟨⟩
      exact hrole
    · rintro rfl
      rfl

theorem reject_user_ok (h : reject_user db user_id organization_id = .ok db') :
    (∃ user ∈ db.users, user.id = user_id ∧ user.organization_id = organization_id) ∧
      db.AccountEdit user_id none db' := by
  rw [reject_user, bind_eq_ok_iff] at h
  obtain ⟨user, hpending, h⟩ := h
  obtain ⟨hmem, rfl, horganization⟩ := _get_pending_user_ok hpending
  cases h
  exact ⟨⟨user, hmem, rfl, horganization⟩, AuthDb.setRegistrationStatus_edit db user.id .rejected⟩

end user_service

end Services

/-! ## The deeds -/

namespace Platform

/-- The name of the role that a sign-up gives. -/
def signupRole (settings : SignupSettings) (name : String) : Prop :=
  name = WORKSPACE_OWNER_ROLE ∨
    name = String.ofList (Python.strip settings.DEFAULT_SIGNUP_ROLE.toList)

/-- What a request has done that was carried out, with the one who asked. -/
inductive Effect (settings : SignupSettings) (s : Platform) : Request → Platform → Prop
  /-- An edit of a role of the caller's organization. -/
  | role {caller : ℕ} {now : Time} {act : Act} {user : User} {role_id : ℕ} {db : AuthDb}
      {action : String} (huser : user ∈ s.auth.users) (hid : user.id = caller)
      (hedit : s.auth.RoleEdit user.organization_id role_id db)
      (haction : action ∉ platformActions) :
      Effect settings s (.act caller now act) (({ s with auth := db }).log role_id action now)
  /-- An edit of an account of the caller's organization. -/
  | account {caller : ℕ} {now : Time} {act : Act} {user target : User} {role_id : Option ℕ}
      {db : AuthDb} {action : String} (huser : user ∈ s.auth.users) (hid : user.id = caller)
      (htarget : target ∈ s.auth.users) (hmember : target.organization_id = user.organization_id)
      (hedit : s.auth.AccountEdit target.id role_id db)
      (hheld : ∀ r ∈ db.user_roles, r ∈ s.auth.user_roles ∨
        ∃ role ∈ s.auth.roles, r = ⟨target.id, role.id⟩ ∧
          (role.organization_id = none ∨ role.organization_id = some target.organization_id))
      (hguard : ∀ role ∈ s.auth.roles, role_id = some role.id → role.SuperAdmin →
        role_service.is_super_admin s.auth caller = true)
      (haction : action ∉ platformActions) :
      Effect settings s (.act caller now act) (({ s with auth := db }).log target.id action now)
  /-- An account of the caller's organization, not the caller's own, switched on or off. -/
  | active {caller : ℕ} {now : Time} {act : Act} {user target : User} {is_active : Bool}
      {action : String} (huser : user ∈ s.auth.users) (hid : user.id = caller)
      (htarget : target ∈ s.auth.users) (hmember : target.organization_id = user.organization_id)
      (hallowed : is_active = true → s._deactivated_by_platform target.id = false)
      (haction : action ∉ platformActions) :
      Effect settings s (.act caller now act)
        ((s.setActive target.id is_active now).log target.id action now)
  /-- A Super Admin's decision on a sign-up. -/
  | signup {caller : ℕ} {now : Time} {act : Act} {target_id : ℕ} {db : AuthDb} {action : String}
      (hsuper : role_service.is_super_admin s.auth caller = true)
      (hedit : s.auth.AccountEdit target_id none db) (haction : action ∉ platformActions) :
      Effect settings s (.act caller now act) (({ s with auth := db }).log target_id action now)
  /-- A Super Admin's decision on an account. -/
  | platform {caller : ℕ} {now : Time} {target_id : ℕ} {is_active : Bool}
      (hsuper : role_service.is_super_admin s.auth caller = true)
      (htarget : ∃ target ∈ s.auth.users, target.id = target_id) :
      Effect settings s (.act caller now (.platform_set_active target_id is_active))
        ((s.setActive target_id is_active now).log target_id
          (if is_active then "platform_activate_user" else "platform_deactivate_user") now)
  /-- A new account, with at most the role of a sign-up. -/
  | registered {now : Time} {request : RegisterRequest} {user : User} {db : AuthDb}
      {organizations : List Organization} (hnew : ∀ u ∈ s.auth.users, u.id ≠ user.id)
      (husers : db.users = s.auth.users ++ [user]) (hroles : db.roles = s.auth.roles)
      (hpermissions : db.permissions = s.auth.permissions)
      (hgrants : db.role_permissions = s.auth.role_permissions)
      (hkept : ∀ r ∈ s.auth.user_roles, r ∈ db.user_roles)
      (hheld : ∀ r ∈ db.user_roles, r ∈ s.auth.user_roles ∨
        ∃ role ∈ s.auth.roles, r = ⟨user.id, role.id⟩ ∧ role.organization_id = none ∧
          signupRole settings role.name) :
      Effect settings s (.register now request)
        (({ s with
            auth := db
            organizations := organizations
            is_active := Function.update s.is_active user.id true }).log user.id "register" now)

section Requests

variable {settings : SignupSettings} {s s' : Platform} {caller : ℕ} {now : Time} {user : User}

theorem get_current_active_user_ok (h : s.get_current_active_user caller = .ok user) :
    user ∈ s.auth.users ∧ user.id = caller ∧ s.is_active caller = true := by
  rw [get_current_active_user, bind_eq_ok_iff] at h
  obtain ⟨found, hfound, h⟩ := h
  rcases found with _ | found
  · cases h
  obtain ⟨-, h⟩ := passed_of_bind h
  obtain ⟨hactive, h⟩ := passed_of_bind h
  cases h
  obtain ⟨hmem, hid⟩ := found_user hfound
  exact ⟨hmem, hid, Bool.not_eq_false _ ▸ hactive⟩

theorem permitted_ok {code : String} (h : s.permitted code caller = .ok user) :
    user ∈ s.auth.users ∧ user.id = caller := by
  rw [permitted, bind_eq_ok_iff] at h
  obtain ⟨found, hfound, h⟩ := h
  rw [bind_eq_ok_iff] at h
  obtain ⟨_, -, h⟩ := h
  cases h
  obtain ⟨hmem, hid, -⟩ := get_current_active_user_ok hfound
  exact ⟨hmem, hid⟩

theorem require_super_admin_ok (h : s.require_super_admin caller = .ok user) :
    user ∈ s.auth.users ∧ user.id = caller ∧
      role_service.is_super_admin s.auth caller = true := by
  rw [require_super_admin, bind_eq_ok_iff] at h
  obtain ⟨found, hfound, h⟩ := h
  obtain ⟨hsuper, h⟩ := passed_of_bind h
  cases h
  obtain ⟨hmem, hid, -⟩ := get_current_active_user_ok hfound
  subst hid
  exact ⟨hmem, rfl, Bool.not_eq_false _ ▸ hsuper⟩

theorem onPermissions_edit (hs : s.Sound) {role_id : ℕ} {db : AuthDb}
    {service : AuthDb → Except AppException AuthDb}
    (hservice : service s.auth = .ok db → db.roles = s.auth.roles ∧ db.users = s.auth.users ∧
      db.permissions = s.auth.permissions ∧ db.user_roles = s.auth.user_roles ∧
      ∀ g : RolePermission, g.role_id ≠ role_id →
        (g ∈ db.role_permissions ↔ g ∈ s.auth.role_permissions))
    (h : s.onPermissions user role_id service = .ok db) :
    s.auth.RoleEdit user.organization_id role_id db := by
  rw [onPermissions, bind_eq_ok_iff] at h
  obtain ⟨role, hrole, h⟩ := h
  obtain ⟨hown, h⟩ := passed_of_bind h
  have howned := role_service.owned_of_get_role hs.system hrole hown
  obtain ⟨hmem, hid, -⟩ := role_service.get_role_ok hrole
  obtain ⟨hroles, husers, hpermissions, hheld, hgrants⟩ := hservice h
  exact AuthDb.grants_edit hroles husers hpermissions hheld ⟨role, hmem, hid⟩ howned hgrants

theorem set_active_ok {user_id : ℕ} {is_active : Bool}
    (h : s.set_active user user_id is_active now = .ok s') :
    ∃ target ∈ s.auth.users, target.id = user_id ∧
      target.organization_id = user.organization_id ∧
      (is_active = true → s._deactivated_by_platform target.id = false) ∧
      s' = s.setActive target.id is_active now := by
  unfold set_active at h
  obtain ⟨-, h⟩ := passed_of_bind h
  rw [bind_eq_ok_iff] at h
  obtain ⟨found, hfound, h⟩ := h
  rcases found with _ | target
  · cases h
  dsimp only at h
  obtain ⟨hmember, h⟩ := passed_of_bind h
  obtain ⟨hallowed, h⟩ := passed_of_bind h
  cases h
  obtain ⟨hmem, hid⟩ := found_user hfound
  exact ⟨target, hmem, hid, not_ne_iff.mp hmember,
    fun hon => Bool.eq_false_iff.mpr fun hoff => hallowed ⟨hon, hoff⟩, rfl⟩

/-- A route that returned has let its caller through, and its service has returned. -/
theorem route_ok {β : Type} {x : Except AppException User} {f : User → Except AppException β}
    {g : User → β → Platform} (h : (do let user ← x; let b ← f user; return g user b) = .ok s') :
    ∃ user b, x = .ok user ∧ f user = .ok b ∧ g user b = s' := by
  obtain ⟨user, huser, h⟩ := bind_eq_ok_iff.mp h
  obtain ⟨b, hb, h⟩ := bind_eq_ok_iff.mp h
  exact ⟨user, b, huser, hb, Except.ok.inj h⟩

/-- **What an act of someone who is signed in does.** -/
theorem act_effect (hs : s.Sound) {act : Act} (h : s.act caller now act = .ok s') :
    Effect settings s (.act caller now act) s' := by
  cases act with
  | create_role role_id name =>
    obtain ⟨user, db, huser, hdb, rfl⟩ := route_ok h
    obtain ⟨hmem, hid⟩ := permitted_ok huser
    refine .role hmem hid (role_service.create_role_edit hdb fun r hr => ?_) (by decide)
    obtain ⟨-, -, -, role, hrole, hrid, -⟩ := hs.held r hr
    exact ⟨role, hrole, hrid⟩
  | update_role role_id name =>
    obtain ⟨user, db, huser, hdb, rfl⟩ := route_ok h
    obtain ⟨hmem, hid⟩ := permitted_ok huser
    exact .role hmem hid (role_service.update_role_edit hs.system hdb) (by decide)
  | delete_role role_id =>
    obtain ⟨user, db, huser, hdb, rfl⟩ := route_ok h
    obtain ⟨hmem, hid⟩ := permitted_ok huser
    exact .role hmem hid (role_service.delete_role_edit hs.system hdb) (by decide)
  | assign_permission role_id permission_id =>
    obtain ⟨user, db, huser, hdb, rfl⟩ := route_ok h
    obtain ⟨hmem, hid⟩ := permitted_ok huser
    exact .role hmem hid
      (onPermissions_edit hs permission_service.assign_permission_grants hdb) (by decide)
  | remove_permission role_id permission_id =>
    obtain ⟨user, db, huser, hdb, rfl⟩ := route_ok h
    obtain ⟨hmem, hid⟩ := permitted_ok huser
    exact .role hmem hid
      (onPermissions_edit hs permission_service.remove_permission_grants hdb) (by decide)
  | assign_role user_id role_id =>
    obtain ⟨user, db, huser, hdb, rfl⟩ := route_ok h
    obtain ⟨hmem, rfl⟩ := permitted_ok huser
    obtain ⟨⟨target, htarget, rfl, hmember⟩, ⟨role, hrole, hrid, hown, hguard⟩, hedit, -, hheld⟩ :=
      role_service.assign_role_ok hdb
    refine .account hmem rfl htarget hmember hedit (fun r hr => (hheld r hr).imp_right ?_) ?_
      (by decide)
    · rintro rfl
      exact ⟨role, hrole, by rw [hrid], by rwa [hmember]⟩
    · rintro q hq heq hsuper
      have hsame : q = role :=
        s.auth.roles_id.eq hq hrole rfl rfl ((Option.some.inj heq).symm.trans hrid.symm)
      subst hsame
      exact hguard hsuper
  | remove_role user_id role_id =>
    obtain ⟨user, db, huser, hdb, rfl⟩ := route_ok h
    obtain ⟨hmem, rfl⟩ := permitted_ok huser
    obtain ⟨⟨target, htarget, rfl, hmember⟩, hguard, hedit, hheld⟩ :=
      role_service.remove_role_ok hdb
    refine .account hmem rfl htarget hmember hedit (fun r hr => .inl (hheld r hr)) ?_ (by decide)
    intro q hq heq hsuper
    exact hguard q hq (Option.some.inj heq).symm hsuper
  | approve_user user_id role_id =>
    obtain ⟨user, db, huser, hdb, rfl⟩ := route_ok h
    obtain ⟨hmem, rfl⟩ := permitted_ok huser
    obtain ⟨⟨target, htarget, rfl, hmember⟩, hrole, hedit, hheld⟩ :=
      user_service.approve_user_ok hdb
    refine .account hmem rfl htarget hmember hedit (fun r hr => (hheld r hr).imp_right ?_) ?_
      (by decide)
    · intro heq
      obtain ⟨id, rfl, rfl⟩ := Option.map_eq_some_iff.mp heq
      obtain ⟨role, hmem', rfl, hown, -⟩ := hrole id rfl
      exact ⟨role, hmem', rfl, by rwa [hmember]⟩
    · rintro q hq heq hsuper
      obtain ⟨role, hmem', hrid, -, hguard⟩ := hrole q.id heq
      have hsame : q = role := s.auth.roles_id.eq hq hmem' rfl rfl hrid.symm
      subst hsame
      exact hguard hsuper
  | reject_user user_id =>
    obtain ⟨user, db, huser, hdb, rfl⟩ := route_ok h
    obtain ⟨hmem, rfl⟩ := permitted_ok huser
    obtain ⟨⟨target, htarget, rfl, hmember⟩, hedit⟩ := user_service.reject_user_ok hdb
    exact .account hmem rfl htarget hmember hedit
      (fun r hr => .inl ((hedit.user_roles r nofun).mp hr)) nofun (by decide)
  | set_active user_id is_active =>
    obtain ⟨user, t, huser, ht, rfl⟩ := route_ok h
    obtain ⟨hmem, rfl⟩ := permitted_ok huser
    obtain ⟨target, htarget, rfl, hmember, hallowed, rfl⟩ := set_active_ok ht
    exact .active hmem rfl htarget hmember hallowed (by split <;> decide)
  | decide_signup user_id approved =>
    obtain ⟨user, t, huser, ht, rfl⟩ := route_ok h
    obtain ⟨-, -, hsuper⟩ := require_super_admin_ok huser
    rw [_decide, bind_eq_ok_iff] at ht
    obtain ⟨found, hfound, ht⟩ := ht
    rcases found with _ | target
    · cases ht
    cases (passed_of_bind ht).2
    obtain ⟨-, rfl⟩ := found_user hfound
    exact .signup hsuper (AuthDb.setRegistrationStatus_edit _ _ _) (by split <;> decide)
  | platform_set_active user_id is_active =>
    obtain ⟨user, target, huser, htarget, rfl⟩ := route_ok h
    obtain ⟨-, -, hsuper⟩ := require_super_admin_ok huser
    obtain ⟨-, htarget⟩ := passed_of_bind htarget
    rw [bind_eq_ok_iff] at htarget
    obtain ⟨found, hfound, htarget⟩ := htarget
    rcases found with _ | found
    · cases htarget
    cases htarget
    obtain ⟨hmem, rfl⟩ := found_user hfound
    exact .platform hsuper ⟨_, hmem, rfl⟩

/-- Where a sign-up leads to: an organization that there is, with the default role, or a new one
and the role of its owner. -/
theorem resolved_ok {request : RegisterRequest} {organization_id : ℕ} {role_name : Option String}
    (h : s._resolve_registration_organization request = .ok (s', organization_id, role_name)) :
    (∃ organizations, s' = { s with organizations := organizations }) ∧
      (role_name = none ∨ role_name = some WORKSPACE_OWNER_ROLE) := by
  unfold _resolve_registration_organization at h
  rcases hcode : request.organization_code with _ | code
  · rw [hcode] at h
    dsimp only at h
    rw [bind_eq_ok_iff] at h
    obtain ⟨t, ht, h⟩ := h
    cases h
    unfold insertOrganization at ht
    split at ht
    · cases ht
    · cases ht
      exact ⟨⟨_, rfl⟩, .inr rfl⟩
  · rw [hcode] at h
    dsimp only at h
    split at h
    · cases h
    · cases h
      exact ⟨⟨s.organizations, rfl⟩, .inl rfl⟩

theorem strip_owner :
    String.ofList (Python.strip WORKSPACE_OWNER_ROLE.toList) = WORKSPACE_OWNER_ROLE := by
  decide

/-- What the default role of a sign-up leaves: at most one role more, a system role by that
name. -/
theorem _grant_default_role_ok {db db' : AuthDb} {role_name : Option String}
    (hname : role_name = none ∨ role_name = some WORKSPACE_OWNER_ROLE)
    (h : _grant_default_role settings db user role_name = .ok db') :
    db'.users = db.users ∧ db'.roles = db.roles ∧ db'.permissions = db.permissions ∧
      db'.role_permissions = db.role_permissions ∧ (∀ r ∈ db.user_roles, r ∈ db'.user_roles) ∧
      ∀ r ∈ db'.user_roles, r ∈ db.user_roles ∨
        ∃ role ∈ db.roles, r = ⟨user.id, role.id⟩ ∧ role.organization_id = none ∧
          signupRole settings role.name := by
  have hkept : db.users = db.users ∧ db.roles = db.roles ∧ db.permissions = db.permissions ∧
      db.role_permissions = db.role_permissions ∧ (∀ r ∈ db.user_roles, r ∈ db.user_roles) ∧
      ∀ r ∈ db.user_roles, r ∈ db.user_roles ∨
        ∃ role ∈ db.roles, r = ⟨user.id, role.id⟩ ∧ role.organization_id = none ∧
          signupRole settings role.name :=
    ⟨rfl, rfl, rfl, rfl, fun _ hr => hr, fun _ hr => .inl hr⟩
  unfold _grant_default_role at h
  dsimp only at h
  split at h
  · cases h
    exact hkept
  rw [bind_eq_ok_iff] at h
  obtain ⟨found, hfound, h⟩ := h
  rcases found with _ | role
  · cases h
    exact hkept
  dsimp only at h
  rw [bind_eq_ok_iff] at h
  obtain ⟨existing, -, h⟩ := h
  rcases existing with _ | existing
  · obtain ⟨husers, hroles, hpermissions, hgrants, hheld⟩ := AuthDb.insertUserRole_ok h
    refine ⟨husers, hroles, hpermissions, hgrants, fun r hr => ?_, fun r hr => ?_⟩
    · rw [hheld]
      exact List.mem_append_left _ hr
    · rw [hheld, List.mem_append, List.mem_singleton] at hr
      refine hr.imp_right ?_
      rintro rfl
      obtain ⟨hmem, hrole⟩ := mem_of_scalar hfound
      rw [decide_eq_true_eq] at hrole
      refine ⟨role, hmem, rfl, hrole.1, ?_⟩
      -- the name that was looked up, with or without a workspace of one's own
      rcases hname with rfl | rfl
      · exact .inr hrole.2.1
      · exact .inl (hrole.2.1.trans strip_owner)
  · cases h
    exact hkept

theorem register_effect {request : RegisterRequest} (h : s.register settings now request = .ok s') :
    Effect settings s (.register now request) s' := by
  unfold register at h
  obtain ⟨⟨t, organization_id, role_name⟩, ht, h⟩ := bind_eq_ok_iff.mp h
  dsimp only at h
  obtain ⟨⟨organizations, rfl⟩, hname⟩ := resolved_ok ht
  obtain ⟨-, h⟩ := passed_of_bind h
  obtain ⟨-, h⟩ := passed_of_bind h
  rw [bind_eq_ok_iff] at h
  obtain ⟨added, hadded, h⟩ := h
  rw [bind_eq_ok_iff] at h
  obtain ⟨db, hdb, h⟩ := h
  cases h
  unfold AuthDb.insertUser at hadded
  split at hadded
  · cases hadded
  · rename_i rows hinsert
    cases hadded
    obtain ⟨husers, hroles, hpermissions, hgrants, hkept, hheld⟩ := _grant_default_role_ok hname hdb
    exact Effect.registered (s := s) (fun u hu => AuthDb.ne_of_insert hinsert hu)
      (husers.trans (insert_eq_ok hinsert)) hroles hpermissions hgrants hkept hheld

/-- **What a request does that was carried out.** -/
theorem answer_effect (hs : s.Sound) {request : Request}
    (h : s.answer settings request = .ok s') : Effect settings s request s' := by
  cases request with
  | register now request => exact register_effect h
  | act caller now act => exact act_effect hs h

end Requests

end Platform

end PaCopilot
