/-
What the administration keeps over any run of requests: who is a Super Admin, what the members
of an organization may do, and whom the platform's owner has shut out.

Each of the three is a case analysis over the deeds of [`Platform.Effect`], and then an induction
over the run. None of them looks at a route.
-/
import PaCopilot.Auth.Deeds

set_option autoImplicit false

namespace PaCopilot

open Table Run
open reports (Time)

/-! ## What is asked -/

namespace Platform

/-- What the scripts leave before the first request: the system roles, held by people that
there are, and no decisions. -/
structure Seeded (s : Platform) : Prop where
  roles : ∀ role ∈ s.auth.roles, role.organization_id = none ∧ role.is_system = true
  user_roles : ∀ r ∈ s.auth.user_roles,
    (∃ user ∈ s.auth.users, user.id = r.user_id) ∧ ∃ role ∈ s.auth.roles, role.id = r.role_id
  audit_log : s.audit_log = []

/-- The caller is a member of the organization or a Super Admin. -/
def Request.Inside (organization_id : ℕ) (s : Platform) (request : Request) : Prop :=
  ∃ caller, request.caller = some caller ∧
    ((∃ user ∈ s.auth.users, user.id = caller ∧ user.organization_id = organization_id) ∨
      role_service.is_super_admin s.auth caller = true)

instance (organization_id : ℕ) (s : Platform) (request : Request) :
    Decidable (request.Inside organization_id s) :=
  inferInstanceAs (Decidable (∃ caller ∈ request.caller,
    ((∃ user ∈ s.auth.users, user.id = caller ∧ user.organization_id = organization_id) ∨
      role_service.is_super_admin s.auth caller = true)))

/-- The request comes after everything that is on record. -/
def Request.Later (s : Platform) (request : Request) : Prop :=
  ∀ row ∈ s.audit_log, row.created_at < request.now

instance (s : Platform) (request : Request) : Decidable (request.Later s) :=
  inferInstanceAs (Decidable (∀ row ∈ s.audit_log, _))

/-- A platform with its owner and two workspaces, of one administrator each; the first has a
second member. -/
def twoWorkspaces : Platform where
  auth := {
    users := [⟨1, 1, .approved⟩, ⟨2, 2, .approved⟩, ⟨3, 3, .approved⟩, ⟨4, 2, .approved⟩]
    roles := [⟨1, none, "Super Admin", true⟩, ⟨2, none, "Organization Admin", true⟩,
      ⟨3, none, "Analyst", true⟩]
    permissions := [⟨1, "roles.write"⟩, ⟨2, "users.write"⟩]
    role_permissions := [⟨1, 1⟩, ⟨1, 2⟩, ⟨2, 1⟩, ⟨2, 2⟩]
    user_roles := [⟨1, 1⟩, ⟨2, 2⟩, ⟨3, 2⟩, ⟨4, 3⟩]
    users_id := by decide
    roles_id := by decide
    permissions_id := by decide
    permissions_code := by decide
    uq_role_permission := by decide
    uq_user_role := by decide }
  organizations := [⟨1, "platform"⟩, ⟨2, "acme"⟩, ⟨3, "globex"⟩]
  is_active _ := true
  tokens_valid_from _ := 0
  audit_log := []

/-- Who signs up becomes an analyst, and is let in at once. -/
def analysts : SignupSettings := ⟨"Analyst", true⟩

theorem twoWorkspaces_seeded : twoWorkspaces.Seeded :=
  ⟨by decide, by decide, rfl⟩

theorem Seeded.sound {s : Platform} (h : s.Seeded) : s.Sound := by
  refine ⟨fun role hrole _ => (h.roles role hrole).2, fun r hr => ?_⟩
  obtain ⟨⟨user, huser, huid⟩, role, hrole, hrid⟩ := h.user_roles r hr
  exact ⟨user, huser, huid, role, hrole, hrid, .inl (h.roles role hrole).1⟩

end Platform

/-! ## Soundness -/

section Sound

variable {s : Platform} {db : AuthDb} {organization_id role_id user_id : ℕ}

theorem AuthDb.RoleEdit.sound (hs : s.Sound) (h : s.auth.RoleEdit organization_id role_id db) :
    Platform.Sound { s with auth := db } := by
  constructor
  · intro role hrole hnone
    by_cases hid : role.id = role_id
    · rw [(h.written role hrole hid).1] at hnone
      cases hnone
    · exact hs.system role ((h.roles role hid).mp hrole) hnone
  · intro r hr
    obtain ⟨hold, hleft⟩ := h.kept r hr
    obtain ⟨user, huser, huid, role, hrole, hrid, hown⟩ := hs.held r hold
    refine ⟨user, (by rw [h.users]; exact huser), huid, ?_⟩
    by_cases hid : r.role_id = role_id
    · -- the role that was edited is the organization's before and after
      obtain ⟨role', hrole', hrid'⟩ := hleft hid
      have hbefore := (h.owned role hrole (hrid.trans hid)).1
      refine ⟨role', hrole', hrid'.trans hid.symm, .inr ?_⟩
      rcases hown with hnone | hsome
      · rw [hbefore] at hnone
        cases hnone
      · rw [(h.written role' hrole' hrid').1, ← hsome, hbefore]
    · have hkept := (h.roles role fun heq => hid (hrid.symm.trans heq)).mpr hrole
      exact ⟨role, hkept, hrid, hown⟩

theorem AuthDb.AccountEdit.sound (hs : s.Sound) {edited : Option ℕ} {target : User}
    (h : s.auth.AccountEdit target.id edited db) (htarget : target ∈ s.auth.users)
    (hheld : ∀ r ∈ db.user_roles, r ∈ s.auth.user_roles ∨
      ∃ role ∈ s.auth.roles, r = ⟨target.id, role.id⟩ ∧
        (role.organization_id = none ∨ role.organization_id = some target.organization_id)) :
    Platform.Sound { s with auth := db } := by
  refine ⟨fun role hrole hnone => hs.system role (by rwa [← h.roles]) hnone, fun r hr => ?_⟩
  rcases hheld r hr with hold | ⟨role, hrole, rfl, hown⟩
  · obtain ⟨user, huser, huid, role, hrole, hrid, hown⟩ := hs.held r hold
    obtain ⟨user', huser', huid', horganization⟩ := h.mem_of huser
    exact ⟨user', huser', huid'.trans huid, role, (by rw [h.roles]; exact hrole), hrid,
      by rwa [horganization]⟩
  · obtain ⟨user', huser', huid', horganization⟩ := h.mem_of htarget
    exact ⟨user', huser', huid', role, (by rw [h.roles]; exact hrole), rfl, by rwa [horganization]⟩

/-- An edit of an account's status alone. -/
theorem AuthDb.AccountEdit.sound_none (hs : s.Sound) (h : s.auth.AccountEdit user_id none db) :
    Platform.Sound { s with auth := db } := by
  refine ⟨fun role hrole hnone => hs.system role (by rwa [← h.roles]) hnone, fun r hr => ?_⟩
  obtain ⟨user, huser, huid, role, hrole, hrid, hown⟩ :=
    hs.held r ((h.user_roles r nofun).mp hr)
  obtain ⟨user', huser', huid', horganization⟩ := h.mem_of huser
  exact ⟨user', huser', huid'.trans huid, role, (by rw [h.roles]; exact hrole), hrid,
    by rwa [horganization]⟩

end Sound

namespace Platform

variable {settings : SignupSettings} {s s' : Platform} {request : Request}

/-- Neither fact is about more than the tables. -/
theorem Sound.of_auth (hs : s.Sound) (hauth : s'.auth = s.auth) : s'.Sound := by
  obtain ⟨hsystem, hheld⟩ := hs
  rw [← hauth] at hsystem hheld
  exact ⟨hsystem, hheld⟩

/-- **Every deed keeps both facts.** -/
theorem Effect.sound (hs : s.Sound) (h : Effect settings s request s') : s'.Sound := by
  cases h with
  | role huser hid hedit haction => exact (hedit.sound hs).of_auth rfl
  | account huser hid htarget hmember hedit hheld hguard haction =>
    exact (hedit.sound hs htarget hheld).of_auth rfl
  | active huser hid htarget hmember hallowed haction => exact hs.of_auth rfl
  | signup hsuper hedit haction => exact (hedit.sound_none hs).of_auth rfl
  | platform hsuper htarget => exact hs.of_auth rfl
  | @registered now request user db organizations hnew husers hroles _ _ _ hheld =>
    constructor
    · intro role hrole hnone
      exact hs.system role (hroles ▸ hrole) hnone
    · intro r hr
      rcases hheld r hr with hold | ⟨role, hrole, rfl, hnone, -⟩
      · obtain ⟨u, hu, huid, role, hrole, hrid, hown⟩ := hs.held r hold
        exact ⟨u, husers ▸ List.mem_append_left _ hu, huid, role, hroles ▸ hrole, hrid, hown⟩
      · exact ⟨user, husers ▸ List.mem_append_right _ List.mem_cons_self, rfl, role,
          hroles ▸ hrole, rfl, .inl hnone⟩

theorem step_cases (h : step settings s request = some s') (hs : s.Sound) :
    s' = s ∨ Effect settings s request s' := by
  unfold step at h
  split at h
  · exact .inl (Option.some.inj h).symm
  · rename_i t hanswer
    cases h
    exact .inr (answer_effect hs hanswer)

theorem step_sound (hs : s.Sound) (h : step settings s request = some s') : s'.Sound := by
  rcases step_cases h hs with rfl | heffect
  · exact hs
  · exact heffect.sound hs

/-- What the requests before have left is sound. -/
theorem Seeded.run_sound {s₀ : Platform} {before : List Request} (hseeded : s₀.Seeded)
    (hbefore : run (step settings) s₀ before = some s) : s.Sound :=
  invariant_of_step (fun _ _ _ hs hstep => step_sound hs hstep) hseeded.sound hbefore

end Platform

/-! ## Super Admins -/

theorem role_service.is_super_admin_iff {db : AuthDb} {user_id : ℕ} :
    is_super_admin db user_id = true ↔ ∃ role ∈ db.roles,
      (⟨user_id, role.id⟩ : UserRole) ∈ db.user_roles ∧ role.SuperAdmin ∧
        role.organization_id = none := by
  rw [is_super_admin, List.any_eq_true]
  constructor
  · rintro ⟨⟨r, role⟩, hmem, h⟩
    obtain ⟨hr, hrole, hon⟩ := mem_join.mp hmem
    rw [decide_eq_true_eq] at hon h
    obtain ⟨rfl, hname, hsystem, hnone⟩ := h
    refine ⟨role, hrole, ?_, ⟨hsystem, hname⟩, hnone⟩
    rw [hon]
    exact hr
  · rintro ⟨role, hrole, hr, ⟨hsystem, hname⟩, hnone⟩
    refine ⟨⟨⟨user_id, role.id⟩, role⟩, mem_join.mpr ⟨hr, hrole, decide_eq_true rfl⟩, ?_⟩
    exact decide_eq_true ⟨rfl, hname, hsystem, hnone⟩

namespace Platform

/-- The caller, if there is one, is no Super Admin. -/
def Request.Ordinary (s : Platform) (request : Request) : Prop :=
  ∀ caller, request.caller = some caller → role_service.is_super_admin s.auth caller = false

instance (s : Platform) (request : Request) : Decidable (request.Ordinary s) :=
  inferInstanceAs (Decidable (∀ caller ∈ request.caller, _))

section SuperAdmins

variable {settings : SignupSettings} {s s' : Platform} {request : Request}

/-- An ordinary request makes nobody a Super Admin, and takes the role from nobody. -/
theorem Effect.super_admin
    (hsettings : String.ofList (Python.strip settings.DEFAULT_SIGNUP_ROLE.toList)
      ≠ role_service.SUPER_ADMIN_ROLE)
    (h : Effect settings s request s') (hordinary : request.Ordinary s) (user_id : ℕ) :
    role_service.is_super_admin s'.auth user_id = role_service.is_super_admin s.auth user_id := by
  rw [Bool.eq_iff_iff, role_service.is_super_admin_iff, role_service.is_super_admin_iff]
  cases h with
  | @role caller now act user role_id db action huser hid hedit haction =>
    -- the role that was edited is no system role, before or after
    constructor
    · rintro ⟨role, hrole, hr, hsuper, hnone⟩
      have hne : role.id ≠ role_id := by
        intro heq
        rw [(hedit.written role hrole heq).1] at hnone
        cases hnone
      exact ⟨role, (hedit.roles role hne).mp hrole, (hedit.holders _ hne).mp hr, hsuper, hnone⟩
    · rintro ⟨role, hrole, hr, hsuper, hnone⟩
      have hne : role.id ≠ role_id := by
        intro heq
        rw [(hedit.owned role hrole heq).1] at hnone
        cases hnone
      exact ⟨role, (hedit.roles role hne).mpr hrole, (hedit.holders _ hne).mpr hr, hsuper, hnone⟩
  | @account caller now act user target role_id db action huser hid htarget hmember hedit hheld
      hguard haction =>
    have hsame : ∀ role ∈ s.auth.roles, role.SuperAdmin →
        ((⟨user_id, role.id⟩ : UserRole) ∈ db.user_roles ↔
          (⟨user_id, role.id⟩ : UserRole) ∈ s.auth.user_roles) := by
      intro role hrole hsuper
      apply hedit.user_roles
      intro heq
      obtain ⟨id, hid', hr⟩ := Option.map_eq_some_iff.mp heq
      rw [UserRole.mk.injEq] at hr
      have hcaller := hguard role hrole (by rw [hid', hr.2]) hsuper
      rw [hordinary caller rfl] at hcaller
      cases hcaller
    show (∃ role ∈ db.roles, _) ↔ _
    rw [hedit.roles]
    constructor
    · rintro ⟨role, hrole, hr, hsuper, hnone⟩
      exact ⟨role, hrole, (hsame role hrole hsuper).mp hr, hsuper, hnone⟩
    · rintro ⟨role, hrole, hr, hsuper, hnone⟩
      exact ⟨role, hrole, (hsame role hrole hsuper).mpr hr, hsuper, hnone⟩
  | active huser hid htarget hmember hallowed haction => exact Iff.rfl
  | signup hsuper hedit haction =>
    rw [hordinary _ rfl] at hsuper
    cases hsuper
  | platform hsuper htarget =>
    rw [hordinary _ rfl] at hsuper
    cases hsuper
  | @registered now request user db organizations hnew husers hroles _ _ hkept hheld =>
    show (∃ role ∈ db.roles, _) ↔ _
    rw [hroles]
    constructor
    · rintro ⟨role, hrole, hr, hsuper, hnone⟩
      rcases hheld _ hr with hold | ⟨role', hrole', heq, -, hname⟩
      · exact ⟨role, hrole, hold, hsuper, hnone⟩
      · -- the role of a sign-up goes by another name
        rw [UserRole.mk.injEq] at heq
        have hsame : role = role' := s.auth.roles_id.eq hrole hrole' rfl rfl heq.2
        subst hsame
        rcases hname with howner | hdefault
        · have hnot : WORKSPACE_OWNER_ROLE ≠ role_service.SUPER_ADMIN_ROLE := by decide
          exact absurd (howner.symm.trans hsuper.2) hnot
        · exact absurd (hdefault.symm.trans hsuper.2) hsettings
    · rintro ⟨role, hrole, hr, hsuper, hnone⟩
      exact ⟨role, hrole, hkept _ hr, hsuper, hnone⟩

/-- **Only a Super Admin makes, and unmakes, a Super Admin.** Where the role of a sign-up is
another one, which the settings do not enforce, in every run of requests that no Super Admin
takes part in, of any members of any workspaces and of people who sign up, who is a Super Admin
stays as it was. -/
theorem super_admins_kept
    (hsettings : String.ofList (Python.strip settings.DEFAULT_SIGNUP_ROLE.toList)
      ≠ role_service.SUPER_ADMIN_ROLE)
    {s₀ : Platform} {before after : List Request} (hseeded : s₀.Seeded)
    (hbefore : run (step settings) s₀ before = some s)
    (hafter : run (step settings) s after = some s')
    (hordinary : Along (step settings) (fun t request => request.Ordinary t) s after)
    (user_id : ℕ) :
    role_service.is_super_admin s'.auth user_id = role_service.is_super_admin s.auth user_id := by
  have hs := hseeded.run_sound hbefore
  have hrun := run_invariant
    (I := fun t => t.Sound ∧ ∀ user_id, role_service.is_super_admin t.auth user_id
      = role_service.is_super_admin s.auth user_id)
    (fun t request t' ht hrequest hstep => by
      refine ⟨step_sound ht.1 hstep, fun user_id => ?_⟩
      rcases step_cases hstep ht.1 with rfl | heffect
      · exact ht.2 user_id
      · rw [heffect.super_admin hsettings hrequest, ht.2])
    ⟨hs, fun _ => rfl⟩ hordinary hafter
  exact hrun.2 user_id

/-- An administrator who gives the role to a colleague, makes a role by its name and gives that. -/
def namesake : List Request :=
  [.act 2 1 (.assign_role 4 1), .act 2 2 (.create_role 10 "Super Admin"),
    .act 2 3 (.assign_role 4 10)]

theorem super_admins_kept_namesake :
    ∃ s', run (step analysts) twoWorkspaces namesake = some s' ∧
      s'.auth.user_roles = twoWorkspaces.auth.user_roles ++ [⟨4, 10⟩] ∧
      role_service.is_super_admin s'.auth 4 = role_service.is_super_admin twoWorkspaces.auth 4 :=
  ⟨_, rfl, by decide, super_admins_kept (by decide : _ ≠ _) twoWorkspaces_seeded
    (rfl : run (step analysts) twoWorkspaces [] = _)
    (rfl : run (step analysts) twoWorkspaces namesake = _) (by decide +kernel) 4⟩

end SuperAdmins

end Platform

/-! ## Access -/

namespace auth_repository

variable {db db' : AuthDb} {user_id : ℕ} {code : String}

/-- A check that raises has found a second row. -/
theorem user_has_permission_error {e : AppException}
    (h : user_has_permission db user_id code = .error e) : e = MultipleResultsFound := by
  rw [user_has_permission] at h
  rcases hrows : (permissionRows db user_id code).map fun row => row.1.1.id with _ | ⟨x, _ | ⟨y, l⟩⟩
  · rw [hrows] at h
    cases h
  · rw [hrows] at h
    cases h
  · rw [hrows] at h
    cases h
    rfl

/-- The check answers by the roles of the user and by what they grant. -/
theorem user_has_permission_congr (hholds : ∀ r, db'.Holds user_id r ↔ db.Holds user_id r)
    (hgrants : ∀ r, db.Holds user_id r → (db'.Grants r code ↔ db.Grants r code)) :
    user_has_permission db' user_id code = user_has_permission db user_id code := by
  have hgranted : db'.Granted user_id code ↔ db.Granted user_id code := by
    constructor
    · rintro ⟨r, hr, hg⟩
      have hr' := (hholds r).mp hr
      exact ⟨r, hr', (hgrants r hr').mp hg⟩
    · rintro ⟨r, hr, hg⟩
      exact ⟨r, (hholds r).mpr hr, (hgrants r hr).mpr hg⟩
  have honce : db'.GrantedOnce user_id code ↔ db.GrantedOnce user_id code := by
    constructor
    · intro h r r' hr hg hr' hg'
      exact h r r' ((hholds r).mpr hr) ((hgrants r hr).mpr hg) ((hholds r').mpr hr')
        ((hgrants r' hr').mpr hg')
    · intro h r r' hr hg hr' hg'
      have hheld := (hholds r).mp hr
      have hheld' := (hholds r').mp hr'
      exact h r r' hheld ((hgrants r hheld).mp hg) hheld' ((hgrants r' hheld').mp hg')
  have hok : ∀ b, user_has_permission db' user_id code = .ok b ↔
      user_has_permission db user_id code = .ok b := by
    intro b
    rw [user_has_permission_eq_ok_iff, user_has_permission_eq_ok_iff, hgranted, honce]
  rcases h : user_has_permission db user_id code with e | b
  · rcases h' : user_has_permission db' user_id code with e' | b'
    · rw [user_has_permission_error h, user_has_permission_error h']
    · rw [(hok b').mp h'] at h
      cases h
  · exact (hok b).mpr h

end auth_repository

/-- What the users of the application may do is the same in both. -/
structure Platform.SameAccess (user : User) (s s' : Platform) : Prop where
  account : user ∈ s'.auth.users
  is_active : s'.is_active user.id = s.is_active user.id
  tokens_valid_from : s'.tokens_valid_from user.id = s.tokens_valid_from user.id
  permissions : ∀ code, auth_repository.user_has_permission s'.auth user.id code
    = auth_repository.user_has_permission s.auth user.id code

namespace Platform

theorem SameAccess.refl {user : User} {s : Platform} (huser : user ∈ s.auth.users) :
    SameAccess user s s :=
  ⟨huser, rfl, rfl, fun _ => rfl⟩

theorem SameAccess.trans {user : User} {s s' s'' : Platform} (h : SameAccess user s s')
    (h' : SameAccess user s' s'') : SameAccess user s s'' :=
  ⟨h'.account, h'.is_active.trans h.is_active, h'.tokens_valid_from.trans h.tokens_valid_from,
    fun code => (h'.permissions code).trans (h.permissions code)⟩

/-- A row that is added to the audit log is nobody's access. -/
theorem SameAccess.log {user : User} {s s' : Platform} (h : SameAccess user s s') (entity_id : ℕ)
    (action : String) (now : Time) : SameAccess user s (s'.log entity_id action now) :=
  ⟨h.account, h.is_active, h.tokens_valid_from, h.permissions⟩

section Access

variable {settings : SignupSettings} {s s' : Platform} {request : Request} {user : User}

/-- Switching another account on or off. -/
theorem setActive_access (huser : user ∈ s.auth.users) {target_id : ℕ} (hne : user.id ≠ target_id)
    (is_active : Bool) (now : Time) : SameAccess user s (s.setActive target_id is_active now) := by
  refine ⟨huser, Function.update_of_ne hne _ _, ?_, fun _ => rfl⟩
  show (if is_active then s.tokens_valid_from
    else Function.update s.tokens_valid_from target_id now) user.id = _
  split
  · rfl
  · exact Function.update_of_ne hne _ _

/-- An edit of a role of another organization: the user does not hold it. -/
theorem roleEdit_access (hs : s.Sound) (huser : user ∈ s.auth.users)
    {organization_id role_id : ℕ} {db : AuthDb}
    (hedit : s.auth.RoleEdit organization_id role_id db)
    (hother : user.organization_id ≠ organization_id) :
    SameAccess user s { s with auth := db } := by
  have hheld : ∀ r, s.auth.Holds user.id r → r ≠ role_id := by
    intro r hr heq
    obtain ⟨holder, hholder, hid, role, hrole, hrid, hown⟩ := hs.held _ hr
    have hsame : holder = user := s.auth.users_id.eq hholder huser rfl rfl hid
    subst hsame
    have howned := (hedit.owned role hrole (hrid.trans heq)).1
    rw [howned] at hown
    rcases hown with hnone | hsome
    · cases hnone
    · exact hother (Option.some.inj hsome).symm
  refine ⟨(by rw [hedit.users]; exact huser), rfl, rfl, fun code => ?_⟩
  apply auth_repository.user_has_permission_congr
  · intro r
    constructor
    · exact fun hr => (hedit.kept _ hr).1
    · exact fun hr => (hedit.holders _ (hheld r hr)).mpr hr
  · intro r hr
    unfold AuthDb.Grants
    show (∃ permission ∈ db.permissions, _) ↔ _
    rw [hedit.permissions]
    refine exists_congr fun permission => and_congr_right fun _ => and_congr_right fun _ => ?_
    exact hedit.grants _ (hheld r hr)

/-- An edit of another account. -/
theorem accountEdit_access (huser : user ∈ s.auth.users) {target_id : ℕ} {role_id : Option ℕ}
    {db : AuthDb} (hedit : s.auth.AccountEdit target_id role_id db) (hne : user.id ≠ target_id) :
    SameAccess user s { s with auth := db } := by
  refine ⟨hedit.other huser hne, rfl, rfl, fun code => ?_⟩
  apply auth_repository.user_has_permission_congr
  · intro r
    apply hedit.user_roles
    intro heq
    obtain ⟨id, -, hr⟩ := Option.map_eq_some_iff.mp heq
    rw [UserRole.mk.injEq] at hr
    exact hne hr.1.symm
  · intro r _
    unfold AuthDb.Grants
    show (∃ permission ∈ db.permissions, _ ∧ _ ∈ db.role_permissions) ↔ _
    rw [hedit.permissions, hedit.role_permissions]

/-- Two users of different organizations are two. -/
theorem ne_of_organization {target : User} (huser : user ∈ s.auth.users)
    (htarget : target ∈ s.auth.users) (hother : user.organization_id ≠ target.organization_id) :
    user.id ≠ target.id := by
  intro hid
  have hsame : user = target := s.auth.users_id.eq huser htarget rfl rfl hid
  exact hother (by rw [hsame])

/-- A request from outside an organization changes nothing for its members. -/
theorem Effect.access (hs : s.Sound) (h : Effect settings s request s')
    (huser : user ∈ s.auth.users) (houtside : ¬ request.Inside user.organization_id s) :
    SameAccess user s s' := by
  -- a member of another organization, and no Super Admin
  have hother : ∀ caller ∈ s.auth.users, request.caller = some caller.id →
      user.organization_id ≠ caller.organization_id := by
    intro caller hcaller hid heq
    exact houtside ⟨caller.id, hid, .inl ⟨caller, hcaller, rfl, heq.symm⟩⟩
  have hordinary : ∀ caller, request.caller = some caller →
      ¬ role_service.is_super_admin s.auth caller = true :=
    fun caller hid hsuper => houtside ⟨caller, hid, .inr hsuper⟩
  cases h with
  | @role caller now act caller' role_id db action hmem hid hedit haction =>
    subst hid
    exact (roleEdit_access hs huser hedit (hother _ hmem rfl)).log _ _ _
  | @account caller now act caller' target role_id db action hmem hid htarget hmember hedit hheld
      hguard haction =>
    subst hid
    have hne := ne_of_organization huser htarget (hmember ▸ hother _ hmem rfl)
    exact (accountEdit_access huser hedit hne).log _ _ _
  | @active caller now act caller' target is_active action hmem hid htarget hmember hallowed
      haction =>
    subst hid
    have hne := ne_of_organization huser htarget (hmember ▸ hother _ hmem rfl)
    exact (setActive_access huser hne _ _).log _ _ _
  | signup hsuper hedit haction => exact absurd hsuper (hordinary _ rfl)
  | platform hsuper htarget => exact absurd hsuper (hordinary _ rfl)
  | @registered now request added db organizations hnew husers hroles hpermissions hgrants hkept
      hheld =>
    have hne := hnew user huser
    refine ⟨husers ▸ List.mem_append_left _ huser, Function.update_of_ne hne _ _, rfl,
      fun code => ?_⟩
    apply auth_repository.user_has_permission_congr
    · intro r
      constructor
      · intro hr
        rcases hheld _ hr with hold | ⟨role, -, heq, -⟩
        · exact hold
        · rw [UserRole.mk.injEq] at heq
          exact absurd heq.1 hne
      · exact hkept _
    · intro r _
      unfold AuthDb.Grants
      show (∃ permission ∈ db.permissions, _ ∧ _ ∈ db.role_permissions) ↔ _
      rw [hpermissions, hgrants]

/-- **Nobody outside a workspace changes what its members may do.** In every run of requests,
none of which comes from a member of the organization or from a Super Admin, every account of
the organization keeps its status, its sessions and the answer to every permission check. -/
theorem workspaces_apart {s₀ : Platform} {before after : List Request} (hseeded : s₀.Seeded)
    (hbefore : run (step settings) s₀ before = some s)
    (hafter : run (step settings) s after = some s') (huser : user ∈ s.auth.users)
    (houtside : Along (step settings)
      (fun t request => ¬ request.Inside user.organization_id t) s after) :
    SameAccess user s s' := by
  have hs := hseeded.run_sound hbefore
  have hrun := run_invariant (I := fun t => t.Sound ∧ SameAccess user s t)
    (fun t request t' ht hrequest hstep => by
      refine ⟨step_sound ht.1 hstep, ?_⟩
      rcases step_cases hstep ht.1 with rfl | heffect
      · exact ht.2
      · exact ht.2.trans (heffect.access ht.1 ht.2.account hrequest))
    ⟨hs, SameAccess.refl huser⟩ houtside hafter
  exact hrun.2

/-- The administrator of the one workspace and a member of the other. -/
def neighbour : List Request :=
  [.act 3 1 (.set_active 4 false), .act 3 2 (.create_role 10 "Readers"),
    .act 3 3 (.assign_permission 10 2), .act 3 4 (.assign_role 4 10)]

theorem workspaces_apart_neighbour :
    ∃ s', run (step analysts) twoWorkspaces neighbour = some s' ∧
      s'.audit_log.length = 2 ∧ SameAccess ⟨4, 2, .approved⟩ twoWorkspaces s' :=
  ⟨_, rfl, by decide, workspaces_apart twoWorkspaces_seeded
    (rfl : run (step analysts) twoWorkspaces [] = _)
    (rfl : run (step analysts) twoWorkspaces neighbour = _) (by decide) (by decide +kernel)⟩

end Access

/-! ## The decisions of the platform's owner -/

section Decisions

variable {settings : SignupSettings} {s s' : Platform} {request : Request} {user_id : ℕ}

/-- Who was shut out last is shut out, and the decisions are about people that there are. -/
structure Decided (s : Platform) : Prop where
  inactive : ∀ user_id, s.latest user_id = some "platform_deactivate_user" →
    s.is_active user_id = false
  known : ∀ row ∈ s.audit_log, row.action ∈ platformActions →
    ∃ user ∈ s.auth.users, user.id = row.entity_id

/-- The last of a list is the greatest when it is above all before it. -/
theorem argmax_concat_of_lt {α β : Type} [LinearOrder β] {f : α → β} {l : List α} {a : α}
    (h : ∀ x ∈ l, f x < f a) : (l ++ [a]).argmax f = some a := by
  rw [List.argmax_concat]
  rcases hmax : l.argmax f with _ | x
  · rfl
  · exact if_pos (h x (List.argmax_mem hmax))

/-- Other rows are no decisions. -/
theorem latest_log (s : Platform) {action : String} (haction : action ∉ platformActions)
    (entity_id : ℕ) (now : Time) (user_id : ℕ) :
    (s.log entity_id action now).latest user_id = s.latest user_id := by
  have hrow : ([⟨entity_id, action, now⟩] : List AuditLog).filter
      (fun row => row.entity_id = user_id ∧ row.action ∈ platformActions) = [] := by
    rw [List.filter_eq_nil_iff]
    intro row hrow
    rw [List.mem_singleton] at hrow
    rw [hrow, decide_eq_true_eq]
    exact fun h => haction h.2
  unfold latest log
  rw [List.filter_append, hrow, List.append_nil]

/-- A decision that comes after all others is the newest. -/
theorem latest_log_decision {now : Time} (hlater : ∀ row ∈ s.audit_log, row.created_at < now)
    {action : String} (haction : action ∈ platformActions) (entity_id user_id : ℕ) :
    (s.log entity_id action now).latest user_id
      = if entity_id = user_id then some action else s.latest user_id := by
  unfold latest log
  rw [List.filter_append]
  by_cases hid : entity_id = user_id
  · have hrow : ([⟨entity_id, action, now⟩] : List AuditLog).filter
        (fun row => row.entity_id = user_id ∧ row.action ∈ platformActions)
        = [⟨entity_id, action, now⟩] := by
      rw [List.filter_eq_self]
      intro row hrow
      rw [List.mem_singleton] at hrow
      rw [hrow, decide_eq_true_eq]
      exact ⟨hid, haction⟩
    rw [if_pos hid, hrow, argmax_concat_of_lt fun row hmem => hlater row (List.mem_filter.mp hmem).1]
    rfl
  · have hrow : ([⟨entity_id, action, now⟩] : List AuditLog).filter
        (fun row => row.entity_id = user_id ∧ row.action ∈ platformActions) = [] := by
      rw [List.filter_eq_nil_iff]
      intro row hrow
      rw [List.mem_singleton] at hrow
      rw [hrow, decide_eq_true_eq]
      exact fun h => hid h.1
    rw [if_neg hid, hrow, List.append_nil]

/-- An edit of the tables, as long as nobody is gone. -/
theorem Decided.edited (h : s.Decided) {db : AuthDb}
    (hkept : ∀ user ∈ s.auth.users, ∃ user' ∈ db.users, user'.id = user.id) {action : String}
    (haction : action ∉ platformActions) (entity_id : ℕ) (now : Time) :
    Decided (({ s with auth := db }).log entity_id action now) := by
  constructor
  · intro user_id hlatest
    rw [latest_log _ haction] at hlatest
    exact h.inactive user_id hlatest
  · intro row hrow hdecision
    rcases List.mem_append.mp hrow with hold | hnew
    · obtain ⟨user, huser, hid⟩ := h.known row hold hdecision
      obtain ⟨user', huser', hid'⟩ := hkept user huser
      exact ⟨user', huser', hid'.trans hid⟩
    · rw [List.mem_singleton.mp hnew] at hdecision
      exact absurd hdecision haction

/-- Nothing was decided about somebody who is not there. -/
theorem Decided.latest_none (h : s.Decided) (hnone : ∀ user ∈ s.auth.users, user.id ≠ user_id) :
    s.latest user_id = none := by
  have hrows : (s.audit_log.filter fun row =>
      row.entity_id = user_id ∧ row.action ∈ platformActions) = [] := by
    rw [List.filter_eq_nil_iff]
    intro row hrow
    rw [decide_eq_true_eq]
    rintro ⟨hid, hdecision⟩
    obtain ⟨user, huser, huid⟩ := h.known row hrow hdecision
    exact hnone user huser (huid.trans hid)
  rw [latest, hrows]
  rfl

/-- A deed that comes after all decisions keeps to them. -/
theorem Effect.decided (hdecided : s.Decided) (hlater : request.Later s)
    (h : Effect settings s request s') : s'.Decided := by
  cases h with
  | role huser hid hedit haction =>
    exact hdecided.edited (fun user huser => ⟨user, hedit.users ▸ huser, rfl⟩) haction _ _
  | account huser hid htarget hmember hedit hheld hguard haction =>
    refine hdecided.edited (fun user huser => ?_) haction _ _
    obtain ⟨user', huser', hid', -⟩ := hedit.mem_of huser
    exact ⟨user', huser', hid'⟩
  | signup hsuper hedit haction =>
    refine hdecided.edited (fun user huser => ?_) haction _ _
    obtain ⟨user', huser', hid', -⟩ := hedit.mem_of huser
    exact ⟨user', huser', hid'⟩
  | @active caller now act user target is_active action huser hid htarget hmember hallowed
      haction =>
    constructor
    · intro user_id hlatest
      rw [latest_log _ haction] at hlatest
      show Function.update s.is_active target.id is_active user_id = false
      by_cases heq : user_id = target.id
      · -- whoever was shut out is not switched on here
        subst heq
        rw [Function.update_self]
        by_contra hon
        have hnot := hallowed (Bool.not_eq_false _ ▸ hon)
        rw [_deactivated_by_platform, decide_eq_false_iff_not] at hnot
        exact hnot hlatest
      · rw [Function.update_of_ne heq]
        exact hdecided.inactive user_id hlatest
    · intro row hrow hdecision
      rcases List.mem_append.mp hrow with hold | hnew
      · exact hdecided.known row hold hdecision
      · rw [List.mem_singleton.mp hnew] at hdecision
        exact absurd hdecision haction
  | @platform caller now target_id is_active hsuper htarget =>
    have haction : (if is_active then "platform_activate_user" else "platform_deactivate_user")
        ∈ platformActions := by
      cases is_active <;> decide
    have hbefore : ∀ row ∈ s.audit_log, row.created_at < now := hlater
    constructor
    · intro user_id hlatest
      have hnewest := latest_log_decision (s := s.setActive target_id is_active now)
        hbefore haction target_id user_id
      rw [hnewest] at hlatest
      show Function.update s.is_active target_id is_active user_id = false
      by_cases heq : target_id = user_id
      · subst heq
        rw [if_pos rfl] at hlatest
        rw [Function.update_self]
        cases is_active
        · rfl
        · exact absurd (Option.some.inj hlatest) (by decide)
      · rw [if_neg heq] at hlatest
        rw [Function.update_of_ne (Ne.symm heq)]
        exact hdecided.inactive user_id hlatest
    · intro row hrow hdecision
      rcases List.mem_append.mp hrow with hold | hnew
      · exact hdecided.known row hold hdecision
      · rw [List.mem_singleton.mp hnew]
        exact htarget
  | @registered now request user db organizations hnew husers _ _ _ _ _ =>
    have haction : "register" ∉ platformActions := by decide
    constructor
    · intro user_id hlatest
      rw [latest_log _ haction] at hlatest
      show Function.update s.is_active user.id true user_id = false
      by_cases heq : user_id = user.id
      · subst heq
        have hnone := hdecided.latest_none hnew
        cases hnone.symm.trans hlatest
      · rw [Function.update_of_ne heq]
        exact hdecided.inactive user_id hlatest
    · intro row hrow hdecision
      rcases List.mem_append.mp hrow with hold | hnew
      · obtain ⟨u, hu, hid⟩ := hdecided.known row hold hdecision
        exact ⟨u, husers ▸ List.mem_append_left _ hu, hid⟩
      · rw [List.mem_singleton.mp hnew] at hdecision
        exact absurd hdecision haction

/-- Whom the owner shut out last stays that until the owner decides otherwise. -/
theorem Effect.still_deactivated (hlater : request.Later s) (h : Effect settings s request s')
    (hlatest : s.latest user_id = some "platform_deactivate_user")
    (hnot : ∀ caller now, request ≠ .act caller now (.platform_set_active user_id true)) :
    s'.latest user_id = some "platform_deactivate_user" := by
  cases h with
  | role huser hid hedit haction => exact (latest_log _ haction _ _ _).trans hlatest
  | account huser hid htarget hmember hedit hheld hguard haction =>
    exact (latest_log _ haction _ _ _).trans hlatest
  | active huser hid htarget hmember hallowed haction =>
    exact (latest_log _ haction _ _ _).trans hlatest
  | signup hsuper hedit haction => exact (latest_log _ haction _ _ _).trans hlatest
  | @platform caller now target_id is_active hsuper htarget =>
    have haction : (if is_active then "platform_activate_user" else "platform_deactivate_user")
        ∈ platformActions := by
      cases is_active <;> decide
    have hbefore : ∀ row ∈ s.audit_log, row.created_at < now := hlater
    rw [latest_log_decision (s := s.setActive target_id is_active now) hbefore haction]
    by_cases heq : target_id = user_id
    · subst heq
      rw [if_pos rfl]
      cases is_active
      · rfl
      · exact absurd rfl (hnot caller now)
    · rw [if_neg heq]
      exact hlatest
  | registered _ _ _ _ _ _ _ =>
    have haction : "register" ∉ platformActions := by decide
    exact (latest_log _ haction _ _ _).trans hlatest

/-- What a decision of the platform's owner leaves. -/
theorem platform_set_active_ok {caller : ℕ} {now : Time} {is_active : Bool}
    (h : s.act caller now (.platform_set_active user_id is_active) = .ok s') :
    s' = (s.setActive user_id is_active now).log user_id
      (if is_active then "platform_activate_user" else "platform_deactivate_user") now := by
  obtain ⟨user, target, -, htarget, rfl⟩ := route_ok h
  obtain ⟨-, htarget⟩ := passed_of_bind htarget
  rw [bind_eq_ok_iff] at htarget
  obtain ⟨found, hfound, htarget⟩ := htarget
  rcases found with _ | found
  · cases htarget
  cases htarget
  obtain ⟨-, rfl⟩ := found_user hfound
  rfl

theorem permitted_active {code : String} {caller : ℕ} {user : User}
    (h : s.permitted code caller = .ok user) : s.is_active caller = true := by
  rw [permitted, bind_eq_ok_iff] at h
  obtain ⟨found, hfound, -⟩ := h
  exact (get_current_active_user_ok hfound).2.2

theorem require_super_admin_active {caller : ℕ} {user : User}
    (h : s.require_super_admin caller = .ok user) : s.is_active caller = true := by
  rw [require_super_admin, bind_eq_ok_iff] at h
  obtain ⟨found, hfound, -⟩ := h
  exact (get_current_active_user_ok hfound).2.2

/-- No route is open to somebody who is switched off. -/
theorem act_active {caller : ℕ} {now : Time} {act : Act} (h : s.act caller now act = .ok s') :
    s.is_active caller = true := by
  cases act with
  | decide_signup user_id approved =>
    obtain ⟨user, t, huser, -⟩ := route_ok h
    exact require_super_admin_active huser
  | platform_set_active user_id is_active =>
    obtain ⟨user, t, huser, -⟩ := route_ok h
    exact require_super_admin_active huser
  | _ =>
    obtain ⟨user, t, huser, -⟩ := route_ok h
    exact permitted_active huser

/-- The seed scripts have left no decisions. -/
theorem Seeded.decided (h : s.Seeded) : s.Decided := by
  constructor
  · intro user_id hlatest
    rw [Platform.latest, h.audit_log] at hlatest
    cases hlatest
  · intro row hrow
    rw [h.audit_log] at hrow
    cases hrow

theorem step_decided (hs : s.Sound ∧ s.Decided) (hlater : request.Later s)
    (h : step settings s request = some s') : s'.Sound ∧ s'.Decided := by
  refine ⟨step_sound hs.1 h, ?_⟩
  rcases step_cases h hs.1 with rfl | heffect
  · exact hs.2
  · exact heffect.decided hs.2 hlater

/-- **Whom the platform's owner shuts out stays out.** Requests come one after another, of
anybody; none of those after the decision is the owner's own word that the account is to be
switched on again. Then it is switched off, whatever the administrator of its workspace asked
for in between, and none of its own requests is carried out. -/
theorem deactivated_stays {s₀ s₁ : Platform} {before after : List Request} {caller : ℕ}
    {now : Time} (hseeded : s₀.Seeded) (hbefore : run (step settings) s₀ before = some s)
    (hoff : s.act caller now (.platform_set_active user_id false) = .ok s₁)
    (hafter : run (step settings) s₁ after = some s')
    (hinorder : Along (step settings) (fun t request => request.Later t) s₀
      (before ++ .act caller now (.platform_set_active user_id false) :: after))
    (hnot : ∀ caller now, .act caller now (.platform_set_active user_id true) ∉ after) :
    s'.is_active user_id = false ∧ ∀ now act, ∃ e, s'.act user_id now act = .error e := by
  obtain ⟨hlater, hlater'⟩ := hinorder.append
  have hs := run_invariant (I := fun t => t.Sound ∧ t.Decided) (fun _ _ _ => step_decided)
    ⟨hseeded.sound, hseeded.decided⟩ hlater hbefore
  have hrest := hlater' s hbefore
  have hstep : step settings s (.act caller now (.platform_set_active user_id false)) = some s₁ := by
    rw [step, answer, hoff]
  -- the decision itself
  have hlatest : s₁.latest user_id = some "platform_deactivate_user" := by
    rw [platform_set_active_ok hoff]
    have hnewest := latest_log_decision (s := s.setActive user_id false now) hrest.1
      (by decide : "platform_deactivate_user" ∈ platformActions) user_id user_id
    rw [if_pos rfl] at hnewest
    exact hnewest
  have hquiet : Along (step settings) (fun _ request => ∀ caller now,
      request ≠ .act caller now (.platform_set_active user_id true)) s₁ after := by
    refine along_of_forall fun request hmem caller now heq => ?_
    rw [heq] at hmem
    exact hnot caller now hmem
  -- and what comes after it
  have hrun := run_invariant
    (I := fun t => (t.Sound ∧ t.Decided) ∧ t.latest user_id = some "platform_deactivate_user")
    (fun t request t' ht hrequest hstep => by
      refine ⟨step_decided ht.1 hrequest.1 hstep, ?_⟩
      rcases step_cases hstep ht.1.1 with rfl | heffect
      · exact ht.2
      · exact heffect.still_deactivated hrequest.1 ht.2 hrequest.2)
    ⟨step_decided hs hrest.1 hstep, hlatest⟩ ((hrest.2 s₁ hstep).and hquiet) hafter
  have hinactive := hrun.1.2.inactive user_id hrun.2
  refine ⟨hinactive, fun now act => ?_⟩
  rcases hact : s'.act user_id now act with e | t
  · exact ⟨e, rfl⟩
  · rw [act_active hact] at hinactive
    cases hinactive

/-- An administrator who wants a member back, also by way of one more deactivation. -/
def asked : List Request :=
  [.act 2 2 (.set_active 4 true), .act 2 3 (.set_active 4 false), .act 2 4 (.set_active 4 true)]

theorem deactivated_stays_asked :
    ∃ s₁ s', twoWorkspaces.act 1 1 (.platform_set_active 4 false) = .ok s₁ ∧
      run (step analysts) s₁ asked = some s' ∧ s'.audit_log.length = 2 ∧ s'.is_active 4 = false :=
  ⟨_, _, rfl, rfl, by decide, (@deactivated_stays analysts _ _ _ _ _ [] asked 1 1
    twoWorkspaces_seeded rfl rfl rfl (by decide +kernel) (by simp [asked])).1⟩

end Decisions

end Platform

end PaCopilot
