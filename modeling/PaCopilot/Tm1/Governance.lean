/-
`tm1/governance.py`: who may change which TM1 environment.

The rules are functions of a user's permissions, a change and a connection. The
environment that counts for a change is the stricter of the one it was drafted on
and the one the connection has now. `Environments.lean` says what the rules amount
to over the life of a connection.
-/
import PaCopilot.Auth.Permissions
import PaCopilot.Change.Row
import PaCopilot.Tm1.Connection

set_option autoImplicit false

namespace PaCopilot.governance

/-- `TM1_MODE`. -/
inductive Tm1Mode
  | governed
  | readwrite
  | readonly
  deriving DecidableEq

def DEPLOY_PERMISSION : List (String × String) :=
  [("dev", "tm1.deploy"), ("qa", "tm1.deploy.qa"), ("prod", "tm1.deploy.prod")]

/-- `DEPLOY_PERMISSION[environment]`. -/
def deployPermission (environment : String) : Except AppException String :=
  match List.lookup environment DEPLOY_PERMISSION with
  | none => .error (PythonError "KeyError")
  | some permission => .ok permission

/-- `_STRICTNESS.get(environment, 0)`. -/
def _STRICTNESS (environment : String) : ℕ :=
  if environment = "prod" then 2 else if environment = "qa" then 1 else 0

/-- `environment.upper()`, of the three. -/
def upper (environment : String) : String :=
  match environment with
  | "dev" => "DEV"
  | "qa" => "QA"
  | "prod" => "PROD"
  | other => other

section Rules

variable (mode : Tm1Mode) (db : AuthDb) (user_id : ℕ) (change : TM1Change)
  (connection : TM1Connection)

def check_writes_enabled : Except AppException Unit :=
  refuse (mode = .readonly) (PermissionDeniedException
    ("This deployment is read-only (TM1_MODE=readonly): changes can be "
      ++ "drafted and reviewed, but not applied, rolled back or promoted."))

/-- `environment_of`. -/
def environment_of : String := if connection.environment = "" then "dev" else connection.environment

def assistant_may_apply : Bool := mode = .readwrite && environment_of connection = "dev"

/-- `effective_environment`. A row from before the column counts as drafted on the
environment of now. -/
def effective_environment : String :=
  let current := environment_of connection
  let drafted := if change.environment = "" then current else change.environment
  -- `max` keeps the first of two that are equally strict
  if _STRICTNESS current < _STRICTNESS drafted then drafted else current

inductive Action
  | execute
  | rollback
  deriving DecidableEq

def check_can_apply (action : Action) : Except AppException Unit := do
  let environment := effective_environment change connection
  let permission ← deployPermission environment
  let has_permission ← auth_repository.user_has_permission db user_id permission
  refuse (has_permission = false) (PermissionDeniedException
    (s!"Changes to a {upper environment} connection need the " ++ s!"'{permission}' permission."))
  refuse (environment = "prod" ∧ action = .execute ∧ change.created_by = user_id)
    (PermissionDeniedException
      ("A production change must be approved by someone other than the "
        ++ "person who requested it."))

def check_ai_may_draft : Except AppException Unit :=
  refuse (environment_of connection = "prod") (PermissionDeniedException
    (s!"'{connection.name}' is a PROD connection, where the assistant is "
      ++ "read-only: it can read and analyse, but not draft changes or runs. "
      ++ "Draft this on a DEV or QA connection, or ask a person with "
      ++ "production rights to make the change."))

/-- One environment of a relabelling. -/
def checkRelabelling (current environment : String) : Except AppException Unit := do
  let permission ← deployPermission environment
  let has_permission ← auth_repository.user_has_permission db user_id permission
  refuse (has_permission = false) (PermissionDeniedException
    (s!"Moving a connection " ++ (if environment = current then "out of" else "into")
      ++ s!" {upper environment} needs the '{permission}' permission."))

/-- `check_environment_change`: the deploy rights of both environments, as far as they
are not DEV. -/
def check_environment_change (current requested : String) : Except AppException Unit :=
  if current = requested then .ok ()
  else ([current, requested].filter (· ≠ "dev")).forM (checkRelabelling db user_id current)

end Rules

/-! ## What the rules ask -/

/-- A user who may deploy to an environment. -/
def Deploys (db : AuthDb) (user_id : ℕ) (environment : String) : Prop :=
  ∃ permission, List.lookup environment DEPLOY_PERMISSION = some permission ∧
    db.Granted user_id permission

section Spec

variable {db : AuthDb} {user_id : ℕ} {change : TM1Change} {connection : TM1Connection}

/-- The permission that was found is granted by some role. -/
theorem granted_of_has_permission {code : String}
    (h : auth_repository.user_has_permission db user_id code = .ok true) :
    db.Granted user_id code :=
  (auth_repository.has_permission_iff.mp h).2

theorem deploys_of_check {environment permission : String} {granted : Bool}
    (hpermission : deployPermission environment = .ok permission)
    (hgranted : auth_repository.user_has_permission db user_id permission = .ok granted)
    (h : ¬ granted = false) : Deploys db user_id environment := by
  unfold deployPermission at hpermission
  rcases hlookup : List.lookup environment DEPLOY_PERMISSION with _ | found
  · rw [hlookup] at hpermission
    cases hpermission
  · rw [hlookup] at hpermission
    cases hpermission
    rw [Bool.not_eq_false] at h
    rw [h] at hgranted
    exact ⟨permission, hlookup, granted_of_has_permission hgranted⟩

/-- A change that may be applied: by one who may deploy to the environment that counts,
and to PROD by a second person. -/
theorem check_can_apply_ok {action : Action}
    (h : check_can_apply db user_id change connection action = .ok ()) :
    Deploys db user_id (effective_environment change connection) ∧
      (effective_environment change connection = "prod" → action = .execute →
        change.created_by ≠ user_id) := by
  unfold check_can_apply at h
  dsimp only at h
  rw [bind_eq_ok_iff] at h
  obtain ⟨permission, hpermission, h⟩ := h
  rw [bind_eq_ok_iff] at h
  obtain ⟨granted, hgranted, h⟩ := h
  obtain ⟨hhas, hauthor⟩ := passed_of_bind h
  rw [refuse_eq_ok_iff] at hauthor
  exact ⟨deploys_of_check hpermission hgranted hhas,
    fun hprod hexecute hsame => hauthor ⟨hprod, hexecute, hsame⟩⟩

/-- The stricter of the environment a change was drafted on and the one of now. -/
def stricter (drafted current : String) : String :=
  if _STRICTNESS current < _STRICTNESS drafted then drafted else current

/-- The environment that counts for a change whose row says where it was drafted. -/
theorem effective_environment_eq (h : change.environment ≠ "") :
    effective_environment change connection
      = stricter change.environment (environment_of connection) := by
  unfold effective_environment stricter
  dsimp only
  rw [if_neg h]

/-- Nothing is stricter than PROD. -/
theorem stricter_prod {drafted current : String} (h : drafted = "prod" ∨ current = "prod") :
    stricter drafted current = "prod" := by
  have hle : ∀ environment : String, _STRICTNESS environment ≤ 2 := by
    intro environment
    unfold _STRICTNESS
    split
    · omega
    · split <;> omega
  have hprod : ∀ environment, 2 ≤ _STRICTNESS environment → environment = "prod" := by
    intro environment hstrict
    by_contra hne
    unfold _STRICTNESS at hstrict
    rw [if_neg hne] at hstrict
    split at hstrict <;> omega
  unfold stricter
  rcases h with rfl | rfl
  · by_cases hlt : _STRICTNESS current < _STRICTNESS "prod"
    · rw [if_pos hlt]
    · rw [if_neg hlt]
      apply hprod
      have hmax : _STRICTNESS "prod" = 2 := rfl
      omega
  · rw [if_neg]
    have hmax : _STRICTNESS "prod" = 2 := rfl
    have hdrafted := hle drafted
    omega

/-- A relabelling that passed: the user may deploy to both environments, as far as they
are not DEV. -/
theorem check_environment_change_ok {current requested : String}
    (h : check_environment_change db user_id current requested = .ok ())
    (hmoved : current ≠ requested) :
    (current ≠ "dev" → Deploys db user_id current) ∧
      (requested ≠ "dev" → Deploys db user_id requested) := by
  have hall : ∀ (environments : List String), environments.forM (m := Except AppException)
      (checkRelabelling db user_id current) = .ok () →
      ∀ environment ∈ environments, Deploys db user_id environment := by
    intro environments
    induction environments with
    | nil => exact fun _ _ hmem => (nomatch hmem)
    | cons environment rest ih =>
      intro hrun other hother
      rw [List.forM, bind_eq_ok_iff] at hrun
      obtain ⟨_, hcheck, hrest⟩ := hrun
      rcases List.mem_cons.mp hother with rfl | hother
      · rw [checkRelabelling, bind_eq_ok_iff] at hcheck
        obtain ⟨permission, hpermission, hcheck⟩ := hcheck
        rw [bind_eq_ok_iff] at hcheck
        obtain ⟨granted, hgranted, hhas⟩ := hcheck
        rw [refuse_eq_ok_iff] at hhas
        exact deploys_of_check hpermission hgranted hhas
      · exact ih hrest other hother
  rw [check_environment_change, if_neg hmoved] at h
  have hmem := hall _ h
  constructor
  · intro hne
    exact hmem current (List.mem_filter.mpr ⟨List.mem_cons_self, decide_eq_true hne⟩)
  · intro hne
    exact hmem requested (List.mem_filter.mpr
      ⟨List.mem_cons_of_mem _ List.mem_cons_self, decide_eq_true hne⟩)

end Spec

end PaCopilot.governance
