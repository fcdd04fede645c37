/-
The routes of `api/v1/tm1.py` over a change, and its promotion
(`tm1/deployment/promotion.py`), as far as they decide who may do what.

A route that executes or rolls back a change comes to the connection and the change it
goes on with; what it then does to the row is `execute_change` and `rollback_change`. A
route that drafts comes to what `create_change` returns.
-/
import PaCopilot.Change.Proposed
import PaCopilot.Tm1.Connections

set_option autoImplicit false

namespace PaCopilot

/-- A connection as `create_change` sees it. -/
def TM1Connection.seen (connection : TM1Connection) : Connection where
  id := connection.id
  organization_id := connection.organization_id
  shared := connection.visibility = .organization
  created_by := connection.created_by
  environment := some connection.environment

namespace tm1_change_repository

def get_by_id (changes : Store) (change_id : ℕ) : Option TM1Change :=
  changes.rows.find? fun r => r.id = change_id

theorem get_by_id_mem {changes : Store} {change_id : ℕ} {change : TM1Change}
    (h : get_by_id changes change_id = some change) : change ∈ changes.rows :=
  List.mem_of_find?_eq_some h

end tm1_change_repository

section Routes

variable {Graph : Type} (mode : governance.Tm1Mode) (db : AuthDb) (caller : Caller)
  (connections : List TM1Connection) (changes : Store)

/-- The connection of a route, for use by the user of the request. -/
def connectionOf (connection_id : ℕ) : Except AppException TM1Connection :=
  connection_service.get_connection db (some caller.id) connections connection_id
    caller.organization_id .use

def _get_change_checked (connection_id change_id : ℕ) : Except AppException TM1Change := do
  let _ ← connectionOf db caller connections connection_id
  match tm1_change_repository.get_by_id changes change_id with
  | none => .error (NotFoundException "Change not found.")
  | some change => do
    refuse (change.connection_id ≠ connection_id
        ∨ change.organization_id ≠ caller.organization_id)
      (NotFoundException "Change not found.")
    return change

/-- A run needs its own grant on top of `tm1.deploy`. -/
def checkRun (user_id : ℕ) (change : TM1Change) : Except AppException Unit :=
  if change.change_type = .run_process then do
    let runs ← auth_repository.user_has_permission db user_id "tm1.execute"
    refuse (runs = false)
      (PermissionDeniedException "You do not have permission to run TM1 processes.")
  else .ok ()

/-- `execute_change` of the API, up to its call of the service. -/
def execute_change_route (connection_id change_id : ℕ) :
    Except AppException (TM1Connection × TM1Change) := do
  let _ ← require_permission "tm1.deploy" db caller.id
  governance.check_writes_enabled mode
  let change ← _get_change_checked db caller connections changes connection_id change_id
  checkRun db caller.id change
  let connection ← connectionOf db caller connections connection_id
  governance.check_can_apply db caller.id change connection .execute
  return (connection, change)

/-- `rollback_change` of the API, up to its call of the service. -/
def rollback_change_route (connection_id change_id : ℕ) :
    Except AppException (TM1Connection × TM1Change) := do
  let _ ← require_permission "tm1.deploy" db caller.id
  governance.check_writes_enabled mode
  let change ← _get_change_checked db caller connections changes connection_id change_id
  let connection ← connectionOf db caller connections connection_id
  governance.check_can_apply db caller.id change connection .rollback
  return (connection, change)

/-- `reject_change` of the API, up to its call of the service. -/
def reject_change_route (connection_id change_id : ℕ) : Except AppException TM1Change := do
  let _ ← require_permission "tm1.write" db caller.id
  let change ← _get_change_checked db caller connections changes connection_id change_id
  (if change.created_by ≠ caller.id then do
    let deploys ← auth_repository.user_has_permission db caller.id "tm1.deploy"
    refuse (deploys = false) (PermissionDeniedException
      "Only its author or someone who can deploy changes can reject this draft.")
  else .ok ())
  let _ ← connectionOf db caller connections connection_id
  return change

/-- What a person asks to be drafted (`ChangeCreate`). -/
structure ChangeCreate where
  change_type : String
  target_name : String
  new_content : Option NewContent

/-- What `create_change` meets in a request of the user. -/
def requestMoment (m : Moment Graph) : Moment Graph :=
  { m with connections := connections.map TM1Connection.seen, user := some caller.id }

/-- `create_change` of the API. -/
def create_change_route (a : change_service.Analyzers Graph) (tm1 : TM1) (m : Moment Graph)
    (connection_id : ℕ) (request : ChangeCreate) : Except AppException (TM1Change × Store) := do
  let _ ← require_permission "tm1.write" db caller.id
  let _ ← connectionOf db caller connections connection_id
  change_service.create_change a tm1 (requestMoment caller connections m)
    ⟨connection_id, caller.organization_id, caller.id, request.change_type, request.target_name,
      request.new_content⟩ changes

namespace promotion

def NEXT_ENVIRONMENT : List (String × String) := [("dev", "qa"), ("qa", "prod")]

def PROMOTABLE : List ChangeType :=
  [.update_rules, .create_process, .update_process, .delete_process]

/-- `promote`: `source` as a draft on the next environment's connection. -/
def promote (a : change_service.Analyzers Graph) (tm1 : TM1) (m : Moment Graph)
    (source : TM1Change) (target_connection_id : ℕ) :
    Except AppException (TM1Change × Store) := do
  refuse (source.change_type = .create_view) (ValidationException
    ("A new view is not promoted: views made for review or evidence belong "
      ++ "to the server they were made on. Propose it on the target connection "
      ++ "instead."))
  -- a type that is not promoted, whatever became of the change
  refuse (source.change_type ∉ PROMOTABLE) (ValidationException
    ("A process run or a cell write is not promoted: it acts on one "
      ++ "server's data. Propose it on the target connection instead."))
  refuse (source.status ≠ .executed ∨ source.rolled_back_at ≠ none) (ValidationException
    ("Only a change that was applied and verified here, and not rolled "
      ++ "back, can be promoted."))
  let source_connection ← connectionOf db caller connections source.connection_id
  let target_connection ← connectionOf db caller connections target_connection_id
  let source_env := governance.environment_of source_connection
  let target_env := governance.environment_of target_connection
  match List.lookup source_env NEXT_ENVIRONMENT with
  | none => .error (ValidationException
      "This change is already in PROD; there is nowhere to promote it.")
  | some expected => do
    refuse (target_env ≠ expected) (ValidationException
      (s!"A {governance.upper source_env} change is promoted to {governance.upper expected} next, "
        ++ s!"not to {governance.upper target_env} ('{target_connection.name}')."))
    -- the draft is made anew, with the checks of the target server
    change_service.create_change a tm1 (requestMoment caller connections m)
      ⟨target_connection.id, caller.organization_id, caller.id, source.change_type.text,
        source.target_name, source.new_content⟩ changes

end promotion

/-- `promote_change` of the API. -/
def promote_change_route (a : change_service.Analyzers Graph) (tm1 : TM1) (m : Moment Graph)
    (connection_id change_id target_connection_id : ℕ) :
    Except AppException (TM1Change × Store) := do
  let _ ← require_permission "tm1.write" db caller.id
  governance.check_writes_enabled mode
  let source ← _get_change_checked db caller connections changes connection_id change_id
  let draft ← promotion.promote db caller connections changes a tm1 m source target_connection_id
  let _ ← connectionOf db caller connections target_connection_id
  return draft

end Routes

/-! ## What the routes go on with -/

section Passed

variable {Graph : Type} {mode : governance.Tm1Mode} {db : AuthDb} {caller : Caller}
  {connections : List TM1Connection} {changes changes' : Store} {connection : TM1Connection}
  {change draft : TM1Change} {connection_id change_id : ℕ}

theorem _get_change_checked_ok
    (h : _get_change_checked db caller connections changes connection_id change_id = .ok change) :
    change ∈ changes.rows ∧ change.connection_id = connection_id := by
  unfold _get_change_checked at h
  obtain ⟨_, h⟩ := rest_of_bind h
  rcases hget : tm1_change_repository.get_by_id changes change_id with _ | found
  · rw [hget] at h
    cases h
  · rw [hget] at h
    dsimp only at h
    obtain ⟨hsame, h⟩ := passed_of_bind h
    cases h
    exact ⟨tm1_change_repository.get_by_id_mem hget, by
      by_contra hother
      exact hsame (.inl hother)⟩

/-- A change that a route executes is one of those there are, and the user may apply it
on its connection. -/
theorem execute_change_route_ok
    (h : execute_change_route mode db caller connections changes connection_id change_id
      = .ok (connection, change)) :
    change ∈ changes.rows ∧ connection.id = change.connection_id ∧
      governance.check_can_apply db caller.id change connection .execute = .ok () := by
  unfold execute_change_route at h
  obtain ⟨_, h⟩ := rest_of_bind h
  obtain ⟨_, h⟩ := rest_of_bind h
  rw [bind_eq_ok_iff] at h
  obtain ⟨found, hfound, h⟩ := h
  obtain ⟨_, h⟩ := rest_of_bind h
  rw [bind_eq_ok_iff] at h
  obtain ⟨placed, hplaced, h⟩ := h
  rw [bind_eq_ok_iff] at h
  obtain ⟨_, hcheck, h⟩ := h
  cases h
  obtain ⟨hmem, hid⟩ := _get_change_checked_ok hfound
  exact ⟨hmem, (connection_service.get_connection_ok hplaced).2.trans hid.symm, hcheck⟩

theorem rollback_change_route_ok
    (h : rollback_change_route mode db caller connections changes connection_id change_id
      = .ok (connection, change)) :
    change ∈ changes.rows ∧ connection.id = change.connection_id ∧
      governance.check_can_apply db caller.id change connection .rollback = .ok () := by
  unfold rollback_change_route at h
  obtain ⟨_, h⟩ := rest_of_bind h
  obtain ⟨_, h⟩ := rest_of_bind h
  rw [bind_eq_ok_iff] at h
  obtain ⟨found, hfound, h⟩ := h
  rw [bind_eq_ok_iff] at h
  obtain ⟨placed, hplaced, h⟩ := h
  rw [bind_eq_ok_iff] at h
  obtain ⟨_, hcheck, h⟩ := h
  cases h
  obtain ⟨hmem, hid⟩ := _get_change_checked_ok hfound
  exact ⟨hmem, (connection_service.get_connection_ok hplaced).2.trans hid.symm, hcheck⟩

/-- What a route drafted is what `create_change` made of some proposal. -/
theorem create_change_route_ok {a : change_service.Analyzers Graph} {tm1 : TM1} {m : Moment Graph}
    {request : ChangeCreate}
    (h : create_change_route db caller connections changes a tm1 m connection_id request
      = .ok (draft, changes')) :
    ∃ p, change_service.create_change a tm1 (requestMoment caller connections m) p changes
      = .ok (draft, changes') := by
  unfold create_change_route at h
  obtain ⟨_, h⟩ := rest_of_bind h
  obtain ⟨_, h⟩ := rest_of_bind h
  exact ⟨_, h⟩

theorem promote_change_route_ok {a : change_service.Analyzers Graph} {tm1 : TM1}
    {m : Moment Graph} {target_connection_id : ℕ}
    (h : promote_change_route mode db caller connections changes a tm1 m connection_id change_id
      target_connection_id = .ok (draft, changes')) :
    ∃ p, change_service.create_change a tm1 (requestMoment caller connections m) p changes
      = .ok (draft, changes') := by
  unfold promote_change_route at h
  obtain ⟨_, h⟩ := rest_of_bind h
  obtain ⟨_, h⟩ := rest_of_bind h
  obtain ⟨source, h⟩ := rest_of_bind h
  rw [bind_eq_ok_iff] at h
  obtain ⟨created, hpromote, h⟩ := h
  obtain ⟨_, h⟩ := rest_of_bind h
  cases h
  unfold promotion.promote at hpromote
  obtain ⟨_, hpromote⟩ := rest_of_bind hpromote
  obtain ⟨_, hpromote⟩ := rest_of_bind hpromote
  obtain ⟨_, hpromote⟩ := rest_of_bind hpromote
  obtain ⟨_, hpromote⟩ := rest_of_bind hpromote
  obtain ⟨_, hpromote⟩ := rest_of_bind hpromote
  dsimp only at hpromote
  split at hpromote
  · cases hpromote
  · obtain ⟨_, hpromote⟩ := rest_of_bind hpromote
    exact ⟨_, hpromote⟩

end Passed

end PaCopilot
