/-
The roads that changes take: `promote`, `_chain` and `package` of
`tm1/deployment/promotion.py`, over the life of connections and changes.

The column `promoted_from` is kept beside the table of changes. A promotion writes it and a
deletion of a connection clears it, by the foreign keys of the table; nothing else touches it.
A change that another was promoted from has been executed, and no draft is executed, so a draft
that is given where it came from is one that nothing came from yet. That is why the roads end
([`Estate.Sound`]), and why what is read of one at any later time is what was promoted.
-/
import PaCopilot.Tm1.Environments
import PaCopilot.Lib.Ancestry

set_option autoImplicit false

namespace PaCopilot

open Table Run Ancestry

/-! ## Deleting a connection -/

namespace Store

/-- The rows that meet a condition. -/
def restrict (store : Store) (keeps : TM1Change → Bool) : Store where
  rows := store.rows.filter keeps
  next := store.next
  fresh := fun r hr => store.fresh r (List.mem_filter.mp hr).1
  ids := store.ids.filter _
  uq_tm1_changes_open_draft := store.uq_tm1_changes_open_draft.filter _

/-- The connection's changes go with it (`ondelete="CASCADE"`), and a change that was superseded
by one of them points to nothing (`ondelete="SET NULL"`). -/
def dropConnection (store : Store) (connection_id : ℕ) : Store :=
  let kept := store.restrict fun r => r.connection_id ≠ connection_id
  kept.edit
    (fun r => { r with
      superseded_by := r.superseded_by.filter fun id => (kept.rows.map TM1Change.id).contains id })
    (fun _ => rfl) (fun _ h => h) fun _ => rfl

end Store

/-- `delete_connection` of the API, of the connection that goes. -/
def delete_connection_route (db : AuthDb) (caller : Caller) (connections : List TM1Connection)
    (connection_id : ℕ) : Except AppException TM1Connection := do
  -- neither the setting nor the gateways are looked at
  let ctx : ConnectionContext := ⟨false, db, []⟩
  require_any_permission db caller.id _MANAGE_CONNECTIONS
  let connection ←
    connection_service.get_connection db (some caller.id) connections connection_id
      caller.organization_id .manage
  _check_owns ctx caller connection
  _check_own_scope ctx caller (some (governance.environment_of connection))
    (some connection.visibility) connection.gateway_id
  -- the service reads it once more
  connection_service.get_connection db (some caller.id) connections connection_id
    caller.organization_id .manage

/-! ## The estate -/

/-- Connections and changes, with where each change was promoted from. -/
structure Estate where
  landscape : Landscape
  promoted_from : ℕ → Option ℕ

namespace Estate

def start : Estate := ⟨Landscape.start, fun _ => none⟩

/-- What is asked: any demand on the landscape, or that a connection is deleted. -/
inductive Request (Graph : Type)
  | demand (demand : Demand Graph)
  | delete_connection (caller : Caller) (connection_id : ℕ)

/-- The changes there are. -/
abbrev changes (s : Estate) : Store := s.landscape.changes

variable {Graph : Type} (db : AuthDb)

/-- `draft.promoted_from = source.id`. -/
def linked (s : Estate) : Demand Graph → ℕ → Option ℕ
  | .promote caller mode a tm1 m connection_id change_id target_connection_id =>
    match promote_change_route mode db caller s.landscape.connections s.changes a tm1 m
        connection_id change_id target_connection_id with
    | .error _ => s.promoted_from
    | .ok (draft, _) => Function.update s.promoted_from draft.id (some change_id)
  | _ => s.promoted_from

/-- The connection goes, with its changes and what points to them. -/
def dropped (s : Estate) (connection_id : ℕ) : Estate :=
  let changes := s.changes.dropConnection connection_id
  { landscape := { s.landscape with
      connections := s.landscape.connections.filter fun c => c.id ≠ connection_id
      changes := changes }
    promoted_from := fun id =>
      if (tm1_change_repository.get_by_id changes id).isSome then
        (s.promoted_from id).filter fun source =>
          (tm1_change_repository.get_by_id changes source).isSome
      else none }

/-- The state after a request. One that is refused leaves it as it is. -/
def after (s : Estate) : Request Graph → Estate
  | .demand demand => ⟨s.landscape.after db demand, s.linked db demand⟩
  | .delete_connection caller connection_id =>
    match delete_connection_route db caller s.landscape.connections connection_id with
    | .error _ => s
    | .ok connection => s.dropped connection.id

/-- One request after the other. -/
def step (s : Estate) (request : Request Graph) : Option Estate := some (s.after db request)

end Estate

namespace promotion

/-- A chain longer than DEV, QA, PROD. -/
def MAX_CHAIN : ℕ := 5

/-- The loop of `_chain`, with what is left of its bound. -/
def chainFrom (s : Estate) (organization_id : ℕ) : ℕ → List TM1Change → List TM1Change
  | 0, chain => chain
  | _ + 1, [] => []
  | fuel + 1, first :: rest =>
    match s.promoted_from first.id with
    | none => first :: rest
    | some id =>
      match tm1_change_repository.get_by_id s.changes id with
      | none => first :: rest
      | some earlier =>
        if earlier.organization_id ≠ organization_id then first :: rest
        else chainFrom s organization_id fuel (earlier :: first :: rest)

/-- `_chain`: the change and everything it was promoted from, oldest first. -/
def _chain (s : Estate) (change : TM1Change) : List TM1Change :=
  chainFrom s change.organization_id (MAX_CHAIN - 1) [change]

/-- `_rollback_plan`. -/
def _rollback_plan (change : TM1Change) (connection_name : String) : String :=
  if change.change_type = .create_process then
    s!"Roll back deletes the new process '{change.target_name}' from " ++ s!"{connection_name}."
  else if change.change_type = .delete_process then
    "The process is saved before it is deleted; Roll back restores it on "
      ++ s!"{connection_name}, unless a process of that name exists again."
  else if change.change_type = .create_view then
    let view_name := ((change.new_content.bind NewContent.view_name)).getD "None"
    s!"Roll back deletes the new view '{view_name}' on '{change.target_name}' "
      ++ s!"from {connection_name}, and refuses if the view has been changed since."
  else if change.change_type = .write_cells then
    "The current values of the cells are saved when the change is applied. "
      ++ s!"Roll back writes them back on {connection_name}, and refuses if anyone "
      ++ "has written those cells since."
  else
    let what := if change.change_type = .update_rules then "rules" else "process"
    s!"The current {what} of '{change.target_name}' on {connection_name} are "
      ++ "saved when the change is applied. Roll back restores them, and refuses "
      ++ "if someone has edited them since, so later work is never overwritten."

/-- A stage of the road, as the package shows it. -/
structure Stage where
  change_id : ℕ
  environment : String
  connection : String
  status : ChangeStatus
  requested_by : Option String
  requested_at : ℕ
  approved_by : Option String
  approved_at : Option ℕ
  rolled_back_at : Option ℕ
  verified : Bool
  same_content : Bool
  checks : List Check

structure Manifest (Hash : Type) where
  change_id : ℕ
  change_type : ChangeType
  object : String
  target_connection : String
  target_environment : String
  status : ChangeStatus
  content_sha256 : Hash
  generated_at : ℕ

structure Evidence where
  verified_in : List String
  content_unchanged_since_first_stage : Bool
  checks_here : List Check

structure Package (Hash Current : Type) where
  manifest : Manifest Hash
  stages : List Stage
  evidence : Evidence
  diff : Current × Option NewContent
  impact : List ImpactEntry
  approval_rule : String
  rollback_plan : String

section Package

/- The hash of a content, the name of a user, and what the target is on the server now. -/
variable {Hash Current : Type} [DecidableEq Hash] (_content_hash : Option NewContent → Hash)
  (_name_of : Option ℕ → Option String)
  (current : TM1Change → Except AppException Current)

/-- `connection_of`. -/
def connection_of (db : AuthDb) (user : Option ℕ) (s : Estate) (change : TM1Change) :
    Except AppException TM1Connection :=
  connection_service.get_connection db user s.landscape.connections change.connection_id
    change.organization_id .use

/-- One stage. -/
def stageOf (content_hash : Hash) (change : TM1Change) (conn : TM1Connection) : Stage where
  change_id := change.id
  environment := governance.upper (governance.environment_of conn)
  connection := conn.name
  status := change.status
  requested_by := _name_of (some change.created_by)
  requested_at := change.created_at
  approved_by := _name_of change.executed_by
  approved_at := change.executed_at
  rolled_back_at := change.rolled_back_at
  verified := change.status = .executed ∧ change.rolled_back_at = none
  same_content := _content_hash change.new_content = content_hash
  checks := change.checks

/-- The stages of a chain, in its order. -/
def stagesOf (db : AuthDb) (user : Option ℕ) (s : Estate) (content_hash : Hash) :
    List TM1Change → Except AppException (List Stage)
  | [] => .ok []
  | change :: rest => do
    let conn ← connection_of db user s change
    let stages ← stagesOf db user s content_hash rest
    return stageOf _content_hash _name_of content_hash change conn :: stages

/-- `package`: everything an approver needs to decide on a change. -/
def package (db : AuthDb) (user : Option ℕ) (s : Estate) (now : ℕ) (change : TM1Change) :
    Except AppException (Package Hash Current) := do
  let chain := _chain s change
  let target ← connection_of db user s change
  let target_env := governance.environment_of target
  let content_hash := _content_hash change.new_content
  let stages ← stagesOf _content_hash _name_of db user s content_hash chain
  let _ ← connection_of db user s change
  let here ← current change
  let permission ← governance.deployPermission target_env
  return {
    manifest := ⟨change.id, change.change_type, change.target_name, target.name,
      governance.upper target_env, change.status, content_hash, now⟩
    stages := stages
    evidence := {
      verified_in := (stages.dropLast.filter Stage.verified).map Stage.environment
      content_unchanged_since_first_stage := stages.all Stage.same_content
      checks_here := change.checks }
    diff := (here, change.new_content)
    impact := change.impact
    approval_rule := s!"Needs the '{permission}' permission"
      ++ (if target_env = "prod" then ", and someone other than the requester" else "")
      ++ (if change.change_type = .run_process then ", and 'tm1.execute' for a run" else "") ++ "."
    rollback_plan := _rollback_plan change target.name }

end Package

end promotion

/-! ## How the table of changes goes on -/

namespace Store

/-- A later table. Every change is as it was proposed, with a status that it may have by now. -/
def Follows (store store' : Store) : Prop :=
  ∀ q ∈ store.rows, ∃ r ∈ store'.rows, r.proposed = q.proposed ∧ change_service.StatusMove q r

theorem Follows.refl (store : Store) : store.Follows store := fun q hq => ⟨q, hq, rfl, .inl rfl⟩

theorem follows_amend (store : Store) {a : Amendment}
    (hmoves : change_service.StatusMove a.row a.after) : store.Follows (store.amend a) := by
  intro q hq
  refine ⟨_, List.mem_map_of_mem hq, ?_⟩
  by_cases hrow : q = a.row
  · rw [if_pos hrow, hrow]
    exact ⟨a.proposed, hmoves⟩
  · rw [if_neg hrow]
    exact ⟨rfl, .inl rfl⟩

end Store

namespace change_service

variable {Graph : Type}

/-- A creation closes open drafts only. -/
theorem create_change_follows {a : Analyzers Graph} {tm1 : TM1} {m : Moment Graph} {p : Proposal}
    {store store' : Store} {draft : TM1Change}
    (h : create_change a tm1 m p store = .ok (draft, store')) : store.Follows store' := by
  obtain ⟨change_type, htype, -⟩ := create_change_ok h
  obtain ⟨created, hcloses⟩ := create_change_closes htype h
  intro q hq
  refine ⟨_, hcloses q hq, ?_⟩
  rcases hclosed : closes p change_type created q with _ | f
  · exact ⟨rfl, .inl rfl⟩
  have hwritten := hclosed
  rcases created with _ | draft
  · cases hclosed
  simp only [closes] at hclosed
  split at hclosed
  · rename_i hstands
    rw [Bool.and_eq_true, standsAgainst, decide_eq_true_eq] at hstands
    obtain ⟨⟨-, -, -, -, -, hdraft, -⟩, -⟩ := hstands
    refine ⟨?_, closes_moves hwritten (.inl (of_decide_eq_true hdraft))⟩
    rw [← Option.some.inj hclosed]
    exact replaced_proposed q
  · cases hclosed

/-- What a session writes moves the status of the row it read. -/
theorem amendment_moves {row : TM1Change} {write : Option (TM1Change → TM1Change)}
    {hproposed : ∀ f, write = some f → (f row).proposed = row.proposed}
    {hmoves : ∀ f, write = some f → StatusMove row (f row)} :
    StatusMove (amendment row write hproposed hmoves).row
      (amendment row write hproposed hmoves).after := by
  rcases write with _ | f
  · exact .inl rfl
  · exact hmoves f rfl

theorem executed_moves (tm1 : TM1) (row : TM1Change) (s : Server) (caller : Caller)
    (answer : Answers) (executed_by now : ℕ) (acknowledge_impact : Bool) :
    StatusMove (executed tm1 row s caller answer executed_by now acknowledge_impact).row
      (executed tm1 row s caller answer executed_by now acknowledge_impact).after :=
  amendment_moves

/-- What `create_change` returns is a draft of the proposal, of the type it names. -/
theorem create_change_draft {a : Analyzers Graph} {tm1 : TM1} {m : Moment Graph} {p : Proposal}
    {store store' : Store} {draft : TM1Change}
    (h : create_change a tm1 m p store = .ok (draft, store')) :
    draft ∈ store'.rows ∧ ∃ change_type, ChangeType.ofText p.change_type = some change_type ∧
      Proposes p change_type draft := by
  obtain ⟨hmem, -⟩ := create_change_proposes h
  obtain ⟨change_type, htype, ⟨hrepeated, -⟩ | ⟨change, -, hdrafted, hreplace⟩⟩ :=
    create_change_ok h
  · exact ⟨hmem, change_type, htype, (repeated_proposes hrepeated).2⟩
  · obtain ⟨hdraft, -⟩ := Store.replace_ok hreplace fun r hr => (mem_openDrafts.mp hr).1
    have hproposes := (drafted_ok hdrafted).1
    refine ⟨hmem, change_type, htype, ?_⟩
    rw [hdraft]
    exact ⟨hproposes.connection_id, hproposes.organization_id, hproposes.created_by,
      hproposes.change_type, hproposes.target_name, hproposes.new_content, hproposes.status⟩

end change_service

namespace Landscape

variable {Graph : Type}

/-- **A request leaves every change as it was proposed.** -/
theorem after_follows (db : AuthDb) (s : Landscape) (demand : Demand Graph) :
    s.changes.Follows (s.after db demand).changes := by
  unfold Landscape.after
  cases demand with
  | connect =>
    dsimp only
    split <;> exact .refl _
  | edit =>
    dsimp only
    split <;> exact .refl _
  | draft =>
    dsimp only
    split
    · exact .refl _
    · rename_i hroute
      obtain ⟨p, hcreate⟩ := create_change_route_ok hroute
      exact change_service.create_change_follows hcreate
  | promote =>
    dsimp only
    split
    · exact .refl _
    · rename_i hroute
      obtain ⟨p, hcreate⟩ := promote_change_route_ok hroute
      exact change_service.create_change_follows hcreate
  | execute =>
    dsimp only
    split
    · exact .refl _
    · exact Store.follows_amend _ change_service.amendment_moves
  | rollback =>
    dsimp only
    split
    · exact .refl _
    · exact Store.follows_amend _ change_service.amendment_moves
  | reject =>
    dsimp only
    split
    · exact .refl _
    · exact Store.follows_amend _ change_service.amendment_moves
  | assistantDraft =>
    dsimp only
    split
    · exact .refl _
    · rename_i hcreated
      obtain ⟨-, hdraft⟩ := ai.DraftTool.create_ok hcreated
      obtain ⟨_, _, -, -, hcreate⟩ := ai._create_draft_ok hdraft
      exact change_service.create_change_follows hcreate
  | assistantApply =>
    dsimp only
    split
    · exact .refl _
    · exact .refl _
    · exact Store.follows_amend _ (change_service.executed_moves _ _ _ _ _ _ _ _)

end Landscape

/-! ## The roads -/

/-- A change that has been applied, and perhaps rolled back. -/
def TM1Change.Applied (change : TM1Change) : Prop :=
  change.status = .executed ∨ change.status = .rolled_back

theorem change_service.StatusMove.applied {row row' : TM1Change}
    (h : change_service.StatusMove row row') (hrow : row.Applied) : row'.Applied := by
  rcases h with hsame | hnext
  · rw [TM1Change.Applied, hsame]
    exact hrow
  · rcases hrow with hrow | hrow
    · rw [hrow, ChangeStatus.next, List.mem_singleton] at hnext
      exact .inr hnext
    · rw [hrow] at hnext
      cases hnext

/-- Two changes are of one content. -/
structure SameContent (change change' : TM1Change) : Prop where
  organization_id : change.organization_id = change'.organization_id
  change_type : change.change_type = change'.change_type
  target_name : change.target_name = change'.target_name
  new_content : change.new_content = change'.new_content

theorem SameContent.refl (change : TM1Change) : SameContent change change := ⟨rfl, rfl, rfl, rfl⟩

theorem SameContent.trans {c c' c'' : TM1Change} (h : SameContent c c') (h' : SameContent c' c'') :
    SameContent c c'' :=
  ⟨h.organization_id.trans h'.organization_id, h.change_type.trans h'.change_type,
    h.target_name.trans h'.target_name, h.new_content.trans h'.new_content⟩

theorem SameContent.of_proposed {c c' d d' : TM1Change} (h : SameContent c d)
    (hc : c'.proposed = c.proposed) (hd : d'.proposed = d.proposed) : SameContent c' d' :=
  ⟨(congrArg Proposed.organization_id hc).trans
      (h.organization_id.trans (congrArg Proposed.organization_id hd).symm),
    (congrArg Proposed.change_type hc).trans
      (h.change_type.trans (congrArg Proposed.change_type hd).symm),
    (congrArg Proposed.target_name hc).trans
      (h.target_name.trans (congrArg Proposed.target_name hd).symm),
    (congrArg Proposed.new_content hc).trans
      (h.new_content.trans (congrArg Proposed.new_content hd).symm)⟩

theorem ChangeType.ofText_text (change_type : ChangeType) :
    ChangeType.ofText change_type.text = some change_type := by
  cases change_type <;> rfl

theorem tm1_change_repository.get_by_id_id {changes : Store} {change_id : ℕ} {change : TM1Change}
    (h : get_by_id changes change_id = some change) : change.id = change_id := by
  have hid := List.find?_some h
  exact of_decide_eq_true hid

/-- A row that is there is found. -/
theorem tm1_change_repository.get_by_id_of_mem {changes : Store} {change : TM1Change}
    (h : change ∈ changes.rows) : get_by_id changes change.id = some change := by
  rcases hget : get_by_id changes change.id with _ | found
  · exact absurd (decide_eq_true rfl) (List.find?_eq_none.mp hget change h)
  · have hsame : found = change :=
      changes.ids.eq (get_by_id_mem hget) h rfl rfl (get_by_id_id hget)
    rw [hsame]

section Promoted

variable {Graph : Type} {mode : governance.Tm1Mode} {db : AuthDb} {caller : Caller}
  {connections : List TM1Connection} {changes changes' : Store} {draft : TM1Change}
  {a : change_service.Analyzers Graph} {tm1 : TM1} {m : Moment Graph}
  {connection_id change_id target_connection_id : ℕ}

/-- What a promotion leaves: a draft on a connection of the next environment, of the content of
a change that has been applied and not been rolled back. -/
structure PromotedTo (connections : List TM1Connection) (changes : Store) (change_id : ℕ)
    (draft : TM1Change) (changes' : Store) : Prop where
  source : ∃ source ∈ changes.rows, source.id = change_id ∧ source.status = .executed ∧
    SameContent source draft ∧
    ∃ expected, List.lookup (labelOf connections source.connection_id) promotion.NEXT_ENVIRONMENT
      = some expected ∧ labelOf connections draft.connection_id = expected
  isDraft : draft.status = .draft
  mem : draft ∈ changes'.rows

theorem connectionOf_label {connection : TM1Connection}
    (h : connectionOf db caller connections connection_id = .ok connection) :
    labelOf connections connection_id = governance.environment_of connection :=
  labelOf_eq (connection_service.get_connection_find h)

theorem promote_change_route_promoted
    (h : promote_change_route mode db caller connections changes a tm1 m connection_id change_id
      target_connection_id = .ok (draft, changes')) :
    PromotedTo connections changes change_id draft changes' := by
  unfold promote_change_route at h
  obtain ⟨_, h⟩ := rest_of_bind h
  obtain ⟨_, h⟩ := rest_of_bind h
  obtain ⟨source, hsource, h⟩ := bind_eq_ok_iff.mp h
  obtain ⟨created, hpromote, h⟩ := bind_eq_ok_iff.mp h
  obtain ⟨_, h⟩ := rest_of_bind h
  cases h
  -- the change that was found is the one of the request, in the caller's organization
  have hfound : source ∈ changes.rows ∧ source.id = change_id ∧
      source.organization_id = caller.organization_id := by
    unfold _get_change_checked at hsource
    obtain ⟨_, hsource⟩ := rest_of_bind hsource
    rcases hget : tm1_change_repository.get_by_id changes change_id with _ | found
    · rw [hget] at hsource
      cases hsource
    · rw [hget] at hsource
      obtain ⟨hsame, hsource⟩ := passed_of_bind hsource
      cases hsource
      exact ⟨tm1_change_repository.get_by_id_mem hget, tm1_change_repository.get_by_id_id hget,
        not_not.mp fun hne => hsame (.inr hne)⟩
  obtain ⟨hmem, hid, horganization⟩ := hfound
  unfold promotion.promote at hpromote
  obtain ⟨-, hpromote⟩ := passed_of_bind hpromote
  obtain ⟨-, hpromote⟩ := passed_of_bind hpromote
  obtain ⟨happlied, hpromote⟩ := passed_of_bind hpromote
  obtain ⟨source_connection, hsource_connection, hpromote⟩ := bind_eq_ok_iff.mp hpromote
  obtain ⟨target_connection, htarget_connection, hpromote⟩ := bind_eq_ok_iff.mp hpromote
  dsimp only at hpromote
  split at hpromote
  · cases hpromote
  · rename_i expected hexpected
    obtain ⟨hnext, hcreate⟩ := passed_of_bind hpromote
    obtain ⟨hdraft, change_type, htype, hproposes⟩ := change_service.create_change_draft hcreate
    rw [ChangeType.ofText_text, Option.some.injEq] at htype
    have hstatus : source.status = .executed := not_not.mp fun hne => happlied (.inl hne)
    have htarget := (connection_service.get_connection_ok htarget_connection).2
    refine ⟨⟨source, hmem, hid, hstatus, ⟨?_, ?_, ?_, ?_⟩, expected, ?_, ?_⟩, hproposes.status,
      hdraft⟩
    · rw [horganization, hproposes.organization_id]
    · rw [hproposes.change_type, htype]
    · exact hproposes.target_name.symm
    · exact hproposes.new_content.symm
    · rw [connectionOf_label hsource_connection]
      exact hexpected
    · rw [hproposes.connection_id, htarget, connectionOf_label htarget_connection]
      exact not_not.mp hnext

end Promoted

namespace Estate

/-- Where a change comes from is a change that was applied, of the same content; and the roads
end. -/
structure Sound (s : Estate) : Prop where
  linked : ∀ d e, s.promoted_from d = some e → ∃ draft ∈ s.changes.rows,
    ∃ source ∈ s.changes.rows, draft.id = d ∧ source.id = e ∧ source.Applied ∧
      SameContent source draft
  grounded : Grounded s.promoted_from

variable {Graph : Type} {db : AuthDb} {s : Estate}

theorem Sound.start : Estate.start.Sound := ⟨nofun, .nothing⟩

/-- A link goes on with the table. -/
theorem Sound.link_follows (h : s.Sound) {changes : Store} (hfollows : s.changes.Follows changes)
    {d e : ℕ} (hlink : s.promoted_from d = some e) : ∃ draft ∈ changes.rows,
      ∃ source ∈ changes.rows, draft.id = d ∧ source.id = e ∧ source.Applied ∧
        SameContent source draft := by
  obtain ⟨draft, hdraft, source, hsource, hd, he, happlied, hsame⟩ := h.linked d e hlink
  obtain ⟨draft', hdraft', hproposed, -⟩ := hfollows draft hdraft
  obtain ⟨source', hsource', hproposed', hmoves⟩ := hfollows source hsource
  exact ⟨draft', hdraft', source', hsource', (congrArg Proposed.id hproposed).trans hd,
    (congrArg Proposed.id hproposed').trans he, hmoves.applied happlied,
    hsame.of_proposed hproposed' hproposed⟩

/-- No draft has been applied. -/
theorem ne_of_applied {changes : Store} {source draft : TM1Change} (hsource : source ∈ changes.rows)
    (happlied : source.Applied) (hdraft : draft ∈ changes.rows) (hstatus : draft.status = .draft) :
    source.id ≠ draft.id := by
  intro hid
  have hsame : source = draft := changes.ids.eq hsource hdraft rfl rfl hid
  rw [hsame, TM1Change.Applied, hstatus] at happlied
  rcases happlied with happlied | happlied <;> cases happlied

/-- A promotion links a draft that nothing came from yet. -/
theorem Sound.promoted (h : s.Sound) {connections : List TM1Connection} {changes : Store}
    {change_id : ℕ} {draft : TM1Change} (hfollows : s.changes.Follows changes)
    (hpromoted : PromotedTo connections s.changes change_id draft changes) (landscape : Landscape)
    (hlandscape : landscape.changes = changes) :
    Sound ⟨landscape, Function.update s.promoted_from draft.id (some change_id)⟩ := by
  subst hlandscape
  obtain ⟨source, hsource, rfl, hexecuted, hsame, -⟩ := hpromoted.source
  obtain ⟨source', hsource', hproposed, hmoves⟩ := hfollows source hsource
  have happlied : source'.Applied := hmoves.applied (.inl hexecuted)
  have hid : source'.id = source.id := congrArg Proposed.id hproposed
  have hne := ne_of_applied hsource' happlied hpromoted.mem hpromoted.isDraft
  rw [hid] at hne
  constructor
  · intro d e hlink
    replace hlink : Function.update s.promoted_from draft.id (some source.id) d = some e := hlink
    by_cases hd : d = draft.id
    · subst hd
      rw [Function.update_self, Option.some.injEq] at hlink
      subst hlink
      exact ⟨draft, hpromoted.mem, source', hsource', rfl, hid, happlied,
        hsame.of_proposed hproposed rfl⟩
    · rw [Function.update_of_ne hd] at hlink
      exact h.link_follows hfollows hlink
  · refine h.grounded.pass (fun x hlink => ?_) hne
    obtain ⟨_, -, r, hr, -, hrid, hrapplied, -⟩ := h.link_follows hfollows hlink
    exact ne_of_applied hr hrapplied hpromoted.mem hpromoted.isDraft hrid

/-- A deletion takes links away, and leaves the ends of those that it leaves. -/
theorem Sound.dropped (h : s.Sound) (connection_id : ℕ) : (s.dropped connection_id).Sound := by
  have hless : ∀ d e, (s.dropped connection_id).promoted_from d = some e →
      s.promoted_from d = some e ∧
      (tm1_change_repository.get_by_id (s.changes.dropConnection connection_id) d).isSome ∧
      (tm1_change_repository.get_by_id (s.changes.dropConnection connection_id) e).isSome := by
    intro d e hlink
    have hlink' : (if (tm1_change_repository.get_by_id (s.changes.dropConnection connection_id)
        d).isSome then (s.promoted_from d).filter fun source =>
          (tm1_change_repository.get_by_id (s.changes.dropConnection connection_id) source).isSome
      else none) = some e := hlink
    split at hlink'
    · rename_i hthere
      obtain ⟨hlink', hthere'⟩ := Option.filter_eq_some_iff.mp hlink'
      exact ⟨hlink', hthere, hthere'⟩
    · cases hlink'
  -- a row that is left is the row that was there, for all that a link is about
  have hleft : ∀ row ∈ s.changes.rows,
      (tm1_change_repository.get_by_id (s.changes.dropConnection connection_id) row.id).isSome →
      ∃ r ∈ (s.changes.dropConnection connection_id).rows, r.proposed = row.proposed ∧
        r.status = row.status := by
    intro row hrow hthere
    obtain ⟨r, hr⟩ := Option.isSome_iff_exists.mp hthere
    have hmem := tm1_change_repository.get_by_id_mem hr
    obtain ⟨q, hq, heq⟩ := List.mem_map.mp hmem
    have hid : q.id = row.id := by
      have hrid := tm1_change_repository.get_by_id_id hr
      rw [← heq] at hrid
      exact hrid
    have hsame : q = row := s.changes.ids.eq (List.mem_filter.mp hq).1 hrow rfl rfl hid
    subst hsame
    refine ⟨r, hmem, ?_, ?_⟩ <;> rw [← heq]
    rfl
  refine ⟨fun d e hlink => ?_, h.grounded.mono fun d e hlink => (hless d e hlink).1⟩
  obtain ⟨hlink, hd, he⟩ := hless d e hlink
  obtain ⟨draft, hdraft, source, hsource, rfl, rfl, happlied, hsame⟩ := h.linked d e hlink
  obtain ⟨draft', hdraft', hproposed, -⟩ := hleft draft hdraft hd
  obtain ⟨source', hsource', hproposed', hstatus⟩ := hleft source hsource he
  refine ⟨draft', hdraft', source', hsource', congrArg Proposed.id hproposed,
    congrArg Proposed.id hproposed', ?_, hsame.of_proposed hproposed' hproposed⟩
  rw [TM1Change.Applied, hstatus]
  exact happlied

/-- Only a promotion that goes through writes a link. -/
theorem linked_cases (db : AuthDb) (s : Estate) (demand : Demand Graph) :
    s.linked db demand = s.promoted_from ∨ ∃ change_id draft,
      PromotedTo s.landscape.connections s.changes change_id draft
        (s.landscape.after db demand).changes ∧
      (s.landscape.after db demand).connections = s.landscape.connections ∧
      s.linked db demand = Function.update s.promoted_from draft.id (some change_id) := by
  cases demand with
  | promote caller mode a tm1 m connection_id change_id target_connection_id =>
    rcases hroute : promote_change_route mode db caller s.landscape.connections s.changes a tm1 m
      connection_id change_id target_connection_id with e | ⟨draft, changes⟩
    · left
      simp only [linked, hroute]
    · right
      refine ⟨change_id, draft, ?_, ?_, ?_⟩
      · simp only [Landscape.after, hroute]
        exact promote_change_route_promoted hroute
      · simp only [Landscape.after, hroute]
        rfl
      · simp only [linked, hroute]
  | _ => exact .inl rfl

/-- **A request keeps the roads.** -/
theorem Sound.step (h : s.Sound) (request : Request Graph) : (s.after db request).Sound := by
  cases request with
  | delete_connection caller connection_id =>
    unfold after
    dsimp only
    split
    · exact h
    · exact h.dropped _
  | demand demand =>
    have hfollows := Landscape.after_follows db s.landscape demand
    show Sound ⟨s.landscape.after db demand, s.linked db demand⟩
    rcases linked_cases db s demand with hsame | ⟨change_id, draft, hpromoted, -, hlinked⟩
    · rw [hsame]
      exact ⟨fun d e hlink => h.link_follows hfollows hlink, h.grounded⟩
    · rw [hlinked]
      exact h.promoted hfollows hpromoted _ rfl

theorem run_sound {requests : List (Request Graph)}
    (h : run (Estate.step db) Estate.start requests = some s) : s.Sound := by
  refine invariant_of_step (I := Sound) (fun t request t' ht hstep => ?_) Sound.start h
  rw [← Option.some.inj hstep]
  exact ht.step request

end Estate

/-! ## A road -/

/-- The changes of a road: each was promoted from the one before, all of them are of the content
of the last, and all but the last have been applied. -/
structure Road (s : Estate) (change : TM1Change) (chain : List TM1Change) : Prop where
  rows : ∀ c ∈ chain, c ∈ s.changes.rows
  last : chain.getLast? = some change
  linked : chain.IsChain fun earlier later => s.promoted_from later.id = some earlier.id
  same : ∀ c ∈ chain, SameContent c change
  applied : ∀ c ∈ chain.dropLast, c.Applied

section Roads

variable {s : Estate} {change first : TM1Change} {rest chain : List TM1Change}

/-- One stage more. -/
theorem Road.back (hs : s.Sound) (h : Road s change (first :: rest)) {id : ℕ}
    (hlink : s.promoted_from first.id = some id) :
    ∃ earlier, tm1_change_repository.get_by_id s.changes id = some earlier ∧
      earlier.organization_id = change.organization_id ∧
      Road s change (earlier :: first :: rest) := by
  obtain ⟨draft, hdraft, source, hsource, hd, rfl, happlied, hsame⟩ := hs.linked _ _ hlink
  have hfirst : draft = first :=
    s.changes.ids.eq hdraft (h.rows first List.mem_cons_self) rfl rfl hd
  subst hfirst
  have hcontent := hsame.trans (h.same draft List.mem_cons_self)
  refine ⟨source, tm1_change_repository.get_by_id_of_mem hsource, hcontent.organization_id,
    ?_, ?_, ?_, ?_, ?_⟩
  · intro c hc
    rcases List.mem_cons.mp hc with rfl | hc
    · exact hsource
    · exact h.rows c hc
  · rw [List.getLast?_cons_cons]
    exact h.last
  · exact List.isChain_cons_cons.mpr ⟨hlink, h.linked⟩
  · intro c hc
    rcases List.mem_cons.mp hc with rfl | hc
    · exact hcontent
    · exact h.same c hc
  · intro c hc
    rw [List.dropLast_cons_cons] at hc
    rcases List.mem_cons.mp hc with rfl | hc
    · exact happlied
    · exact h.applied c hc

/-- The loop goes back along the road, to its beginning or to the bound. -/
theorem promotion.chainFrom_road (hs : s.Sound) (fuel : ℕ) (h : Road s change (first :: rest)) :
    Road s change (promotion.chainFrom s change.organization_id fuel (first :: rest)) ∧
      ((∀ c ∈ (promotion.chainFrom s change.organization_id fuel (first :: rest)).head?,
          s.promoted_from c.id = none) ∨
        (promotion.chainFrom s change.organization_id fuel (first :: rest)).length
          = (first :: rest).length + fuel) := by
  induction fuel generalizing first rest with
  | zero => exact ⟨h, .inr rfl⟩
  | succ fuel ih =>
    rw [promotion.chainFrom]
    rcases hlink : s.promoted_from first.id with _ | id
    · refine ⟨h, .inl fun c hc => ?_⟩
      rw [List.head?_cons, Option.mem_some] at hc
      rw [← hc]
      exact hlink
    · obtain ⟨earlier, hget, horganization, hroad⟩ := h.back hs hlink
      simp only [hget, horganization, ne_eq, not_true_eq_false, if_false]
      obtain ⟨hchain, hend⟩ := ih hroad
      refine ⟨hchain, hend.imp_right fun hlength => ?_⟩
      rw [hlength, List.length_cons]
      omega

theorem promotion._chain_road (hs : s.Sound) (hchange : change ∈ s.changes.rows) :
    Road s change (promotion._chain s change) ∧
      ((∀ c ∈ (promotion._chain s change).head?, s.promoted_from c.id = none) ∨
        (promotion._chain s change).length = promotion.MAX_CHAIN) := by
  have hroad : Road s change [change] := by
    refine ⟨fun c hc => ?_, rfl, .singleton _, fun c hc => ?_,
      fun c hc => absurd hc List.not_mem_nil⟩
    · rw [List.mem_singleton.mp hc]
      exact hchange
    · rw [List.mem_singleton.mp hc]
      exact .refl change
  exact promotion.chainFrom_road hs (promotion.MAX_CHAIN - 1) hroad

/-- No change comes twice. -/
theorem Road.nodup (hs : s.Sound) (h : Road s change chain) : (chain.map TM1Change.id).Nodup := by
  apply hs.grounded.nodup
  rw [List.isChain_map]
  exact h.linked

end Roads

end PaCopilot
