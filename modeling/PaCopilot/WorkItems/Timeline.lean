/-
The timeline of a work item (`services/work_item_service.py`).

A work item holds no copies: conversations and TM1 changes are linked to it, and what the
timeline says of them is read from them each time, for one viewer. A linked record that the
viewer may not read is shown as an entry without detail, the same as one that is gone; all
that the timeline counts, dates and names is taken from what the viewer may read
([`timeline_same`]).

The tables stand here in the order in which a query without ORDER BY returns their rows.
-/
import PaCopilot.Change.Request
import PaCopilot.Python
import PaCopilot.Tm1.Connections

set_option autoImplicit false

namespace PaCopilot.work_item_service

/-! ## The rows -/

structure WorkItem where
  id : ℕ
  organization_id : ℕ
  reference : String
  title : String
  status : String
  root_cause : Option String
  created_by : ℕ
  created_at : ℕ
  kind : String
  connection_id : Option ℕ
  deriving DecidableEq

structure WorkItemLink where
  id : ℕ
  work_item_id : ℕ
  kind : String
  target_id : ℕ
  note : Option String
  linked_by : ℕ
  created_at : ℕ
  deriving DecidableEq

structure WorkItemDocument where
  work_item_id : ℕ
  kind : String
  title : String
  version : ℕ
  updated_by : Option ℕ
  updated_at : ℕ
  drafted_by_assistant : Bool
  deriving DecidableEq

structure IncidentInvestigation where
  work_item_id : ℕ
  run_by : Option ℕ
  summary : String
  created_at : ℕ
  deriving DecidableEq

structure AIConversation where
  id : ℕ
  organization_id : ℕ
  user_id : ℕ
  title : Option String
  purpose : Option String
  visibility : Visibility
  created_at : ℕ
  deriving DecidableEq

structure AIMessage where
  conversation_id : ℕ
  content : String
  deriving DecidableEq

/-- The keys of `new_values` that are read; `none` for one that is absent, or null. -/
structure NewValues where
  status : Option String
  root_cause : Option String
  resolution : Option String
  deriving DecidableEq

structure AuditLog where
  entity : String
  entity_id : ℕ
  action : String
  user_id : Option ℕ
  new_values : NewValues
  created_at : ℕ
  deriving DecidableEq

/-- The names of a user. -/
structure Person where
  id : ℕ
  first_name : String
  last_name : String
  deriving DecidableEq

structure Store where
  auth : AuthDb
  people : List Person
  audit_logs : List AuditLog
  links : List WorkItemLink
  documents : List WorkItemDocument
  investigations : List IncidentInvestigation
  connections : List TM1Connection
  conversations : List AIConversation
  messages : List AIMessage
  changes : List TM1Change

namespace Store

variable (s : Store)

/-- `db.get(AIConversation, id)`. -/
def conversation (id : ℕ) : Option AIConversation := s.conversations.find? (·.id = id)

/-- `db.get(TM1Change, id)`. -/
def change (id : ℕ) : Option TM1Change := s.changes.find? (·.id = id)

/-- `db.get(TM1Connection, id)`. -/
def connection (id : ℕ) : Option TM1Connection := s.connections.find? (·.id = id)

/-- How many messages a conversation has. -/
def messageCount (conversation_id : ℕ) : ℕ :=
  s.messages.countP (·.conversation_id = conversation_id)

end Store

def can_read_conversation (conversation : AIConversation) (organization_id user_id : ℕ) : Bool :=
  conversation.organization_id = organization_id && conversation.purpose = none
    && (conversation.user_id = user_id || conversation.visibility = .organization)

/-! ## What a timeline is made of -/

/-- An event, with the identifier of its actor. -/
structure Event where
  «at» : ℕ
  kind : String
  title : String
  detail : Option String
  actor_id : Option ℕ
  link_id : Option ℕ
  deriving DecidableEq

/-- A linked record; what only some of them have is `none` for the others. -/
structure Entry where
  link_id : ℕ
  kind : String
  target_id : ℕ
  note : Option String
  linked_by : ℕ
  linked_at : ℕ
  available : Bool
  title : String
  owner_id : Option ℕ := none
  messages : Option ℕ := none
  status : Option ChangeStatus := none
  connection_id : Option ℕ := none
  connection_name : Option String := none
  environment : Option String := none
  deriving DecidableEq

structure ProgressStep where
  key : String
  label : String
  done : Bool
  deriving DecidableEq

/-- What `timeline` has gathered. -/
structure Gathered where
  events : List Event := []
  linked : List Entry := []
  actors : List ℕ := []
  visible_changes : List TM1Change := []
  conversations : ℕ := 0

/-- `event`. -/
def Gathered.event (g : Gathered) (t : ℕ) (kind title : String) (detail : Option String)
    (actor link_id : Option ℕ) : Gathered :=
  { g with
    actors := g.actors ++ actor.toList
    events := g.events ++ [⟨t, kind, title, detail, actor, link_id⟩] }

/-- An event with the name of its actor. -/
structure TimelineEvent where
  «at» : ℕ
  kind : String
  title : String
  detail : Option String
  actor : Option String
  link_id : Option ℕ
  deriving DecidableEq

/-- A linked record with the names of who linked it and who owns it. -/
structure LinkedRecord where
  entry : Entry
  linked_by_name : Option String
  owner_name : Option String
  deriving DecidableEq

structure Timeline where
  events : List TimelineEvent
  links : List LinkedRecord
  progress : List ProgressStep
  created_by_name : Option String
  deriving DecidableEq

/-! ## `timeline` -/

section

variable (s : Store) (item : WorkItem) (user_id : ℕ)

/-- `user_names(db, ids).get(id)`. -/
def nameOf (ids : List ℕ) (id : Option ℕ) : Option String :=
  id.bind fun id =>
    if ids.contains id then
      (s.people.find? (·.id = id)).map fun person =>
        String.ofList (Python.strip s!"{person.first_name} {person.last_name}".toList)
    else none

/-- One row of the audit log. -/
def audited (g : Gathered) (row : AuditLog) : Gathered :=
  let g := match row.new_values.status with
    | none => g
    | some status =>
      g.event row.created_at "status" s!"Status set to {Python.spaced status}" none row.user_id none
  let g := if truthy row.new_values.root_cause then
      g.event row.created_at "root_cause" "Root cause recorded" row.new_values.root_cause
        row.user_id none
    else g
  if truthy row.new_values.resolution then
    g.event row.created_at "resolution" "Resolution recorded" row.new_values.resolution
      row.user_id none
  else g

/-- `incident_service.investigations`, newest first; none of them for a viewer who may not use
the server. -/
def investigations : List IncidentInvestigation :=
  match item.connection_id with
  | none => []
  | some connection_id =>
    match connection_service.get_connection s.auth (some user_id) s.connections connection_id
        item.organization_id .use with
    | .error _ => []
    | .ok _ =>
      (s.investigations.filter (·.work_item_id = item.id)).mergeSort
        fun a b => b.created_at ≤ a.created_at

/-- The entry of a link whose record is not shown. -/
def unavailable (link : WorkItemLink) (title : String) : Entry where
  link_id := link.id
  kind := link.kind
  target_id := link.target_id
  note := link.note
  linked_by := link.linked_by
  linked_at := link.created_at
  available := false
  title := title

def Gathered.unavailable (g : Gathered) (link : WorkItemLink) (title : String) : Gathered :=
  let g := g.event link.created_at "unavailable" title none none (some link.id)
  { g with linked := g.linked ++ [work_item_service.unavailable link title] }

/-- A link to a conversation. -/
def conversationLink (g : Gathered) (link : WorkItemLink) : Gathered :=
  match s.conversation link.target_id with
  | none => g.unavailable link "A conversation that is no longer shared"
  | some conversation =>
    if can_read_conversation conversation item.organization_id user_id = false then
      g.unavailable link "A conversation that is no longer shared"
    else
      let title := match conversation.title with
        | none | some "" => "Untitled conversation"
        | some title => title
      let g := { g with
        conversations := g.conversations + 1
        actors := g.actors ++ [conversation.user_id] }
      let g := g.event conversation.created_at "investigation" s!"Investigation: {title}" link.note
        (some conversation.user_id) (some link.id)
      { g with linked := g.linked ++ [{ work_item_service.unavailable link title with
          available := true
          owner_id := some conversation.user_id
          messages := some (s.messageCount conversation.id) }] }

/-- The label of a step on the timeline; the other steps are not shown. -/
def stepLabel : change_service.StepKey → Option String
  | .requested => some "Fix proposed"
  | .validated => some "Validated"
  | .approval => some "Approved"
  | .deployed => some "Applied"
  | .verified => some "Verified"
  | .rolled_back => some "Rolled back"
  | .analyzed | .diff | .snapshot => none

def stepKey : change_service.StepKey → String
  | .requested => "requested"
  | .analyzed => "analyzed"
  | .validated => "validated"
  | .diff => "diff"
  | .approval => "approval"
  | .snapshot => "snapshot"
  | .deployed => "deployed"
  | .verified => "verified"
  | .rolled_back => "rolled_back"

/-- A step in the life of a change, if it is done or has failed. -/
def stepEvent (change : TM1Change) (what place : String) (link : WorkItemLink) (g : Gathered)
    (step : change_service.Step) : Gathered :=
  match step.at, stepLabel step.key with
  | some t, some label =>
    if step.state = .done ∨ step.state = .failed then
      let actor := if step.key = .requested ∨ step.key = .validated then some change.created_by
        else change.executed_by
      let label := if step.state = .failed then s!"{label}: failed" else label
      g.event t s!"change_{stepKey step.key}" s!"{label} — {what}"
        (some (match step.detail with
          | none | some "" => place
          | some detail => detail)) actor (some link.id)
    else g
  | _, _ => g

/-- A link to a change. -/
def changeLink (g : Gathered) (link : WorkItemLink) : Except AppException Gathered :=
  match s.change link.target_id with
  -- gone, on a connection that is gone, or not the reader's: told apart by nothing
  | none => .ok (g.unavailable link "A change on a TM1 connection you cannot use")
  | some change =>
    match s.connection change.connection_id with
    | none => .ok (g.unavailable link "A change on a TM1 connection you cannot use")
    | some connection => do
      let allowed ← connection_service.may_access s.auth (some user_id) connection .use
      if allowed = false then
        return g.unavailable link "A change on a TM1 connection you cannot use"
      else
        let what := s!"{Python.spaced change.change_type.text} · {change.target_name}"
        let place := s!"{connection.name} ({governance.upper connection.environment})"
        let g := { g with visible_changes := g.visible_changes ++ [change] }
        -- one event for each step of the change
        let g := (change_service.lifecycle change).foldl (stepEvent change what place link) g
        return { g with linked := g.linked ++ [{ work_item_service.unavailable link what with
          available := true
          status := some change.status
          connection_id := some connection.id
          connection_name := some connection.name
          environment := some connection.environment }] }

def linked (g : Gathered) (link : WorkItemLink) : Except AppException Gathered :=
  let g := { g with actors := g.actors ++ [link.linked_by] }
  if link.kind = "conversation" then .ok (conversationLink s item user_id g link)
  else changeLink s user_id g link

/-- A document that the work has produced. -/
def documented (g : Gathered) (document : WorkItemDocument) : Gathered :=
  let verb := if document.drafted_by_assistant then "Drafted" else "Written"
  ({ g with actors := g.actors ++ document.updated_by.toList }).event document.updated_at "document"
    s!"{verb}: {document.title}" (some s!"version {document.version}") document.updated_by none

/-- The stages that a fix goes through. -/
def progress (g : Gathered) (documents : List WorkItemDocument) : List ProgressStep :=
  let executed := g.visible_changes.any fun c => c.status = .executed ∨ c.status = .rolled_back
  let deployed := g.visible_changes.any fun c => c.status = .executed
  let has (kind : String) := documents.any fun d => d.kind = kind
  let investigation : ProgressStep := ⟨"investigation", "Investigation", 0 < g.conversations⟩
  let steps : List ProgressStep := [
    ⟨"root_cause", "Root cause", truthy item.root_cause⟩,
    ⟨"fix", "Proposed fix", g.visible_changes ≠ []⟩,
    ⟨"approval", "Approval", executed⟩,
    ⟨"deployment", "Deployment", deployed⟩,
    ⟨"verification", "Verified", deployed && (item.status = "resolved" || item.status = "closed")⟩]
  if documents = [] then investigation :: steps
  else
    [investigation,
      ⟨"clarified", "Requirements clarified", has "requirements" || has "clarification_email"⟩]
    ++ steps ++
    [⟨"tested", "Tested", has "test_results"⟩, ⟨"delivered", "Delivery documented", has "delivery"⟩]

/-- The end of `timeline`: names for identifiers, and the events in order. -/
def assembled (g : Gathered) (documents : List WorkItemDocument) : Timeline :=
  let ids := g.actors ++ g.linked.filterMap (·.owner_id)
  { events := (g.events.map fun e =>
      (⟨e.at, e.kind, e.title, e.detail, nameOf s ids e.actor_id, e.link_id⟩ : TimelineEvent)).mergeSort
        fun a b => a.at ≤ b.at
    links := g.linked.map fun entry =>
      ⟨entry, nameOf s ids (some entry.linked_by), nameOf s ids entry.owner_id⟩
    progress := progress item g documents
    created_by_name := nameOf s ids (some item.created_by) }

/-- `timeline`. -/
def timeline : Except AppException Timeline := do
  let g : Gathered := { actors := [item.created_by] }
  let g := g.event item.created_at "created" s!"{item.reference} opened" (some item.title)
    (some item.created_by) none
  let audit := (s.audit_logs.filter fun row => row.entity = "WorkItem" ∧ row.entity_id = item.id ∧
    row.action = "work_item_updated").mergeSort fun a b => a.created_at ≤ b.created_at
  let g := audit.foldl audited g
  -- an investigation is of an incident alone
  let g := if item.kind = "incident" then
      (investigations s item user_id).reverse.foldl (fun g look =>
        g.event look.created_at "investigation_run" "Investigated" (some look.summary) look.run_by
          none) g
    else g
  let links := (s.links.filter (·.work_item_id = item.id)).mergeSort
    fun a b => a.created_at ≤ b.created_at
  let g ← links.foldlM (linked s item user_id) g
  let documents := s.documents.filter (·.work_item_id = item.id)
  let g := documents.foldl documented g
  return assembled s item g documents

end

/-! ## What a viewer may read -/

/-- The viewer may read the conversation. -/
def MayReadConversation (s : Store) (organization_id user_id id : ℕ) : Prop :=
  ∃ conversation, s.conversation id = some conversation ∧
    can_read_conversation conversation organization_id user_id = true

/-- The viewer may use the connection of the change. -/
def MayReadChange (s : Store) (user_id id : ℕ) : Prop :=
  ∃ change connection, s.change id = some change ∧
    s.connection change.connection_id = some connection ∧
      connection_service.may_access s.auth (some user_id) connection .use = .ok true

/-- Two stores that differ only in conversations, with their messages, and changes that the
viewer may not read: in what they are, or in whether they are there. -/
structure SameFor (organization_id user_id : ℕ) (s s' : Store) : Prop where
  auth : s'.auth = s.auth
  people : s'.people = s.people
  audit_logs : s'.audit_logs = s.audit_logs
  links : s'.links = s.links
  documents : s'.documents = s.documents
  investigations : s'.investigations = s.investigations
  connections : s'.connections = s.connections
  conversations : ∀ id, MayReadConversation s organization_id user_id id ∨
    MayReadConversation s' organization_id user_id id →
      s'.conversation id = s.conversation id ∧
        (s'.messages.filter fun m => m.conversation_id = id)
          = s.messages.filter fun m => m.conversation_id = id
  changes : ∀ id, MayReadChange s user_id id ∨ MayReadChange s' user_id id →
    s'.change id = s.change id

section Same

variable {s s' : Store} {item : WorkItem} {organization_id user_id : ℕ}

theorem conversation_id {id : ℕ} {conversation : AIConversation}
    (h : s.conversation id = some conversation) : conversation.id = id := by
  have hid := List.find?_some h
  exact of_decide_eq_true hid

/-- A link to a conversation that the viewer may not read is shown as one to nothing. -/
theorem conversationLink_hidden {g : Gathered} {link : WorkItemLink}
    (h : ¬ MayReadConversation s item.organization_id user_id link.target_id) :
    conversationLink s item user_id g link
      = g.unavailable link "A conversation that is no longer shared" := by
  unfold conversationLink
  split
  · rfl
  · rename_i conversation hfound
    refine if_pos (Bool.eq_false_iff.mpr fun hread => ?_)
    exact h ⟨conversation, hfound, hread⟩

/-- A link to a change that the viewer may not read is shown as one to nothing. -/
theorem changeLink_hidden {g : Gathered} {link : WorkItemLink}
    (h : ¬ MayReadChange s user_id link.target_id) :
    changeLink s user_id g link
      = .ok (g.unavailable link "A change on a TM1 connection you cannot use") := by
  unfold changeLink
  split
  · rfl
  · rename_i change hchange
    split
    · rfl
    · rename_i connection hconnection
      -- the check answers without asking for a permission, as the purpose is to use it
      obtain ⟨allowed, hallowed⟩ : ∃ allowed,
          connection_service.may_access s.auth (some user_id) connection .use = .ok allowed := by
        unfold connection_service.may_access
        dsimp only
        split
        · exact ⟨true, rfl⟩
        · exact ⟨false, rfl⟩
      rw [hallowed]
      cases allowed with
      | false => rfl
      | true => exact absurd ⟨change, connection, hchange, hconnection, hallowed⟩ h

theorem messageCount_eq (s : Store) (id : ℕ) :
    s.messageCount id = (s.messages.filter fun m => m.conversation_id = id).length :=
  List.countP_eq_length_filter ..

/-- A link to a conversation looks the same in both stores. -/
theorem conversationLink_same (h : SameFor item.organization_id user_id s s') (g : Gathered)
    (link : WorkItemLink) :
    conversationLink s' item user_id g link = conversationLink s item user_id g link := by
  by_cases hread : MayReadConversation s item.organization_id user_id link.target_id ∨
      MayReadConversation s' item.organization_id user_id link.target_id
  · obtain ⟨hsame, hmessages⟩ := h.conversations _ hread
    unfold conversationLink
    rw [hsame]
    rcases hfound : s.conversation link.target_id with _ | conversation
    · rfl
    · have hcount : s'.messageCount conversation.id = s.messageCount conversation.id := by
        rw [messageCount_eq, messageCount_eq, conversation_id hfound, hmessages]
      dsimp only
      rw [hcount]
  · rw [not_or] at hread
    rw [conversationLink_hidden hread.1, conversationLink_hidden hread.2]

/-- A link to a change looks the same in both stores. -/
theorem changeLink_same (h : SameFor organization_id user_id s s') (g : Gathered)
    (link : WorkItemLink) : changeLink s' user_id g link = changeLink s user_id g link := by
  by_cases hread : MayReadChange s user_id link.target_id ∨ MayReadChange s' user_id link.target_id
  · unfold changeLink Store.connection
    rw [h.changes _ hread, h.connections, h.auth]
  · rw [not_or] at hread
    rw [changeLink_hidden hread.1, changeLink_hidden hread.2]

theorem linked_same (h : SameFor item.organization_id user_id s s') :
    linked s' item user_id = linked s item user_id := by
  funext g link
  unfold linked
  dsimp only
  rw [conversationLink_same h, changeLink_same h]

theorem assembled_same (h : s'.people = s.people) : assembled s' = assembled s := by
  unfold assembled nameOf
  rw [h]

/-- **Work item privacy.** What a viewer sees of a work item is the same in two stores that
differ only in conversations and changes the viewer may not read. -/
theorem timeline_same (s s' : Store) (item : WorkItem) (user_id : ℕ)
    (h : SameFor item.organization_id user_id s s') :
    timeline s' item user_id = timeline s item user_id := by
  have hinvestigations : investigations s' item user_id = investigations s item user_id := by
    unfold investigations
    rw [h.auth, h.connections, h.investigations]
  unfold timeline
  rw [hinvestigations, linked_same h, assembled_same h.people, h.audit_logs, h.links, h.documents]

end Same

/-! ### A conversation and a change of somebody else -/

def fixLoad : WorkItem where
  id := 1
  organization_id := 1
  reference := "PBI #1234"
  title := "Workforce load fails on the new year"
  status := "open"
  root_cause := none
  created_by := 9
  created_at := 0
  kind := "work"
  connection_id := none

/-- The server that user 8 keeps private. -/
def privateServer : TM1Connection where
  id := 3
  organization_id := 1
  created_by := 8
  name := "Payroll"
  address := "payroll.internal"
  port := 8010
  ssl := true
  username := "admin"
  password := ""
  authentication_type := .native
  tenant := none
  database := none
  gateway_id := none
  environment := "dev"
  visibility := .private
  verify_ssl := true
  suspended_at := none

/-- A conversation that user 8 has taken back, and a change on the private server. -/
def withRecords : Store where
  auth := twoRoles
  people := [⟨8, "Ann", "Lee"⟩, ⟨9, "Bo", "Ek"⟩]
  audit_logs := []
  links := [⟨1, 1, "conversation", 5, none, 8, 10⟩, ⟨2, 1, "change", 6, none, 8, 20⟩]
  documents := []
  investigations := []
  connections := [privateServer]
  conversations := [⟨5, 1, 8, some "Payroll access", none, .private, 4⟩]
  messages := [⟨5, "Who may see the salaries?"⟩]
  changes := [{
    id := 6, connection_id := 3, organization_id := 1, created_by := 8, created_at := 7,
    change_type := .update_rules, target_name := "Payroll", new_content := none }]

/-- The same store once both are deleted. -/
def withoutRecords : Store :=
  { withRecords with conversations := [], messages := [], changes := [] }

/-- `timeline_same` for a viewer who may read neither. -/
theorem timeline_same_deleted :
    SameFor fixLoad.organization_id 9 withRecords withoutRecords ∧
      timeline withoutRecords fixLoad 9 = timeline withRecords fixLoad 9 := by
  have hsame : SameFor fixLoad.organization_id 9 withRecords withoutRecords := by
    refine ⟨rfl, rfl, rfl, rfl, rfl, rfl, rfl, fun id hread => ?_, fun id hread => ?_⟩
    · rcases hread with ⟨conversation, hfound, hread⟩ | ⟨conversation, hfound, -⟩
      · have hmem := List.mem_of_find?_eq_some hfound
        rw [List.mem_singleton.mp hmem] at hread
        exact absurd hread (by decide)
      · cases hfound
    · rcases hread with ⟨change, connection, hchange, hconnection, hread⟩ |
        ⟨change, connection, hchange, -⟩
      · have hmem := List.mem_of_find?_eq_some hconnection
        rw [List.mem_singleton.mp hmem] at hread
        exact absurd hread (by decide)
      · cases hchange
  exact ⟨hsame, timeline_same withRecords withoutRecords fixLoad 9 hsame⟩

end PaCopilot.work_item_service
