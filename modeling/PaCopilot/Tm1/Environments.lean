/-
Environments over the life of connections and changes.

A change carries the environment it was drafted on, while its connection may be
relabelled any number of times before the change is applied, and drafts come from a
person, from the assistant and from a promotion. Each request is one step here. Beside
the two tables the state keeps, for the record, the label that each change was drafted
on and a log of the deeds that the rules are about; no request reads either.

The one fact that carries everything is that a row's `environment` is the label it was
drafted on ([`Landscape.Sound`]): it is written once, at drafting, and no edit of the
connection or of the change touches it.
-/
import PaCopilot.Ai.ApplyChange
import PaCopilot.Lib.Run
import Mathlib.Logic.Function.Basic

set_option autoImplicit false

namespace PaCopilot

open Remote

/-! ## Requests -/

/-- What a rule of governance is about, with the labels of that moment. -/
inductive Deed
  | executed (user author : ℕ) (drafted current : String)
  | rolledBack (user : ℕ) (drafted current : String)
  | relabelled (user : ℕ) (left entered : String)
  | assistantDrafted (label : String)
  | assistantApplied (label : String)

/-- The label of a connection. -/
def labelOf (connections : List TM1Connection) (connection_id : ℕ) : String :=
  match connections.find? fun c => c.id = connection_id with
  | none => "dev"
  | some connection => governance.environment_of connection

structure Landscape where
  connections : List TM1Connection
  nextConnection : ℕ
  changes : Store
  draftedOn : ℕ → String
  log : List Deed

/-- Before the first connection. -/
def Landscape.start : Landscape := ⟨[], 0, Store.empty, fun _ => "dev", []⟩

/-- A request: of a user to a route, or a call of one of the assistant's tools. What it
meets on its way comes with it. -/
inductive Demand (Graph : Type)
  | connect (caller : Caller) (TM1_ALLOW_PRIVATE_ADDRESSES : Bool) (gateways : List Tm1Gateway)
      (request : ConnectionCreate)
  | edit (caller : Caller) (TM1_ALLOW_PRIVATE_ADDRESSES : Bool) (gateways : List Tm1Gateway)
      (connection_id : ℕ) (request : ConnectionUpdate)
  | draft (caller : Caller) (a : change_service.Analyzers Graph) (tm1 : TM1) (m : Moment Graph)
      (connection_id : ℕ) (request : ChangeCreate)
  | promote (caller : Caller) (mode : governance.Tm1Mode) (a : change_service.Analyzers Graph)
      (tm1 : TM1) (m : Moment Graph) (connection_id change_id target_connection_id : ℕ)
  | execute (caller : Caller) (mode : governance.Tm1Mode) (tm1 : TM1)
      (answer : change_service.Answers) (server : Server) (now : ℕ) (acknowledge_impact : Bool)
      (connection_id change_id : ℕ)
  | rollback (caller : Caller) (mode : governance.Tm1Mode) (tm1 : TM1)
      (answer : change_service.RollbackAnswers) (server : Server) (now : ℕ)
      (connection_id change_id : ℕ)
  | reject (caller : Caller) (server : Server) (connection_id change_id : ℕ)
  | assistantDraft (around : ai.Surroundings Graph) (tool : ai.DraftTool Graph)
      (session : ai.Session) (input : ai.ToolInput)
  | assistantApply (around : ai.Surroundings Graph) (session : ai.Session)
      (conversation_id : Option ℕ) (executions : List (ai.AIToolExecution ai.ToolInput))
      (input : ai.ToolInput)

namespace Demand

/-- Who asks. -/
def user {Graph : Type} : Demand Graph → ℕ
  | connect caller .. | edit caller .. | draft caller .. | promote caller .. | execute caller ..
  | rollback caller .. | reject caller .. => caller.id
  | assistantDraft _ _ session _ | assistantApply _ session .. => session.user_id

end Demand

namespace Landscape

/-- The connections after a step of the user, with the relabellings put down. -/
def relabelled (s : Landscape) (user : ℕ) (connections : List TM1Connection) : Landscape :=
  { s with
    connections := connections
    log := s.log ++ (s.connections.filter fun c =>
      labelOf s.connections c.id ≠ labelOf connections c.id).map fun c =>
        Deed.relabelled user (labelOf s.connections c.id) (labelOf connections c.id) }

/-- The changes after `create_change`. A new row is drafted on the label of now. -/
def drafted (s : Landscape) (change : TM1Change) (changes : Store) (deeds : List Deed) :
    Landscape :=
  { s with
    changes := changes
    draftedOn := if change.id < s.changes.next then s.draftedOn
      else Function.update s.draftedOn change.id (labelOf s.connections change.connection_id)
    log := s.log ++ deeds }

/-- The changes after the decision on one. -/
def decided (s : Landscape) (amendment : Amendment) (deeds : List Deed) : Landscape :=
  { s with changes := s.changes.amend amendment, log := s.log ++ deeds }

variable {Graph : Type} (db : AuthDb)

/-- The state after a request. One that is refused leaves it as it is. -/
def after (s : Landscape) (demand : Demand Graph) : Landscape :=
  match demand with
  | .connect caller allow gateways request =>
    match create_connection_route ⟨allow, db, gateways⟩ caller s.nextConnection request with
    | .error _ => s
    | .ok connection =>
      { s.relabelled caller.id (s.connections ++ [connection]) with
        nextConnection := s.nextConnection + 1 }
  | .edit caller allow gateways connection_id request =>
    match update_connection_route ⟨allow, db, gateways⟩ caller s.connections connection_id request
      with
    | .error _ => s
    | .ok next =>
      s.relabelled caller.id (s.connections.map fun c => if c.id = next.id then next else c)
  | .draft caller a tm1 m connection_id request =>
    match create_change_route db caller s.connections s.changes a tm1 m connection_id request with
    | .error _ => s
    | .ok (change, changes) => s.drafted change changes []
  | .promote caller mode a tm1 m connection_id change_id target_connection_id =>
    match promote_change_route mode db caller s.connections s.changes a tm1 m connection_id
        change_id target_connection_id with
    | .error _ => s
    | .ok (change, changes) => s.drafted change changes []
  | .execute caller mode tm1 answer server now acknowledge_impact connection_id change_id =>
    match execute_change_route mode db caller s.connections s.changes connection_id change_id with
    | .error _ => s
    | .ok (connection, change) =>
      s.decided (change_service.executed tm1 change server .route answer caller.id now
          acknowledge_impact)
        [.executed caller.id change.created_by (s.draftedOn change.id)
          (governance.environment_of connection)]
  | .rollback caller mode tm1 answer server now connection_id change_id =>
    match rollback_change_route mode db caller s.connections s.changes connection_id change_id with
    | .error _ => s
    | .ok (connection, change) =>
      s.decided (change_service.rolledBackIn tm1 change server answer now)
        [.rolledBack caller.id (s.draftedOn change.id) (governance.environment_of connection)]
  | .reject caller server connection_id change_id =>
    match reject_change_route db caller s.connections s.changes connection_id change_id with
    | .error _ => s
    | .ok change => s.decided (change_service.rejected change server) []
  | .assistantDraft around tool session input =>
    match tool.create { around with auth := db, connections := s.connections } session input
        s.changes with
    | .error _ => s
    | .ok (_, change, changes) =>
      s.drafted change changes [.assistantDrafted (labelOf s.connections change.connection_id)]
  | .assistantApply around session conversation_id executions input =>
    match ai.checkApply { around with auth := db, connections := s.connections } session
        conversation_id input ⟨s.changes, executions⟩ with
    | .error _ => s
    -- the assistant is told why not
    | .ok (.answered _) => s
    | .ok (.applies connection change) =>
      s.decided (around.applied session input change)
        [.executed session.user_id change.created_by (s.draftedOn change.id)
            (governance.environment_of connection),
          .assistantApplied (governance.environment_of connection)]

/-- One request after the other. -/
def step (s : Landscape) (demand : Demand Graph) : Option Landscape := some (s.after db demand)

end Landscape

/-! ## The rules -/

/-- The rules of the environments, of one deed. -/
def Deed.Governed (db : AuthDb) : Deed → Prop
  | .executed user author drafted current =>
    governance.Deploys db user (governance.stricter drafted current) ∧
      (drafted = "prod" ∨ current = "prod" → user ≠ author)
  | .rolledBack user drafted current =>
    governance.Deploys db user (governance.stricter drafted current)
  | .relabelled user left entered =>
    (left ≠ "dev" → governance.Deploys db user left) ∧
      (entered ≠ "dev" → governance.Deploys db user entered)
  | .assistantDrafted label => label ≠ "prod"
  | .assistantApplied label => label = "dev"

/-- Every row says what it was drafted on, and every deed was by the rules. -/
structure Landscape.Sound (db : AuthDb) (s : Landscape) : Prop where
  labels : ∀ r ∈ s.changes.rows, r.environment = s.draftedOn r.id ∧ r.environment ≠ ""
  governed : ∀ deed ∈ s.log, deed.Governed db

/-! ## Labels -/

section Labels

variable {Graph : Type} {connections : List TM1Connection} {connection next : TM1Connection}
  {connection_id : ℕ}

theorem governance.environment_of_ne (connection : TM1Connection) :
    governance.environment_of connection ≠ "" := by
  unfold governance.environment_of
  split
  · decide
  · assumption

theorem labelOf_eq (h : (connections.find? fun c => c.id = connection_id) = some connection) :
    labelOf connections connection_id = governance.environment_of connection := by
  rw [labelOf, h]

theorem labelOf_ne (connections : List TM1Connection) (connection_id : ℕ) :
    labelOf connections connection_id ≠ "" := by
  unfold labelOf
  split
  · decide
  · exact governance.environment_of_ne _

/-- A connection that is there keeps its label when one is added. -/
theorem labelOf_append (hmem : connection ∈ connections) :
    labelOf (connections ++ [next]) connection.id = labelOf connections connection.id := by
  rcases hfind : connections.find? fun c => c.id = connection.id with _ | found
  · exact absurd (decide_eq_true rfl) (List.find?_eq_none.mp hfind connection hmem)
  · rw [labelOf_eq hfind]
    apply labelOf_eq
    rw [List.find?_append, hfind]
    rfl

/-- A connection that is replaced by its new row has the new label, and the others have
theirs. -/
theorem labelOf_replace (hid : next.id = connection.id)
    (hfind : (connections.find? fun c => c.id = connection.id) = some connection) (other : ℕ) :
    labelOf (connections.map fun c => if c.id = next.id then next else c) other
      = if other = connection.id then governance.environment_of next
        else labelOf connections other := by
  have hmap : ((connections.map fun c => if c.id = next.id then next else c).find?
      fun c => c.id = other)
        = (connections.find? fun c => c.id = other).map
          fun c => if c.id = next.id then next else c := by
    rw [List.find?_map]
    congr 2
    funext c
    simp only [Function.comp_apply]
    by_cases hc : c.id = next.id
    · rw [if_pos hc, hc]
    · rw [if_neg hc]
  by_cases hother : other = connection.id
  · subst hother
    rw [if_pos rfl]
    apply labelOf_eq
    rw [hmap, hfind, Option.map_some, if_pos hid.symm]
  · rw [if_neg hother]
    rcases hrow : connections.find? fun c => c.id = other with _ | found
    · rw [labelOf, labelOf, hmap, hrow]
      rfl
    · have hfound := List.find?_some hrow
      have hname : found.id = other := of_decide_eq_true hfound
      rw [labelOf_eq hrow]
      apply labelOf_eq
      rw [hmap, hrow, Option.map_some, if_neg]
      rw [hname, hid]
      exact hother

/-- A new draft is of the label that its connection has. -/
theorem created_label {a : change_service.Analyzers Graph} {tm1 : TM1} {m : Moment Graph}
    {p : Proposal} {changes changes' : Store} {draft : TM1Change}
    (hconnections : m.connections = connections.map TM1Connection.seen)
    (h : change_service.create_change a tm1 m p changes = .ok (draft, changes'))
    (hnew : ¬ draft.id < changes.next) :
    draft.environment = labelOf connections draft.connection_id := by
  obtain ⟨hmem, -, change_type, hproposes, hsame | ⟨change, hdrafted, hdraft, -⟩⟩ :=
    change_service.create_change_proposes h
  · rw [hsame] at hmem
    exact absurd (changes.fresh draft hmem) hnew
  · obtain ⟨found, hfound, henvironment⟩ := change_service.drafted_environment hdrafted
    rw [hproposes.connection_id, hdraft]
    show change.environment = _
    rw [henvironment]
    unfold tm1_integration_service.get_connection at hfound
    rw [hconnections, List.find?_map] at hfound
    rcases hfind : connections.find? fun c => c.id = p.connection_id with _ | connection
    · have hnone : (connections.find? ((fun c : Connection => decide (c.id = p.connection_id))
          ∘ TM1Connection.seen)) = none := hfind
      rw [hnone] at hfound
      cases hfound
    · have hsome : (connections.find? ((fun c : Connection => decide (c.id = p.connection_id))
          ∘ TM1Connection.seen)) = some connection := hfind
      rw [hsome, Option.map_some] at hfound
      dsimp only at hfound
      obtain ⟨_, hfound⟩ := rest_of_bind hfound
      cases hfound
      rw [labelOf_eq hfind]
      rfl

end Labels

/-! ## What each request keeps -/

namespace Landscape

variable {Graph : Type} {db : AuthDb} {s : Landscape}

theorem Sound.start : Landscape.start.Sound db := ⟨fun _ h => (nomatch h), fun _ h => (nomatch h)⟩

/-- A decision keeps what was drafted. -/
theorem Sound.decided (h : s.Sound db) {amendment : Amendment} {deeds : List Deed}
    (hdeeds : ∀ deed ∈ deeds, deed.Governed db) : (s.decided amendment deeds).Sound db := by
  refine ⟨?_, ?_⟩
  · intro r hr
    obtain ⟨q, hq, hproposed⟩ := Store.mem_amend hr
    have hid : r.id = q.id := congrArg Proposed.id hproposed
    have henvironment : r.environment = q.environment := congrArg Proposed.environment hproposed
    rw [henvironment, hid]
    exact h.labels q hq
  · intro deed hdeed
    rcases List.mem_append.mp hdeed with hold | hnew
    · exact h.governed deed hold
    · exact hdeeds deed hnew

/-- A draft puts down the label it is on. -/
theorem Sound.drafted (h : s.Sound db) {a : change_service.Analyzers Graph} {tm1 : TM1}
    {m : Moment Graph} {p : Proposal} {changes : Store} {draft : TM1Change} {deeds : List Deed}
    (hconnections : m.connections = s.connections.map TM1Connection.seen)
    (hcreate : change_service.create_change a tm1 m p s.changes = .ok (draft, changes))
    (hdeeds : ∀ deed ∈ deeds, deed.Governed db) : (s.drafted draft changes deeds).Sound db := by
  refine ⟨?_, ?_⟩
  · intro r hr
    obtain ⟨hmem, -, change_type, -, hsame | ⟨change, -, hdraft, hrows⟩⟩ :=
      change_service.create_change_proposes hcreate
    · -- the proposal repeats an open draft
      have hold : draft.id < s.changes.next := by
        rw [hsame] at hmem
        exact s.changes.fresh draft hmem
      have hrow : r ∈ s.changes.rows := by
        rw [← hsame]
        exact hr
      show r.environment = (if draft.id < s.changes.next then s.draftedOn else _) r.id ∧ _
      rw [if_pos hold]
      exact h.labels r hrow
    · have hnew : ¬ draft.id < s.changes.next := by
        rw [hdraft]
        exact Nat.lt_irrefl _
      show r.environment = (if draft.id < s.changes.next then s.draftedOn
        else Function.update s.draftedOn draft.id _) r.id ∧ _
      rw [if_neg hnew]
      rcases hrows r hr with rfl | ⟨q, hq, hproposed⟩
      · have hlabel := created_label hconnections hcreate hnew
        rw [Function.update_self, hlabel]
        exact ⟨rfl, labelOf_ne _ _⟩
      · have hid : r.id = q.id := congrArg Proposed.id hproposed
        have henvironment : r.environment = q.environment :=
          congrArg Proposed.environment hproposed
        have hother : q.id ≠ draft.id := by
          intro hsame
          have hlt := s.changes.fresh q hq
          rw [hsame] at hlt
          exact hnew hlt
        rw [henvironment, hid, Function.update_of_ne hother]
        exact h.labels q hq
  · intro deed hdeed
    rcases List.mem_append.mp hdeed with hold | hnew
    · exact h.governed deed hold
    · exact hdeeds deed hnew

/-- A change of the connections that changes labels by the rules. -/
theorem Sound.relabelled (h : s.Sound db) {user : ℕ} {connections : List TM1Connection}
    (hmoved : ∀ c ∈ s.connections, labelOf s.connections c.id ≠ labelOf connections c.id →
      (Deed.relabelled user (labelOf s.connections c.id) (labelOf connections c.id)).Governed db) :
    (s.relabelled user connections).Sound db := by
  refine ⟨h.labels, ?_⟩
  intro deed hdeed
  rcases List.mem_append.mp hdeed with hold | hnew
  · exact h.governed deed hold
  · obtain ⟨c, hc, rfl⟩ := List.mem_map.mp hnew
    obtain ⟨hmem, hdiffers⟩ := List.mem_filter.mp hc
    exact hmoved c hmem (of_decide_eq_true hdiffers)

/-- Who may apply a change may deploy to the stricter of the environment it was drafted on
and the one of now, and is not its author where one of them is PROD. -/
theorem Sound.applies (h : s.Sound db) {user : ℕ} {change : TM1Change}
    {connection : TM1Connection} {action : governance.Action} (hchange : change ∈ s.changes.rows)
    (hcheck : governance.check_can_apply db user change connection action = .ok ()) :
    governance.Deploys db user (governance.stricter (s.draftedOn change.id)
        (governance.environment_of connection)) ∧
      (action = .execute → s.draftedOn change.id = "prod"
        ∨ governance.environment_of connection = "prod" → user ≠ change.created_by) := by
  obtain ⟨hlabel, hne⟩ := h.labels change hchange
  obtain ⟨hdeploys, hauthor⟩ := governance.check_can_apply_ok hcheck
  rw [governance.effective_environment_eq hne, hlabel] at hdeploys hauthor
  refine ⟨hdeploys, fun haction hprod hsame => ?_⟩
  exact hauthor (governance.stricter_prod hprod) haction hsame.symm

/-- The label of a connection is changed by one who may deploy to both environments. -/
theorem edit_governed {ctx : ConnectionContext} {caller : Caller} {connection_id : ℕ}
    {request : ConnectionUpdate} {next c : TM1Connection} {connections : List TM1Connection}
    (h : update_connection_route ctx caller connections connection_id request = .ok next)
    (hmoved : labelOf connections c.id
      ≠ labelOf (connections.map fun c => if c.id = next.id then next else c) c.id) :
    (Deed.relabelled caller.id (labelOf connections c.id)
      (labelOf (connections.map fun c => if c.id = next.id then next else c) c.id)).Governed
        ctx.db := by
  obtain ⟨existing, hfound, hnext, -, hlabel⟩ := update_connection_route_ok h
  have hid : next.id = existing.id := by
    rw [hnext]
    rfl
  have hfind := connection_service.get_connection_find hfound
  rw [← (connection_service.get_connection_ok hfound).2] at hfind
  rw [labelOf_replace hid hfind] at hmoved ⊢
  by_cases hc : c.id = existing.id
  · rw [if_pos hc, hc, labelOf_eq hfind] at hmoved ⊢
    -- the label of the connection is the one requested, or as it was
    have hstored : next.environment
        = (request.environment.join.map Environment.value).getD existing.environment := by
      rw [hnext]
      rfl
    rcases hrequested : request.environment.join with _ | requested
    · rw [hrequested] at hstored
      refine absurd ?_ hmoved
      rw [governance.environment_of, governance.environment_of, hstored]
      rfl
    · have henvironment : governance.environment_of next = requested.value := by
        rw [hrequested] at hstored
        rw [governance.environment_of, hstored]
        rcases requested with _ | _ | _ <;> rfl
      rw [henvironment] at hmoved ⊢
      exact governance.check_environment_change_ok (hlabel requested hrequested) hmoved
  · rw [if_neg hc] at hmoved
    exact absurd rfl hmoved

/-- **A request keeps the rules.** -/
theorem Sound.step (h : s.Sound db) (demand : Demand Graph) : (s.after db demand).Sound db := by
  unfold Landscape.after
  cases demand with
  | connect caller allow gateways request =>
    dsimp only
    split
    · exact h
    · rename_i connection hroute
      -- the others keep their labels
      have hsound : (s.relabelled caller.id (s.connections ++ [connection])).Sound db :=
        h.relabelled fun c hc hmoved => absurd (labelOf_append hc).symm hmoved
      exact ⟨hsound.labels, hsound.governed⟩
  | edit =>
    dsimp only
    split
    · exact h
    · rename_i next hroute
      exact h.relabelled fun c _ hmoved => edit_governed hroute hmoved
  | draft =>
    dsimp only
    split
    · exact h
    · rename_i change changes hroute
      obtain ⟨p, hcreate⟩ := create_change_route_ok hroute
      exact h.drafted rfl hcreate fun _ hdeed => (nomatch hdeed)
  | promote =>
    dsimp only
    split
    · exact h
    · rename_i change changes hroute
      obtain ⟨p, hcreate⟩ := promote_change_route_ok hroute
      exact h.drafted rfl hcreate fun _ hdeed => (nomatch hdeed)
  | execute =>
    dsimp only
    split
    · exact h
    · rename_i connection change hroute
      obtain ⟨hchange, -, hcheck⟩ := execute_change_route_ok hroute
      obtain ⟨hdeploys, hauthor⟩ := h.applies hchange hcheck
      refine h.decided fun deed hdeed => ?_
      rw [List.mem_singleton.mp hdeed]
      exact ⟨hdeploys, hauthor rfl⟩
  | rollback =>
    dsimp only
    split
    · exact h
    · rename_i connection change hroute
      obtain ⟨hchange, -, hcheck⟩ := rollback_change_route_ok hroute
      refine h.decided fun deed hdeed => ?_
      rw [List.mem_singleton.mp hdeed]
      exact (h.applies hchange hcheck).1
  | reject =>
    dsimp only
    split
    · exact h
    · exact h.decided fun _ hdeed => (nomatch hdeed)
  | assistantDraft =>
    dsimp only
    split
    · exact h
    · rename_i drafting change changes hcreated
      obtain ⟨-, hdraft⟩ := ai.DraftTool.create_ok hcreated
      obtain ⟨connection_id, connection, hconnection, hprod, hcreate⟩ := ai._create_draft_ok hdraft
      refine h.drafted rfl hcreate fun deed hdeed => ?_
      rw [List.mem_singleton.mp hdeed]
      have hfind := connection_service.get_connection_find hconnection
      obtain ⟨-, -, _, hproposes, -⟩ := change_service.create_change_proposes hcreate
      have hid : change.connection_id = connection_id := hproposes.connection_id
      show labelOf s.connections change.connection_id ≠ "prod"
      rw [hid, labelOf_eq hfind]
      exact hprod
  | assistantApply =>
    dsimp only
    split
    · exact h
    · exact h
    · rename_i connection change hchecked
      obtain ⟨hchange, hdev, hcheck⟩ := ai.checkApply_applies hchecked
      obtain ⟨hdeploys, hauthor⟩ := h.applies hchange hcheck
      refine h.decided fun deed hdeed => ?_
      rcases List.mem_cons.mp hdeed with rfl | hdeed
      · exact ⟨hdeploys, hauthor rfl⟩
      · rw [List.mem_singleton.mp hdeed]
        exact hdev

end Landscape

/-- **Environment governance.** In every run of any number of users with fixed permissions,
everything was done by the rules. -/
theorem environments_governed {Graph : Type} {db : AuthDb} {demands : List (Demand Graph)}
    {s : Landscape} (h : Run.run (Landscape.step db) Landscape.start demands = some s) :
    ∀ deed ∈ s.log, deed.Governed db := by
  have hsound : s.Sound db := by
    refine Run.invariant_of_step (I := Landscape.Sound db) (fun t demand t' ht hstep => ?_)
      Landscape.Sound.start h
    rw [← Option.some.inj hstep]
    exact ht.step demand
  exact hsound.governed

/-! ## A change by two people -/

/-- Two people of one role, which may draft and deploy. -/
def team : AuthDb where
  users := [⟨7, 1, .approved⟩, ⟨8, 1, .approved⟩]
  roles := [⟨1, none, "Developer", true⟩]
  permissions := [⟨1, "tm1.write"⟩, ⟨2, "tm1.deploy"⟩]
  role_permissions := [⟨1, 1⟩, ⟨1, 2⟩]
  user_roles := [⟨7, 1⟩, ⟨8, 1⟩]
  users_id := by decide
  roles_id := by decide
  permissions_id := by decide
  permissions_code := by decide
  uq_role_permission := by decide
  uq_user_role := by decide

/-- One of them adds a shared connection and drafts rules on it, the other executes
them. -/
def twoPeople : List (Demand Unit) :=
  [ .connect ⟨7, 1⟩ true [] {
      name := "Finance Dev"
      address := "tm1-dev.example.com"
      password := "secret"
      visibility := .organization },
    .draft ⟨7, 1⟩ change_service.noFindings currentTM1 change_service.quietMoment 0
      ⟨"update_rules", "Sales", some { rules := some "['Net'] = ['Gross'] * 0.9;" }⟩,
    .execute ⟨8, 1⟩ .governed currentTM1 (fun _ => .ok) smallServer 11 false 0 0 ]

/-- `environments_governed` of the two. -/
theorem twoPeople_governed :
    ∃ s, Run.run (Landscape.step team) Landscape.start twoPeople = some s ∧
      Deed.executed 8 7 "dev" "dev" ∈ s.log ∧ (Deed.executed 8 7 "dev" "dev").Governed team := by
  have hrun : Run.run (Landscape.step team) Landscape.start twoPeople
      = some (twoPeople.foldl (Landscape.after team) Landscape.start) := rfl
  have hdeed : Deed.executed 8 7 "dev" "dev"
      ∈ (twoPeople.foldl (Landscape.after team) Landscape.start).log := List.mem_cons_self
  exact ⟨_, hrun, hdeed, environments_governed hrun _ hdeed⟩

end PaCopilot
