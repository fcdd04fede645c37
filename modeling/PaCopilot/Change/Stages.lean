/-
What a package says of the road of a change.

The stages of `package` are the changes of the road, in order, whatever became of the
connections in between. Their environments are read off the connections as they are now. As long
as no connection is relabelled, a row is labelled as its connection is ([`Estate.Labelled`]), and
so the stages read DEV, QA, PROD from wherever the road begins.
-/
import PaCopilot.Change.Promotions
import PaCopilot.Lib.Alike

set_option autoImplicit false

namespace PaCopilot

open Table Run

/-! ## The stages -/

namespace promotion

section Stages

variable {Hash Current : Type} [DecidableEq Hash] {_content_hash : Option NewContent → Hash}
  {_name_of : Option ℕ → Option String} {current : TM1Change → Except AppException Current}
  {db : AuthDb} {user : Option ℕ} {s : Estate} {now : ℕ} {change : TM1Change}

/-- Each change has its stage. -/
theorem stagesOf_ok {content_hash : Hash} {chain : List TM1Change} {stages : List Stage}
    (h : stagesOf _content_hash _name_of db user s content_hash chain = .ok stages) :
    List.Forall₂ (fun c stage => ∃ conn, connection_of db user s c = .ok conn ∧
      stage = stageOf _content_hash _name_of content_hash c conn) chain stages := by
  induction chain generalizing stages with
  | nil =>
    cases h
    exact .nil
  | cons c rest ih =>
    rw [stagesOf, bind_eq_ok_iff] at h
    obtain ⟨conn, hconn, h⟩ := h
    rw [bind_eq_ok_iff] at h
    obtain ⟨later, hlater, h⟩ := h
    cases h
    exact .cons ⟨conn, hconn, rfl⟩ (ih hlater)

theorem package_ok {package : Package Hash Current}
    (h : promotion.package _content_hash _name_of current db user s now change = .ok package) :
    stagesOf _content_hash _name_of db user s (_content_hash change.new_content)
        (_chain s change) = .ok package.stages ∧
      package.evidence.content_unchanged_since_first_stage
        = package.stages.all Stage.same_content ∧
      package.evidence.verified_in
        = (package.stages.dropLast.filter Stage.verified).map Stage.environment := by
  rw [promotion.package, bind_eq_ok_iff] at h
  obtain ⟨target, -, h⟩ := h
  dsimp only at h
  rw [bind_eq_ok_iff] at h
  obtain ⟨stages, hstages, h⟩ := h
  obtain ⟨_, h⟩ := rest_of_bind h
  obtain ⟨_, h⟩ := rest_of_bind h
  obtain ⟨_, h⟩ := rest_of_bind h
  cases h
  exact ⟨hstages, rfl, rfl⟩

/-- **A package shows one change on its way.** In every run, of anybody and with any drafts,
promotions, executions, rollbacks, relabellings and deletions in between, the stages of a package
are the changes of the road that leads to the change: none twice, all of the content of the
change, so that the evidence always says so, and all but the last of them applied. -/
theorem package_shows_road {Graph : Type} {requests : List (Estate.Request Graph)}
    (hrun : run (Estate.step db) Estate.start requests = some s)
    (hchange : change ∈ s.changes.rows) {package : Package Hash Current}
    (hpackage : promotion.package _content_hash _name_of current db user s now change
      = .ok package) :
    Road s change (_chain s change) ∧
      package.stages.map Stage.change_id = (_chain s change).map TM1Change.id ∧
      (package.stages.map Stage.change_id).Nodup ∧
      package.evidence.content_unchanged_since_first_stage = true ∧
      ∀ stage ∈ package.stages.dropLast,
        stage.status = .executed ∨ stage.status = .rolled_back := by
  have hs := Estate.run_sound hrun
  obtain ⟨hroad, -⟩ := _chain_road hs hchange
  obtain ⟨hstages, hcontent, -⟩ := package_ok hpackage
  have hall := stagesOf_ok hstages
  have hids : package.stages.map Stage.change_id = (_chain s change).map TM1Change.id := by
    refine (Alike.map_eq hall fun c stage h => ?_).symm
    obtain ⟨conn, -, rfl⟩ := h
    rfl
  refine ⟨hroad, hids, ?_, ?_, ?_⟩
  · rw [hids]
    exact hroad.nodup hs
  · rw [hcontent, List.all_eq_true]
    intro stage hstage
    obtain ⟨c, hc, conn, -, rfl⟩ := Alike.exists_left hall hstage
    exact decide_eq_true (by rw [(hroad.same c hc).new_content])
  · intro stage hstage
    obtain ⟨c, hc, conn, -, rfl⟩ := Alike.exists_left (Alike.dropLast hall) hstage
    exact hroad.applied c hc

/-- Rules that one person drafts and another executes on DEV, and a promotion of them to QA. -/
def onTheWay : List (Estate.Request Unit) :=
  [ .demand (.connect ⟨7, 1⟩ true [] {
      name := "Finance Dev"
      address := "tm1-dev.example.com"
      password := "secret"
      visibility := .organization }),
    .demand (.connect ⟨7, 1⟩ true [] {
      name := "Finance QA"
      address := "tm1-qa.example.com"
      password := "secret"
      environment := .qa
      visibility := .organization }),
    .demand (.draft ⟨7, 1⟩ change_service.noFindings currentTM1 change_service.quietMoment 0
      ⟨"update_rules", "Sales", some { rules := some "['Net'] = ['Gross'] * 0.9;" }⟩),
    .demand (.execute ⟨8, 1⟩ .governed currentTM1 (fun _ => .ok) smallServer 11 false 0 0),
    .demand (.promote ⟨7, 1⟩ .governed change_service.noFindings currentTM1
      change_service.quietMoment 0 0 1) ]

/-- The package of the draft on QA. -/
def qaPackage (s : Estate) : TM1Change → Except AppException (Package (Option NewContent) Unit) :=
  promotion.package id (fun _ => none) (fun _ => .ok ()) team (some 7) s 12

set_option maxRecDepth 8000 in
theorem package_shows_road_qa :
    ∃ s change package, run (Estate.step team) Estate.start onTheWay = some s ∧
      change ∈ s.changes.rows ∧ qaPackage s change = .ok package ∧
      package.stages.map Stage.change_id = [0, 1] ∧
      package.evidence.content_unchanged_since_first_stage = true := by
  have hrun : run (Estate.step team) Estate.start onTheWay
      = some (onTheWay.foldl (Estate.after team) Estate.start) := rfl
  have hchange : (onTheWay.foldl (Estate.after team) Estate.start).changes.rows.get ⟨1, by decide⟩
      ∈ (onTheWay.foldl (Estate.after team) Estate.start).changes.rows := List.get_mem _ _
  exact ⟨_, _, _, hrun, hchange, rfl, rfl, (package_shows_road hrun hchange
    (show promotion.package id (fun _ => none) (fun _ => .ok ()) team (some 7) _ 12 _ = _
      from rfl)).2.2.2.1⟩

end Stages

end promotion

/-! ## Labels that stay -/

/-- The request asks for no label. A connection that is added brings one of its own. -/
def Estate.Request.KeepsLabels {Graph : Type} : Estate.Request Graph → Prop
  | .demand (.edit _ _ _ _ request) => request.environment.join = none
  | _ => True

namespace Estate

/-- Every change is labelled as its connection is, and was promoted from the environment
before. -/
structure Labelled (s : Estate) : Prop where
  known : ∀ c ∈ s.landscape.connections, c.environment ∈ ["dev", "qa", "prod"]
  labels : ∀ r ∈ s.changes.rows, (∃ c ∈ s.landscape.connections, c.id = r.connection_id) ∧
    r.environment = labelOf s.landscape.connections r.connection_id
  next : ∀ draft ∈ s.changes.rows, ∀ source ∈ s.changes.rows,
    s.promoted_from draft.id = some source.id →
      List.lookup source.environment promotion.NEXT_ENVIRONMENT = some draft.environment

variable {Graph : Type} {db : AuthDb} {s : Estate}

theorem Labelled.start : Estate.start.Labelled :=
  ⟨fun _ hc => absurd hc List.not_mem_nil, fun _ hr => absurd hr List.not_mem_nil,
    fun _ hr => absurd hr List.not_mem_nil⟩

/-- A table whose rows are as they were proposed, over connections that are labelled as they
were. -/
theorem Labelled.of_proposed (h : s.Labelled) {landscape : Landscape}
    (hknown : ∀ c ∈ landscape.connections, c.environment ∈ ["dev", "qa", "prod"])
    (hrows : ∀ r ∈ landscape.changes.rows, ∃ q ∈ s.changes.rows, r.proposed = q.proposed)
    (hlabels : ∀ r ∈ landscape.changes.rows, ∀ c ∈ s.landscape.connections,
      c.id = r.connection_id → (∃ c' ∈ landscape.connections, c'.id = c.id) ∧
        labelOf landscape.connections c.id = labelOf s.landscape.connections c.id)
    {promoted_from : ℕ → Option ℕ}
    (hless : ∀ d e, promoted_from d = some e → s.promoted_from d = some e) :
    Labelled ⟨landscape, promoted_from⟩ := by
  refine ⟨hknown, fun r hr => ?_, fun draft hdraft source hsource hlink => ?_⟩
  · obtain ⟨q, hq, hproposed⟩ := hrows r hr
    have hconnection : r.connection_id = q.connection_id :=
      congrArg Proposed.connection_id hproposed
    have henvironment : r.environment = q.environment := congrArg Proposed.environment hproposed
    obtain ⟨⟨c, hc, hid⟩, hlabel⟩ := h.labels q hq
    obtain ⟨⟨c', hc', hid'⟩, hsame⟩ := hlabels r hr c hc (hid.trans hconnection.symm)
    refine ⟨⟨c', hc', hid'.trans (hid.trans hconnection.symm)⟩, ?_⟩
    rw [henvironment, hlabel, hconnection, ← hid]
    exact hsame.symm
  · obtain ⟨draft', hdraft', hproposed⟩ := hrows draft hdraft
    obtain ⟨source', hsource', hproposed'⟩ := hrows source hsource
    have hid : draft.id = draft'.id := congrArg Proposed.id hproposed
    have hid' : source.id = source'.id := congrArg Proposed.id hproposed'
    have henvironment : draft.environment = draft'.environment :=
      congrArg Proposed.environment hproposed
    have henvironment' : source.environment = source'.environment :=
      congrArg Proposed.environment hproposed'
    have hold := hless _ _ hlink
    rw [hid, hid'] at hold
    rw [henvironment, henvironment']
    exact h.next draft' hdraft' source' hsource' hold

/-- The connections of the state, for a table of changes that only was decided on. -/
theorem Labelled.same_connections (h : s.Labelled) {landscape : Landscape}
    (hconnections : landscape.connections = s.landscape.connections)
    (hrows : ∀ r ∈ landscape.changes.rows, ∃ q ∈ s.changes.rows, r.proposed = q.proposed) :
    Labelled ⟨landscape, s.promoted_from⟩ :=
  h.of_proposed (by rw [hconnections]; exact h.known) hrows
    (fun _ _ c hc _ => by rw [hconnections]; exact ⟨⟨c, hc, rfl⟩, rfl⟩) fun _ _ hlink => hlink

/-- What is asked of a connection that was found is true of one that is there. -/
theorem created_connection {a : change_service.Analyzers Graph} {tm1 : TM1} {m : Moment Graph}
    {p : Proposal} {connections : List TM1Connection} {changes changes' : Store}
    {draft : TM1Change} (hconnections : m.connections = connections.map TM1Connection.seen)
    (h : change_service.create_change a tm1 m p changes = .ok (draft, changes'))
    (hnew : ¬ draft.id < changes.next) : ∃ c ∈ connections, c.id = draft.connection_id := by
  obtain ⟨hmem, -, change_type, hproposes, hsame | ⟨change, hdrafted, hdraft, -⟩⟩ :=
    change_service.create_change_proposes h
  · rw [hsame] at hmem
    exact absurd (changes.fresh draft hmem) hnew
  · obtain ⟨found, hfound, -⟩ := change_service.drafted_environment hdrafted
    unfold tm1_integration_service.get_connection at hfound
    rw [hconnections] at hfound
    rcases hfind : (connections.map TM1Connection.seen).find? fun c => c.id = p.connection_id
      with _ | seen
    · rw [hfind] at hfound
      cases hfound
    · obtain ⟨c, hc, rfl⟩ := List.mem_map.mp (List.mem_of_find?_eq_some hfind)
      have hid := List.find?_some hfind
      exact ⟨c, hc, (of_decide_eq_true hid).trans hproposes.connection_id.symm⟩

/-- A new draft is labelled as its connection is, and a repeated one was. -/
theorem Labelled.created (h : s.Labelled) (hs : s.Sound) {a : change_service.Analyzers Graph}
    {tm1 : TM1} {m : Moment Graph} {p : Proposal} {changes : Store} {draft : TM1Change}
    {deeds : List Deed}
    (hconnections : m.connections = s.landscape.connections.map TM1Connection.seen)
    (hcreate : change_service.create_change a tm1 m p s.changes = .ok (draft, changes)) :
    Labelled ⟨s.landscape.drafted draft changes deeds, s.promoted_from⟩ := by
  obtain ⟨hmem, -, change_type, -, hsame | ⟨change, -, hdraft, hrows⟩⟩ :=
    change_service.create_change_proposes hcreate
  · refine h.same_connections rfl fun r hr => ⟨r, ?_, rfl⟩
    rw [← hsame]
    exact hr
  have hnew : ¬ draft.id < s.changes.next := by
    rw [hdraft]
    exact Nat.lt_irrefl _
  have hold : ∀ r ∈ changes.rows, r.id ≠ draft.id → ∃ q ∈ s.changes.rows, r.proposed = q.proposed :=
    fun r hr hne => (hrows r hr).resolve_left fun heq => hne (heq ▸ rfl)
  have hunlinked : ∀ r : TM1Change, r.id = draft.id → ∀ e, s.promoted_from r.id ≠ some e ∧
      ∀ d, s.promoted_from d ≠ some r.id := by
    intro r hid e
    rw [hid]
    constructor
    · intro hlink
      obtain ⟨q, hq, -, -, hqid, -⟩ := hs.linked _ _ hlink
      exact hnew (hqid ▸ s.changes.fresh q hq)
    · intro d hlink
      obtain ⟨-, -, q, hq, -, hqid, -⟩ := hs.linked _ _ hlink
      exact hnew (hqid ▸ s.changes.fresh q hq)
  refine ⟨h.known, fun r hr => ?_, fun d hd e he hlink => ?_⟩
  · rcases hrows r hr with rfl | ⟨q, hq, hproposed⟩
    · exact ⟨created_connection hconnections hcreate hnew, created_label hconnections hcreate hnew⟩
    · have hconnection : r.connection_id = q.connection_id :=
        congrArg Proposed.connection_id hproposed
      have henvironment : r.environment = q.environment := congrArg Proposed.environment hproposed
      rw [henvironment, hconnection]
      exact h.labels q hq
  · obtain ⟨d', hd', hproposed⟩ := hold d hd fun hid => (hunlinked d hid _).1 hlink
    obtain ⟨e', he', hproposed'⟩ := hold e he fun hid => (hunlinked e hid 0).2 _ hlink
    have hid : d.id = d'.id := congrArg Proposed.id hproposed
    have hid' : e.id = e'.id := congrArg Proposed.id hproposed'
    have henvironment : d.environment = d'.environment := congrArg Proposed.environment hproposed
    have henvironment' : e.environment = e'.environment := congrArg Proposed.environment hproposed'
    rw [henvironment, henvironment']
    exact h.next d' hd' e' he' (hid ▸ hid' ▸ hlink)

/-- A promotion links environments that follow one another. -/
theorem Labelled.linked (hold : s.Labelled) {change_id : ℕ} {draft : TM1Change}
    {landscape : Landscape} (h : Labelled ⟨landscape, s.promoted_from⟩)
    (hconnections : landscape.connections = s.landscape.connections)
    (hpromoted : PromotedTo s.landscape.connections s.changes change_id draft landscape.changes)
    (hfollows : s.changes.Follows landscape.changes) :
    Labelled ⟨landscape, Function.update s.promoted_from draft.id (some change_id)⟩ := by
  refine ⟨h.known, h.labels, fun d hd e he hlink => ?_⟩
  replace hlink : Function.update s.promoted_from draft.id (some change_id) d.id = some e.id := hlink
  by_cases hid : d.id = draft.id
  · rw [hid, Function.update_self, Option.some.injEq] at hlink
    obtain ⟨source, hsource, hsid, -, -, expected, hexpected, htarget⟩ := hpromoted.source
    obtain ⟨source', hsource', hproposed, -⟩ := hfollows source hsource
    have hid' : source'.id = source.id := congrArg Proposed.id hproposed
    have henvironment : source'.environment = source.environment :=
      congrArg Proposed.environment hproposed
    have hd' : d = draft := landscape.changes.ids.eq hd hpromoted.mem rfl rfl hid
    have he' : e = source' := landscape.changes.ids.eq he hsource' rfl rfl
      (hlink.symm.trans (hsid.symm.trans hid'.symm))
    rw [he', henvironment, (hold.labels source hsource).2, hexpected, (h.labels d hd).2, hd',
      hconnections, htarget]
  · rw [Function.update_of_ne hid] at hlink
    exact h.next d hd e he hlink

/-- A connection that is added is labelled as the request says. -/
theorem added_environment {ctx : ConnectionContext} {caller : Caller} {id : ℕ}
    {request : ConnectionCreate} {connection : TM1Connection}
    (h : create_connection_route ctx caller id request = .ok connection) :
    connection.environment = request.environment.value := by
  unfold create_connection_route at h
  obtain ⟨_, h⟩ := rest_of_bind h
  obtain ⟨_, h⟩ := rest_of_bind h
  unfold connection_service.create_connection at h
  dsimp only at h
  obtain ⟨_, h⟩ := rest_of_bind h
  obtain ⟨_, h⟩ := rest_of_bind h
  obtain ⟨_, h⟩ := rest_of_bind h
  obtain ⟨_, h⟩ := rest_of_bind h
  cases h
  rfl

theorem Labelled.added (h : s.Labelled) {connection : TM1Connection}
    (hknown : connection.environment ∈ ["dev", "qa", "prod"]) {landscape : Landscape}
    (hconnections : landscape.connections = s.landscape.connections ++ [connection])
    (hchanges : landscape.changes = s.changes) : Labelled ⟨landscape, s.promoted_from⟩ := by
  refine h.of_proposed ?_ (fun r hr => ⟨r, hchanges ▸ hr, rfl⟩) ?_ fun _ _ hlink => hlink
  · intro c hc
    rw [hconnections, List.mem_append, List.mem_singleton] at hc
    rcases hc with hc | rfl
    · exact h.known c hc
    · exact hknown
  · intro _ _ c hc _
    rw [hconnections]
    exact ⟨⟨c, List.mem_append_left _ hc, rfl⟩, labelOf_append hc⟩

/-- An edit that asks for no label leaves every label. -/
theorem Labelled.edited (h : s.Labelled) {ctx : ConnectionContext} {caller : Caller}
    {connection_id : ℕ} {request : ConnectionUpdate} {next : TM1Connection} {landscape : Landscape}
    (hroute : update_connection_route ctx caller s.landscape.connections connection_id request
      = .ok next) (hkeeps : request.environment.join = none)
    (hconnections : landscape.connections
      = s.landscape.connections.map fun c => if c.id = next.id then next else c)
    (hchanges : landscape.changes = s.changes) : Labelled ⟨landscape, s.promoted_from⟩ := by
  obtain ⟨existing, hfound, hnext, -⟩ := update_connection_route_ok hroute
  have hfind := connection_service.get_connection_find hfound
  rw [← (connection_service.get_connection_ok hfound).2] at hfind
  have hid : next.id = existing.id := by
    rw [hnext]
    rfl
  have hsame : next.environment = existing.environment := by
    rw [hnext, connection_service.edited, hkeeps]
    rfl
  refine h.of_proposed ?_ (fun r hr => ⟨r, hchanges ▸ hr, rfl⟩) ?_ fun _ _ hlink => hlink
  · intro c hc
    rw [hconnections] at hc
    obtain ⟨c', hc', rfl⟩ := List.mem_map.mp hc
    split
    · rw [hsame]
      exact h.known existing (List.mem_of_find?_eq_some hfind)
    · exact h.known c' hc'
  · intro _ _ c hc _
    rw [hconnections]
    refine ⟨⟨_, List.mem_map_of_mem hc, ?_⟩, ?_⟩
    · split
      · rename_i heq
        exact heq.symm
      · rfl
    · rw [labelOf_replace hid hfind]
      split
      · rename_i heq
        rw [heq, labelOf_eq hfind, governance.environment_of, governance.environment_of, hsame]
      · rfl

/-- What a deletion leaves has its labels. -/
theorem Labelled.dropped (h : s.Labelled) (connection_id : ℕ) :
    (s.dropped connection_id).Labelled := by
  refine h.of_proposed ?_ ?_ ?_ ?_
  · exact fun c hc => h.known c (List.mem_filter.mp hc).1
  · intro r hr
    obtain ⟨q, hq, rfl⟩ := List.mem_map.mp hr
    exact ⟨q, (List.mem_filter.mp hq).1, rfl⟩
  · intro r hr c hc hid
    obtain ⟨q, hq, heq⟩ := List.mem_map.mp hr
    have hother : c.id ≠ connection_id := by
      have hkept := of_decide_eq_true (List.mem_filter.mp hq).2
      rw [hid, ← heq]
      exact hkept
    refine ⟨⟨c, List.mem_filter.mpr ⟨hc, decide_eq_true hother⟩, rfl⟩, ?_⟩
    show labelOf (s.landscape.connections.filter fun c => c.id ≠ connection_id) c.id = _
    unfold labelOf
    rw [List.find?_filter]
    congr 2
    funext c'
    by_cases heq : c'.id = c.id
    · simp [heq, hother]
    · simp [heq]
  · intro d e hlink
    have hlink' : (if (tm1_change_repository.get_by_id (s.changes.dropConnection connection_id)
        d).isSome then (s.promoted_from d).filter fun source =>
          (tm1_change_repository.get_by_id (s.changes.dropConnection connection_id) source).isSome
      else none) = some e := hlink
    split at hlink'
    · exact (Option.filter_eq_some_iff.mp hlink').1
    · cases hlink'

theorem Labelled.decided (h : s.Labelled) (amendment : Amendment) (deeds : List Deed) :
    Labelled ⟨s.landscape.decided amendment deeds, s.promoted_from⟩ :=
  h.same_connections rfl fun _ hr => Store.mem_amend hr

/-- Every demand but that of a label, apart from what it links. -/
theorem Labelled.after (h : s.Labelled) (hs : s.Sound) {demand : Demand Graph}
    (hkeeps : (Request.demand demand).KeepsLabels) :
    Labelled ⟨s.landscape.after db demand, s.promoted_from⟩ := by
  unfold Landscape.after
  cases demand with
  | connect caller allow gateways request =>
    dsimp only
    split
    · exact h
    · rename_i connection hroute
      refine h.added ?_ rfl rfl
      rw [added_environment hroute]
      cases request.environment <;> decide
  | edit =>
    dsimp only
    split
    · exact h
    · rename_i next hroute
      exact h.edited hroute hkeeps rfl rfl
  | draft =>
    dsimp only
    split
    · exact h
    · rename_i hroute
      obtain ⟨p, hcreate⟩ := create_change_route_ok hroute
      exact h.created hs rfl hcreate
  | promote =>
    dsimp only
    split
    · exact h
    · rename_i hroute
      obtain ⟨p, hcreate⟩ := promote_change_route_ok hroute
      exact h.created hs rfl hcreate
  | execute =>
    dsimp only
    split
    · exact h
    · exact h.decided _ _
  | rollback =>
    dsimp only
    split
    · exact h
    · exact h.decided _ _
  | reject =>
    dsimp only
    split
    · exact h
    · exact h.decided _ _
  | assistantDraft =>
    dsimp only
    split
    · exact h
    · rename_i hcreated
      obtain ⟨-, hdraft⟩ := ai.DraftTool.create_ok hcreated
      obtain ⟨_, _, -, -, hcreate⟩ := ai._create_draft_ok hdraft
      exact h.created hs rfl hcreate
  | assistantApply =>
    dsimp only
    split
    · exact h
    · exact h
    · exact h.decided _ _

/-- **A request that asks for no label leaves the changes labelled as their connections.** -/
theorem Labelled.step (h : s.Labelled) (hs : s.Sound) {request : Request Graph}
    (hkeeps : request.KeepsLabels) : (s.after db request).Labelled := by
  cases request with
  | delete_connection caller connection_id =>
    unfold Estate.after
    dsimp only
    split
    · exact h
    · exact h.dropped _
  | demand demand =>
    have hlandscape : Labelled ⟨s.landscape.after db demand, s.promoted_from⟩ :=
      h.after hs hkeeps
    have hfollows := Landscape.after_follows db s.landscape demand
    show Labelled ⟨s.landscape.after db demand, s.linked db demand⟩
    rcases linked_cases db s demand with hsame | ⟨change_id, draft, hpromoted, hsame, hlinked⟩
    · rw [hsame]
      exact hlandscape
    · rw [hlinked]
      exact h.linked hlandscape hsame hpromoted hfollows

theorem run_labelled {requests : List (Request Graph)}
    (hkeeps : ∀ request ∈ requests, request.KeepsLabels)
    (h : run (Estate.step db) Estate.start requests = some s) : s.Sound ∧ s.Labelled := by
  refine run_invariant (I := fun t => t.Sound ∧ t.Labelled)
    (fun t request t' ht hrequest hstep => ?_) ⟨Sound.start, Labelled.start⟩
    (along_of_forall hkeeps) h
  rw [← Option.some.inj hstep]
  exact ⟨ht.1.step request, ht.2.step ht.1 hrequest⟩

end Estate

/-! ## The environments of a road -/

/-- Environments of which each is the next after the one before. -/
def Ascending (environments : List String) : Prop :=
  environments.IsChain fun earlier later =>
    List.lookup earlier promotion.NEXT_ENVIRONMENT = some later

theorem next_environment_iff {earlier later : String} :
    List.lookup earlier promotion.NEXT_ENVIRONMENT = some later ↔
      earlier = "dev" ∧ later = "qa" ∨ earlier = "qa" ∧ later = "prod" := by
  unfold promotion.NEXT_ENVIRONMENT
  rw [List.lookup_cons, List.lookup_cons, List.lookup_nil]
  by_cases hdev : earlier = "dev"
  · subst hdev
    simp [eq_comm]
  · by_cases hqa : earlier = "qa"
    · subst hqa
      simp [eq_comm]
    · rw [beq_false_of_ne hdev, beq_false_of_ne hqa]
      simp [hdev, hqa]

/-- There are three of them. -/
theorem Ascending.contiguous {environments : List String} (h : Ascending environments)
    (hknown : ∀ e ∈ environments, e ∈ ["dev", "qa", "prod"]) :
    environments <:+: ["dev", "qa", "prod"] := by
  unfold Ascending at h
  rcases environments with _ | ⟨x, _ | ⟨y, rest⟩⟩
  · exact List.nil_infix
  · have hx := hknown x List.mem_cons_self
    simp only [List.mem_cons, List.not_mem_nil, or_false] at hx
    rcases hx with rfl | rfl | rfl <;> decide
  obtain ⟨hxy, hrest⟩ := List.isChain_cons_cons.mp h
  rcases rest with _ | ⟨z, rest⟩
  · rcases next_environment_iff.mp hxy with ⟨rfl, rfl⟩ | ⟨rfl, rfl⟩ <;> decide
  obtain ⟨hyz, hlast⟩ := List.isChain_cons_cons.mp hrest
  have hy : y = "qa" := by
    rcases next_environment_iff.mp hyz with ⟨rfl, -⟩ | ⟨rfl, -⟩
    · rcases next_environment_iff.mp hxy with ⟨-, hy⟩ | ⟨-, hy⟩ <;> exact absurd hy (by decide)
    · rfl
  subst hy
  have hx : x = "dev" := by
    rcases next_environment_iff.mp hxy with ⟨hx, -⟩ | ⟨-, hy⟩
    · exact hx
    · exact absurd hy (by decide)
  have hz : z = "prod" := by
    rcases next_environment_iff.mp hyz with ⟨hy, -⟩ | ⟨-, hz⟩
    · exact absurd hy (by decide)
    · exact hz
  subst hx hz
  -- from DEV by QA to PROD, and no further
  rcases rest with _ | ⟨w, rest⟩
  · decide
  · obtain ⟨hzw, -⟩ := List.isChain_cons_cons.mp hlast
    rcases next_environment_iff.mp hzw with ⟨hz, -⟩ | ⟨hz, -⟩ <;> exact absurd hz (by decide)

theorem upper_contiguous {environments : List String} (h : environments <:+: ["dev", "qa", "prod"]) :
    environments.map governance.upper <:+: ["DEV", "QA", "PROD"] :=
  h.map governance.upper

section Climbs

variable {s : Estate} {change : TM1Change} {chain : List TM1Change}

theorem labelOf_known {connections : List TM1Connection} {connection_id : ℕ}
    (h : ∀ c ∈ connections, c.environment ∈ ["dev", "qa", "prod"]) :
    labelOf connections connection_id ∈ ["dev", "qa", "prod"] := by
  unfold labelOf
  split
  · decide
  · rename_i connection hfind
    have hknown := h connection (List.mem_of_find?_eq_some hfind)
    unfold governance.environment_of
    split
    · decide
    · exact hknown

/-- A road goes up the environments. -/
theorem Road.ascending (hl : s.Labelled) (h : Road s change chain) :
    Ascending (chain.map TM1Change.environment) := by
  unfold Ascending
  rw [List.isChain_map]
  refine h.linked.imp_of_mem_imp fun earlier later hearlier hlater hlink => ?_
  exact hl.next later (h.rows later hlater) earlier (h.rows earlier hearlier) hlink

theorem Road.contiguous (hl : s.Labelled) (h : Road s change chain) :
    chain.map TM1Change.environment <:+: ["dev", "qa", "prod"] := by
  refine (h.ascending hl).contiguous fun e he => ?_
  obtain ⟨c, hc, rfl⟩ := List.mem_map.mp he
  rw [(hl.labels c (h.rows c hc)).2]
  exact labelOf_known hl.known

end Climbs

namespace promotion

/-- **DEV, QA, PROD.** In a run in which no connection is relabelled, the stages of a package
climb from one environment to the next, up to the one of the change; the first stage was promoted
from nothing that is still there; and what the evidence says it was verified in are environments
below. -/
theorem package_climbs {Graph Hash Current : Type} [DecidableEq Hash]
    {_content_hash : Option NewContent → Hash} {_name_of : Option ℕ → Option String}
    {current : TM1Change → Except AppException Current} {db : AuthDb} {user : Option ℕ}
    {s : Estate} {now : ℕ} {change : TM1Change} {requests : List (Estate.Request Graph)}
    (hkeeps : ∀ request ∈ requests, request.KeepsLabels)
    (hrun : run (Estate.step db) Estate.start requests = some s)
    (hchange : change ∈ s.changes.rows) {package : Package Hash Current}
    (hpackage : promotion.package _content_hash _name_of current db user s now change
      = .ok package) :
    package.stages.map Stage.environment <:+: ["DEV", "QA", "PROD"] ∧
      (∀ c ∈ (_chain s change).head?, s.promoted_from c.id = none) ∧
      package.evidence.verified_in.Sublist (package.stages.map Stage.environment).dropLast := by
  obtain ⟨hs, hl⟩ := Estate.run_labelled hkeeps hrun
  obtain ⟨hroad, hend⟩ := _chain_road hs hchange
  obtain ⟨hstages, -, hverified⟩ := package_ok hpackage
  have hclimbs := hroad.contiguous hl
  have henvironments : package.stages.map Stage.environment
      = ((_chain s change).map TM1Change.environment).map governance.upper := by
    -- a row is labelled as the connection that the stage reads
    have hall := (List.forall₂_and_left _ _).mpr ⟨hroad.rows, stagesOf_ok hstages⟩
    rw [List.map_map]
    refine (Alike.map_eq hall fun c stage h => ?_).symm
    obtain ⟨hc, conn, hconn, rfl⟩ := h
    show governance.upper c.environment = governance.upper (governance.environment_of conn)
    rw [(hl.labels c hc).2, labelOf_eq (connection_service.get_connection_find hconn)]
  refine ⟨?_, ?_, ?_⟩
  · rw [henvironments]
    exact upper_contiguous hclimbs
  · refine hend.resolve_right fun hlength => ?_
    have hle := hclimbs.length_le
    rw [List.length_map, hlength] at hle
    exact absurd hle (by decide)
  · rw [hverified, ← List.map_dropLast]
    exact List.filter_sublist.map _

set_option maxRecDepth 8000 in
theorem package_climbs_qa :
    ∃ s change package, run (Estate.step team) Estate.start onTheWay = some s ∧
      change ∈ s.changes.rows ∧ qaPackage s change = .ok package ∧
      package.evidence.verified_in = ["DEV"] ∧
      package.stages.map Stage.environment <:+: ["DEV", "QA", "PROD"] := by
  have hrun : run (Estate.step team) Estate.start onTheWay
      = some (onTheWay.foldl (Estate.after team) Estate.start) := rfl
  have hchange : (onTheWay.foldl (Estate.after team) Estate.start).changes.rows.get ⟨1, by decide⟩
      ∈ (onTheWay.foldl (Estate.after team) Estate.start).changes.rows := List.get_mem _ _
  exact ⟨_, _, _, hrun, hchange, rfl, rfl,
    (package_climbs (by simp [onTheWay, Estate.Request.KeepsLabels]) hrun hchange
      (show promotion.package id (fun _ => none) (fun _ => .ok ()) team (some 7) _ 12 _ = _
        from rfl)).1⟩

end promotion

end PaCopilot
