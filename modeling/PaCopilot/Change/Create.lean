/-
`create_change` of `tm1/deployment/change_service.py`, over the table of changes.

The table carries its unique index (`uq_tm1_changes_open_draft`) as a field, so a
store with two open drafts of one key cannot be built: an insertion that would
build one is an `IntegrityError`. The set of drafts that `create_change` closes
before it inserts is another one, computed by `list_open_drafts`. `Create.lean`
keeps the two apart; `OpenDrafts.lean` compares them.
-/
import PaCopilot.Change.Draft
import PaCopilot.Lib.Table

set_option autoImplicit false

namespace PaCopilot

open Table Remote

/-! ## The table of changes -/

/-- `status = 'draft'`, the condition of the index. -/
def TM1Change.isDraft (change : TM1Change) : Bool := change.status = .draft

/-- `coalesce(new_content ->> 'view_name', '')`. -/
def viewNameOf (content : Option NewContent) : String :=
  (content.bind NewContent.view_name).getD ""

/-- The columns of the index. -/
def TM1Change.openKey (change : TM1Change) : ℕ × ℕ × String × String :=
  (change.connection_id, change.created_by, change.target_name, viewNameOf change.new_content)

/-- The rows of `tm1_changes`, in the order of their `created_at`. -/
structure Store where
  rows : List TM1Change
  next : ℕ
  fresh : ∀ r ∈ rows, r.id < next
  ids : Table.Unique everyRow TM1Change.id rows
  uq_tm1_changes_open_draft : Table.Unique TM1Change.isDraft TM1Change.openKey rows

namespace Store

/-- No change yet. -/
def empty : Store := ⟨[], 0, by simp, by decide, by decide⟩

/-- An update of rows that keeps their identity, and opens no draft. -/
def edit (store : Store) (f : TM1Change → TM1Change) (hid : ∀ r, (f r).id = r.id)
    (hdraft : ∀ r, (f r).isDraft = true → r.isDraft = true)
    (hkey : ∀ r, (f r).openKey = r.openKey) : Store where
  rows := store.rows.map f
  next := store.next
  fresh := by
    intro r hr
    obtain ⟨q, hq, rfl⟩ := List.mem_map.mp hr
    rw [hid]
    exact store.fresh q hq
  ids := store.ids.map (fun _ _ _ => rfl) fun r _ _ => hid r
  uq_tm1_changes_open_draft :=
    store.uq_tm1_changes_open_draft.map (fun r _ => hdraft r) fun r _ _ => hkey r

/-- A new row, under the next identifier. -/
def insert (store : Store) (change : TM1Change) : Except AppException (TM1Change × Store) :=
  match h : Table.insert TM1Change.isDraft TM1Change.openKey IntegrityError store.rows
      { change with id := store.next } with
  | .error e => .error e
  | .ok rows => .ok ({ change with id := store.next }, {
      rows := rows
      next := store.next + 1
      fresh := by
        intro r hr
        rw [insert_eq_ok h, List.mem_append, List.mem_singleton] at hr
        rcases hr with hr | rfl
        · exact Nat.lt_succ_of_lt (store.fresh r hr)
        · exact Nat.lt_succ_self _
      ids := by
        rw [insert_eq_ok h, unique_append_iff rfl]
        refine ⟨store.ids, fun q hq _ heq => ?_⟩
        have hlt := store.fresh q hq
        rw [heq] at hlt
        exact Nat.lt_irrefl _ hlt
      uq_tm1_changes_open_draft := store.uq_tm1_changes_open_draft.insert h })

/-- `status = "superseded"` on some rows. -/
def supersede (store : Store) (ids : List ℕ) : Store :=
  store.edit (fun r => if r.id ∈ ids then { r with status := .superseded } else r)
    (fun r => by split <;> rfl)
    (fun r h => by
      split at h
      · cases h
      · exact h)
    fun r => by split <;> rfl

/-- `superseded_by = target` on some rows. -/
def point (store : Store) (ids : List ℕ) (target : ℕ) : Store :=
  store.edit (fun r => if r.id ∈ ids then { r with superseded_by := some target } else r)
    (fun r => by split <;> rfl)
    (fun r h => by
      split at h
      · exact h
      · exact h)
    fun r => by split <;> rfl

/-- The end of `create_change`: the drafts it replaces leave the index before the
new one enters it, and point to it once it is there. -/
def replace (store : Store) (open_drafts : List TM1Change) (change : TM1Change) :
    Except AppException (TM1Change × Store) := do
  let ids := open_drafts.map TM1Change.id
  let (created, stored) ← (store.supersede ids).insert change
  return (created, stored.point ids created.id)

end Store

/-! ## `create_change` -/

/-- A TM1 connection, as far as `get_connection` reads it. -/
structure Connection where
  id : ℕ
  organization_id : ℕ
  shared : Bool
  created_by : ℕ
  environment : Option String
  deriving DecidableEq

/-- The arguments of `create_change`. -/
structure Proposal where
  connection_id : ℕ
  organization_id : ℕ
  created_by : ℕ
  change_type : String
  target_name : String
  new_content : Option NewContent
  deriving DecidableEq

/-- The index key of its draft. -/
def Proposal.openKey (p : Proposal) : ℕ × ℕ × String × String :=
  (p.connection_id, p.created_by, p.target_name, viewNameOf p.new_content)

/-- What a call meets outside the table of changes. -/
structure Moment (Graph : Type) where
  connections : List Connection
  user : Option ℕ
  graph : Graph
  answer : change_service.DraftAnswers
  server : Server
  now : ℕ

namespace tm1_integration_service

/-- `may_access`, for use: a shared connection, one's own, or no user at all (a
scheduled job). -/
def may_access (connection : Connection) (user : Option ℕ) : Bool :=
  match user with
  | none => true
  | some user => connection.shared || connection.created_by = user

def get_connection (connections : List Connection) (user : Option ℕ)
    (connection_id organization_id : ℕ) : Except AppException Connection :=
  match connections.find? fun c => c.id = connection_id with
  | none => .error (NotFoundException "TM1 connection not found.")
  | some connection => do
    refuse (connection.organization_id ≠ organization_id ∨ may_access connection user = false)
      (NotFoundException "TM1 connection not found.")
    return connection

end tm1_integration_service

namespace change_service

variable {Graph : Type}

/-- An open draft of the author's that a proposal stands against, as
`list_open_drafts` selects it; of a cube's views only those of the same name. -/
def standsAgainst (p : Proposal) (change_type : ChangeType) (r : TM1Change) : Bool :=
  r.connection_id = p.connection_id ∧ r.organization_id = p.organization_id
    ∧ r.created_by = p.created_by ∧ r.change_type = change_type
    ∧ r.target_name = p.target_name ∧ r.isDraft
    ∧ (change_type = .create_view → viewNameOf r.new_content = viewNameOf p.new_content)

/-- A draft is of the same content as a proposal. -/
def sameContent (p : Proposal) (change_type : ChangeType) (draft : TM1Change) : Bool :=
  _fingerprint draft.change_type draft.target_name draft.new_content
    = _fingerprint change_type p.target_name p.new_content

/-- The open drafts a proposal stands against, the newest first. -/
def openDrafts (store : Store) (p : Proposal) (change_type : ChangeType) : List TM1Change :=
  store.rows.reverse.filter (standsAgainst p change_type)

/-- The open draft that a proposal repeats. -/
def repeated (store : Store) (p : Proposal) (change_type : ChangeType) : Option TM1Change :=
  (openDrafts store p change_type).find? (sameContent p change_type)

/-- The digest that is kept of the target. A draft that can never be applied has
nothing to protect from drift. -/
def baseFingerprint (tm1 : TM1) (m : Moment Graph) (p : Proposal) (change_type : ChangeType)
    (found : Analysed) : Except AppException (Option Digest) :=
  if found.validation_errors ≠ [] then .ok none
  else _server_fingerprint tm1 change_type p.target_name p.new_content (m.answer .drift) m.server

/-- The new draft of a proposal, with everything found out about it. -/
def drafted (a : Analyzers Graph) (tm1 : TM1) (m : Moment Graph) (p : Proposal)
    (change_type : ChangeType) : Except AppException TM1Change := do
  let connection ←
    tm1_integration_service.get_connection m.connections m.user p.connection_id p.organization_id
  -- TM1 has to be reached before anything is analysed
  (m.answer .client).reply (fun _ => .ok ()) m.server
  let found ← analysed a tm1 m.answer change_type p.target_name p.new_content m.server
  let impact := impactOf a m.graph connection.id p.organization_id change_type p.target_name found
  let checks := checksOf change_type found impact
  let base_fingerprint ← baseFingerprint tm1 m p change_type found
  return {
    id := 0
    connection_id := connection.id
    organization_id := p.organization_id
    created_by := p.created_by
    created_at := m.now
    change_type := change_type
    target_name := p.target_name
    new_content := p.new_content
    validation_errors := found.validation_errors
    impact := impact
    status := .draft
    base_fingerprint := base_fingerprint
    checks := checks
    environment := textOr connection.environment "dev" }

/-- `create_change`: the draft it returns, and the table it leaves. -/
def create_change (a : Analyzers Graph) (tm1 : TM1) (m : Moment Graph) (p : Proposal)
    (store : Store) : Except AppException (TM1Change × Store) :=
  match ChangeType.ofText p.change_type with
  | none => .error (ValidationException s!"Unknown change_type '{p.change_type}'.")
  | some change_type =>
    match repeated store p change_type with
    | some draft => .ok (draft, store)
    | none => do
      let change ← drafted a tm1 m p change_type
      store.replace (openDrafts store p change_type) change

/-! ## The draft that is made -/

/-- A row is about what was proposed. -/
structure Proposes (p : Proposal) (change_type : ChangeType) (change : TM1Change) : Prop where
  connection_id : change.connection_id = p.connection_id
  organization_id : change.organization_id = p.organization_id
  created_by : change.created_by = p.created_by
  change_type : change.change_type = change_type
  target_name : change.target_name = p.target_name
  new_content : change.new_content = p.new_content
  status : change.status = .draft

section Drafted

variable {a : Analyzers Graph} {tm1 : TM1} {m : Moment Graph} {p : Proposal}
  {change_type : ChangeType} {change : TM1Change} {store : Store}

theorem Proposes.openKey (h : Proposes p change_type change) : change.openKey = p.openKey := by
  rw [TM1Change.openKey, Proposal.openKey, h.connection_id, h.created_by, h.target_name,
    h.new_content]

theorem Proposes.isDraft (h : Proposes p change_type change) : change.isDraft = true := by
  rw [TM1Change.isDraft, h.status]
  rfl

theorem tm1_integration_service.get_connection_id {connections : List Connection}
    {user : Option ℕ} {connection_id organization_id : ℕ} {connection : Connection}
    (h : tm1_integration_service.get_connection connections user connection_id organization_id
      = .ok connection) : connection.id = connection_id := by
  unfold tm1_integration_service.get_connection at h
  rcases hfind : connections.find? fun c => c.id = connection_id with _ | found
  · rw [hfind] at h
    cases h
  · rw [hfind] at h
    dsimp only at h
    rw [bind_eq_ok_iff] at h
    obtain ⟨_, -, hsame⟩ := h
    cases hsame
    simpa using List.find?_some hfind

/-- What a new draft is made of. -/
theorem drafted_ok (h : drafted a tm1 m p change_type = .ok change) :
    Proposes p change_type change ∧
      ∃ found, analysed a tm1 m.answer change_type p.target_name p.new_content m.server
          = .ok found ∧
        change.validation_errors = found.validation_errors ∧
        change.impact = impactOf a m.graph p.connection_id p.organization_id change_type
          p.target_name found ∧
        baseFingerprint tm1 m p change_type found = .ok change.base_fingerprint := by
  rw [drafted, bind_eq_ok_iff] at h
  obtain ⟨connection, hconnection, h⟩ := h
  rw [bind_eq_ok_iff] at h
  obtain ⟨_, -, h⟩ := h
  rw [bind_eq_ok_iff] at h
  obtain ⟨found, hfound, h⟩ := h
  dsimp only at h
  rw [bind_eq_ok_iff] at h
  obtain ⟨base, hbase, h⟩ := h
  have hid := tm1_integration_service.get_connection_id hconnection
  cases h
  exact ⟨⟨hid, rfl, rfl, rfl, rfl, rfl, rfl⟩, found, hfound, rfl, by rw [← hid], hbase⟩

/-- The open drafts of a proposal are about the same target, by the same author. -/
theorem mem_openDrafts {r : TM1Change} :
    r ∈ openDrafts store p change_type ↔
      r ∈ store.rows ∧ r.connection_id = p.connection_id ∧
        r.organization_id = p.organization_id ∧ r.created_by = p.created_by ∧
        r.change_type = change_type ∧ r.target_name = p.target_name ∧ r.isDraft = true ∧
        (change_type = .create_view → viewNameOf r.new_content = viewNameOf p.new_content) := by
  rw [openDrafts, List.mem_filter, List.mem_reverse, standsAgainst, decide_eq_true_eq]

/-- A draft that a proposal repeats is an open draft of that very proposal. -/
theorem repeated_proposes (h : repeated store p change_type = some change) :
    change ∈ store.rows ∧ Proposes p change_type change := by
  have hmem := List.mem_of_find?_eq_some h
  obtain ⟨hrow, hconn, horg, hauthor, htype, htarget, hdraft, -⟩ := mem_openDrafts.mp hmem
  have hsame := List.find?_some h
  rw [sameContent, decide_eq_true_eq, _fingerprint, _fingerprint, Digest.proposal.injEq] at hsame
  refine ⟨hrow, hconn, horg, hauthor, htype, htarget, hsame.2.2, ?_⟩
  simpa [TM1Change.isDraft] using hdraft

/-- `create_change` returned: the proposal was a repetition, or a new draft took
the place of the open ones. -/
theorem create_change_ok {draft : TM1Change} {store' : Store}
    (h : create_change a tm1 m p store = .ok (draft, store')) :
    ∃ change_type, ChangeType.ofText p.change_type = some change_type ∧
      ((repeated store p change_type = some draft ∧ store' = store) ∨
        ∃ change, repeated store p change_type = none ∧
          drafted a tm1 m p change_type = .ok change ∧
          store.replace (openDrafts store p change_type) change = .ok (draft, store')) := by
  unfold create_change at h
  rcases htype : ChangeType.ofText p.change_type with _ | change_type
  · rw [htype] at h
    cases h
  · rw [htype] at h
    dsimp only at h
    refine ⟨change_type, rfl, ?_⟩
    rcases hrepeated : repeated store p change_type with _ | old
    · rw [hrepeated] at h
      dsimp only at h
      rw [bind_eq_ok_iff] at h
      obtain ⟨change, hchange, hreplace⟩ := h
      exact .inr ⟨change, rfl, hchange, hreplace⟩
    · rw [hrepeated] at h
      simp only [Except.ok.injEq, Prod.mk.injEq] at h
      exact .inl ⟨by rw [h.1], h.2.symm⟩

end Drafted

end change_service

/-! ## Replacing drafts -/

namespace Store

variable {store store' : Store} {change draft : TM1Change} {open_drafts : List TM1Change}

theorem insert_ok (h : store.insert change = .ok (draft, store')) :
    draft = { change with id := store.next } ∧ store'.rows = store.rows ++ [draft] := by
  unfold insert at h
  split at h
  · cases h
  · rename_i rows hrows
    simp only [Except.ok.injEq, Prod.mk.injEq] at h
    obtain ⟨rfl, rfl⟩ := h
    exact ⟨rfl, insert_eq_ok hrows⟩

theorem insert_error_iff {e : AppException} :
    store.insert change = .error e ↔ e = IntegrityError ∧ change.isDraft = true ∧
      ∃ r ∈ store.rows, r.isDraft = true ∧ r.openKey = change.openKey := by
  unfold insert
  split
  · rename_i e' he'
    rw [Except.error.injEq]
    have hindex := insert_eq_error_iff.mp he'
    constructor
    · rintro rfl
      exact hindex
    · rintro ⟨rfl, -⟩
      exact hindex.1
  · rename_i rows hrows
    refine iff_of_false (by simp) ?_
    rintro ⟨rfl, hindex⟩
    have herror : Table.insert TM1Change.isDraft TM1Change.openKey IntegrityError store.rows
        { change with id := store.next } = .error IntegrityError :=
      insert_eq_error_iff.mpr ⟨rfl, hindex⟩
    rw [hrows] at herror
    cases herror

/-- What becomes of a row when drafts are replaced by the one of a given
identifier. -/
def replaced (ids : List ℕ) (by_ : ℕ) (r : TM1Change) : TM1Change :=
  if r.id ∈ ids then { r with status := .superseded, superseded_by := some by_ } else r

/-- Replacing drafts closes them, points them to the new one, and leaves every other
row as it is. -/
theorem replace_ok (h : store.replace open_drafts change = .ok (draft, store'))
    (hopen : ∀ r ∈ open_drafts, r ∈ store.rows) :
    draft = { change with id := store.next } ∧
      store'.rows = store.rows.map (replaced (open_drafts.map TM1Change.id) draft.id) ++ [draft] := by
  rw [replace] at h
  dsimp only at h
  rw [bind_eq_ok_iff] at h
  obtain ⟨⟨created, stored⟩, hinsert, hsame⟩ := h
  obtain ⟨hcreated, hrows⟩ := insert_ok hinsert
  simp only [pure, Except.pure, Except.ok.injEq, Prod.mk.injEq] at hsame
  obtain ⟨rfl, rfl⟩ := hsame
  refine ⟨hcreated, ?_⟩
  have hnew : created.id ∉ open_drafts.map TM1Change.id := by
    intro hmem
    obtain ⟨r, hr, hid⟩ := List.mem_map.mp hmem
    have hlt := store.fresh r (hopen r hr)
    rw [hid, hcreated] at hlt
    exact Nat.lt_irrefl _ hlt
  show stored.rows.map _ = _
  rw [hrows, List.map_append, List.map_cons, List.map_nil, if_neg hnew]
  congr 1
  show (store.rows.map _).map _ = _
  rw [List.map_map]
  apply List.map_congr_left
  intro r _
  by_cases hr : r.id ∈ open_drafts.map TM1Change.id
  · simp only [Function.comp_apply, replaced, if_pos hr]
  · simp only [Function.comp_apply, replaced, if_neg hr]

/-- The index refuses the new draft exactly when an open draft of its key is not
among the replaced ones. -/
theorem replace_error_iff {e : AppException} :
    store.replace open_drafts change = .error e ↔ e = IntegrityError ∧ change.isDraft = true ∧
      ∃ r ∈ store.rows, r.isDraft = true ∧ r.openKey = change.openKey ∧
        r.id ∉ open_drafts.map TM1Change.id := by
  have hinsert : store.replace open_drafts change = .error e ↔
      (store.supersede (open_drafts.map TM1Change.id)).insert change = .error e := by
    rw [replace]
    dsimp only
    rcases (store.supersede (open_drafts.map TM1Change.id)).insert change with e' | created
    · rfl
    · exact iff_of_false (by rintro ⟨⟩) (by simp)
  rw [hinsert, insert_error_iff]
  apply and_congr_right
  intro _
  apply and_congr_right
  intro _
  constructor
  · rintro ⟨q, hq, hdraft, hkey⟩
    obtain ⟨r, hr, rfl⟩ := List.mem_map.mp hq
    by_cases hid : r.id ∈ open_drafts.map TM1Change.id
    · rw [if_pos hid] at hdraft
      cases hdraft
    · rw [if_neg hid] at hdraft hkey
      exact ⟨r, hr, hdraft, hkey, hid⟩
  · rintro ⟨r, hr, hdraft, hkey, hid⟩
    exact ⟨r, List.mem_map.mpr ⟨r, hr, if_neg hid⟩, hdraft, hkey⟩

end Store

/-! ## A quiet setting

The small server, analyses that find nothing, and one author. -/

namespace change_service

/-- Analyses that find nothing. -/
def noFindings : Analyzers Unit where
  lower name := name
  field _ _ := none
  analyze _ _ := []
  review _ _ _ := []
  parse_process_code _ := []
  analyze_impact _ _ _ _ _ _ _ := ⟨true, [], [], none⟩
  mdx_cubes _ := []
  cellcount _ _ := .ok 0
  table _ _ := .ok 0

/-- The small server, reached by an author on a shared connection. -/
def quietMoment : Moment Unit where
  connections := [⟨1, 1, true, 7, some "dev"⟩]
  user := some 7
  graph := ()
  answer _ := .ok
  server := smallServer
  now := 10

/-- New rules for `Sales`. -/
def rulesProposal : Proposal :=
  ⟨1, 1, 7, "update_rules", "Sales", some { rules := some "['Net'] = ['Gross'] * 0.9;" }⟩

/-- The first proposal is kept as an open draft. -/
example : (create_change noFindings currentTM1 quietMoment rulesProposal Store.empty).map
    (fun created => created.2.rows.map TM1Change.status) = .ok [.draft] := by
  decide

end change_service

end PaCopilot
