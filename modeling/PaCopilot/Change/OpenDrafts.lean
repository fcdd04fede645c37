/-
Open drafts: the ones `create_change` closes, and the ones its index forbids.

`create_change` closes the author's open drafts of the same change type and
target. The index allows one open draft of a connection, an author, a target and
a view name, whatever its change type. Two change types on one target are where
the two sets part: the proposal then passes all its checks and fails at the
insertion.
-/
import PaCopilot.Change.Create
import PaCopilot.Lib.Run

set_option autoImplicit false

namespace PaCopilot.change_service

open Remote Table

variable {Graph : Type}

/-! ## One proposal after another -/

/-- A proposal and the moment it is made in. -/
abbrev Proposing (Graph : Type) := Moment Graph × Proposal

/-- The table after a proposal. A request that raised was rolled back. -/
def propose (a : Analyzers Graph) (tm1 : TM1) (store : Store) (x : Proposing Graph) : Store :=
  match create_change a tm1 x.1 x.2 store with
  | .ok (_, store') => store'
  | .error _ => store

/-- Proposals as the steps of a run: each of them can be made. -/
def proposeStep (a : Analyzers Graph) (tm1 : TM1) (store : Store) (x : Proposing Graph) :
    Option Store :=
  some (propose a tm1 store x)

/-- The proposal passes its checks and fails at the insertion. -/
def FailsOnIndex (a : Analyzers Graph) (tm1 : TM1) (store : Store) (x : Proposing Graph) : Prop :=
  ∃ change_type change, ChangeType.ofText x.2.change_type = some change_type ∧
    repeated store x.2 change_type = none ∧ drafted a tm1 x.1 x.2 change_type = .ok change ∧
    store.replace (openDrafts store x.2 change_type) change = .error IntegrityError

/-- At most one open draft of each key. -/
def OneOpenDraft (store : Store) : Prop :=
  ∀ r ∈ store.rows, ∀ q ∈ store.rows, r.status = .draft → q.status = .draft →
    r.openKey = q.openKey → r = q

/-- The open drafts of the new one's key were closed and point to it. -/
def OlderSuperseded (store store' : Store) (draft : TM1Change) : Prop :=
  ∀ r ∈ store.rows, r.status = .draft → r.openKey = draft.openKey → r.id ≠ draft.id →
    ∃ r' ∈ store'.rows, r'.id = r.id ∧ r'.status = .superseded ∧ r'.superseded_by = some draft.id

/-- The proposal does not fail on the index, leaves at most one open draft of each
key, and closes what was open of its own. -/
def KeepsOneDraft (a : Analyzers Graph) (tm1 : TM1) (store : Store) (x : Proposing Graph) : Prop :=
  ¬ FailsOnIndex a tm1 store x ∧ OneOpenDraft (propose a tm1 store x) ∧
    ∀ draft store', create_change a tm1 x.1 x.2 store = .ok (draft, store') →
      OlderSuperseded store store' draft

/-- A new draft of the proposal meets no open draft of its key that is of another
change type or organization. -/
def NoClash (a : Analyzers Graph) (tm1 : TM1) (store : Store) (x : Proposing Graph) : Prop :=
  ∀ change_type change, ChangeType.ofText x.2.change_type = some change_type →
    repeated store x.2 change_type = none → drafted a tm1 x.1 x.2 change_type = .ok change →
    ∀ r ∈ store.rows, r.status = .draft → r.openKey = x.2.openKey →
      r.change_type = change_type ∧ r.organization_id = x.2.organization_id

/-! ## The two sets -/

section Sets

variable {a : Analyzers Graph} {tm1 : TM1} {store : Store} {x : Proposing Graph}
  {change_type : ChangeType} {r : TM1Change}

/-- The index guarantees it. -/
theorem oneOpenDraft (store : Store) : OneOpenDraft store := by
  intro r hr q hq hdraft hdraft' hkey
  apply store.uq_tm1_changes_open_draft.eq hr hq _ _ hkey
  · rw [TM1Change.isDraft, hdraft]
    rfl
  · rw [TM1Change.isDraft, hdraft']
    rfl

/-- An open draft of the proposal's key is closed exactly when it is of the same
change type and organization. -/
theorem closed_iff (change_type : ChangeType) (hr : r ∈ store.rows) (hdraft : r.isDraft = true)
    (hkey : r.openKey = x.2.openKey) :
    r.id ∈ (openDrafts store x.2 change_type).map TM1Change.id ↔
      r.change_type = change_type ∧ r.organization_id = x.2.organization_id := by
  rw [TM1Change.openKey, Proposal.openKey, Prod.mk.injEq, Prod.mk.injEq, Prod.mk.injEq] at hkey
  obtain ⟨hconn, hauthor, htarget, hview⟩ := hkey
  constructor
  · intro hmem
    obtain ⟨q, hq, hid⟩ := List.mem_map.mp hmem
    obtain ⟨hrow, -, horg, -, htype, -, -, -⟩ := mem_openDrafts.mp hq
    have hsame : q = r := store.ids.eq hrow hr rfl rfl hid
    rw [hsame] at horg htype
    exact ⟨htype, horg⟩
  · rintro ⟨htype, horg⟩
    refine List.mem_map.mpr ⟨r, mem_openDrafts.mpr ?_, rfl⟩
    exact ⟨hr, hconn, horg, hauthor, htype, htarget, hdraft, fun _ => hview⟩

theorem isDraft_iff : r.isDraft = true ↔ r.status = .draft := by
  rw [TM1Change.isDraft, decide_eq_true_eq]

/-- A proposal fails on the index exactly when it meets a clash. -/
theorem failsOnIndex_iff : FailsOnIndex a tm1 store x ↔ ¬ NoClash a tm1 store x := by
  have hfails : ∀ {change_type change}, drafted a tm1 x.1 x.2 change_type = .ok change →
      (store.replace (openDrafts store x.2 change_type) change = .error IntegrityError ↔
        ∃ r ∈ store.rows, r.status = .draft ∧ r.openKey = x.2.openKey ∧
          ¬ (r.change_type = change_type ∧ r.organization_id = x.2.organization_id)) := by
    intro change_type change hchange
    have hp := (drafted_ok hchange).1
    rw [Store.replace_error_iff, hp.openKey]
    simp only [hp.isDraft, true_and]
    constructor
    · rintro ⟨r, hr, hdraft, hkey, hnot⟩
      rw [closed_iff _ hr hdraft hkey] at hnot
      exact ⟨r, hr, isDraft_iff.mp hdraft, hkey, hnot⟩
    · rintro ⟨r, hr, hdraft, hkey, hnot⟩
      refine ⟨r, hr, isDraft_iff.mpr hdraft, hkey, ?_⟩
      rw [closed_iff _ hr (isDraft_iff.mpr hdraft) hkey]
      exact hnot
  constructor
  · rintro ⟨change_type, change, htype, hrepeated, hchange, hreplace⟩ hno
    obtain ⟨r, hr, hdraft, hkey, hnot⟩ := (hfails hchange).mp hreplace
    exact hnot (hno change_type change htype hrepeated hchange r hr hdraft hkey)
  · intro hclash
    unfold NoClash at hclash
    push Not at hclash
    obtain ⟨change_type, change, htype, hrepeated, hchange, r, hr, hdraft, hkey, hnot⟩ := hclash
    refine ⟨change_type, change, htype, hrepeated, hchange, (hfails hchange).mpr ?_⟩
    exact ⟨r, hr, hdraft, hkey, fun h => hnot h.1 h.2⟩

/-- A draft that is returned closed every older one of its key. -/
theorem older_superseded {draft : TM1Change} {store' : Store} (hno : NoClash a tm1 store x)
    (h : create_change a tm1 x.1 x.2 store = .ok (draft, store')) :
    OlderSuperseded store store' draft := by
  intro r hr hdraft hkey hid
  obtain ⟨change_type, htype, ⟨hrepeated, -⟩ | ⟨change, hrepeated, hchange, hreplace⟩⟩ :=
    create_change_ok h
  · -- the repeated draft is the one open draft of its key
    obtain ⟨hrow, hp⟩ := repeated_proposes hrepeated
    exact absurd (congrArg TM1Change.id (oneOpenDraft store r hr draft hrow hdraft hp.status hkey)) hid
  · have hopen : ∀ q ∈ openDrafts store x.2 change_type, q ∈ store.rows :=
      fun q hq => (mem_openDrafts.mp hq).1
    obtain ⟨hnew, hrows⟩ := Store.replace_ok hreplace hopen
    have hp := (drafted_ok hchange).1
    have hkey' : r.openKey = x.2.openKey := by
      rw [hkey, hnew]
      exact hp.openKey
    have hclosed := (closed_iff change_type hr (isDraft_iff.mpr hdraft) hkey').mpr
      (hno change_type change htype hrepeated hchange r hr hdraft hkey')
    refine ⟨Store.replaced ((openDrafts store x.2 change_type).map TM1Change.id) draft.id r, ?_, ?_⟩
    · rw [hrows]
      exact List.mem_append_left _ (List.mem_map_of_mem hr)
    · rw [Store.replaced, if_pos hclosed]
      exact ⟨rfl, rfl, rfl⟩

end Sets

/-- One proposal: the index is respected exactly when there is no clash. -/
theorem keepsOneDraft_iff (a : Analyzers Graph) (tm1 : TM1) (store : Store)
    (x : Proposing Graph) : KeepsOneDraft a tm1 store x ↔ NoClash a tm1 store x := by
  constructor
  · rintro ⟨hindex, -, -⟩
    rw [failsOnIndex_iff, not_not] at hindex
    exact hindex
  · intro hno
    refine ⟨?_, oneOpenDraft _, fun draft store' h => older_superseded hno h⟩
    rw [failsOnIndex_iff, not_not]
    exact hno

/-- **Any sequence of proposals leaves one open draft of each key and never fails on
the index, exactly when none of them meets an open draft of its key that is of
another change type.** -/
theorem proposals_keep_one_draft_iff (a : Analyzers Graph) (tm1 : TM1) (store : Store)
    (xs : List (Proposing Graph)) :
    Run.Along (proposeStep a tm1) (KeepsOneDraft a tm1) store xs ↔
      Run.Along (proposeStep a tm1) (NoClash a tm1) store xs :=
  Run.along_congr (keepsOneDraft_iff a tm1)

/-! ## Update, then delete -/

/-- A new epilog for `Load`. -/
def epilogProposal : Proposal :=
  ⟨1, 1, 7, "update_process", "Load", some { epilog := some (some "ItemReject('');") }⟩

/-- The deletion of `Load`. -/
def deleteProposal : Proposal := ⟨1, 1, 7, "delete_process", "Load", none⟩

/-- **A proposal that fails on the index.** The author proposes an update of a
process, changes their mind and proposes its deletion; the open update is not
closed, and the deletion cannot be stored. -/
theorem update_then_delete_fails :
    ¬ Run.Along (proposeStep noFindings currentTM1) (KeepsOneDraft noFindings currentTM1)
      Store.empty [(quietMoment, epilogProposal), (quietMoment, deleteProposal)] := by
  rintro ⟨-, hrest⟩
  obtain ⟨⟨hindex, -⟩, -⟩ := hrest _ rfl
  apply hindex
  exact ⟨.delete_process, _, rfl, rfl, rfl, rfl⟩

end PaCopilot.change_service
