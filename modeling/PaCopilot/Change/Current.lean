/-
Whether a draft that `create_change` returns is about the target as it is now.

A new draft is: everything in it was read while it was made. A repeated proposal
returns the open draft of the same content without reading anything, so that
draft is about the target as it was when it was first made.
-/
import PaCopilot.Change.Drift
import PaCopilot.Change.Create

set_option autoImplicit false

namespace PaCopilot.change_service

open Remote

variable {Graph : Type}

/-! ## Current drafts -/

/-- The draft is what analysing its proposal against this server and this
dependency map gives: the digest of the target, the validation errors and the
impact. -/
structure Current (a : Analyzers Graph) (tm1 : TM1) (m : Moment Graph) (draft : TM1Change) :
    Prop where
  base_fingerprint : compared tm1 draft m.server = .ok draft.base_fingerprint
  analysed : ∃ found, analysed a tm1 (fun _ => .ok) draft.change_type draft.target_name
      draft.new_content m.server = .ok found ∧
    draft.validation_errors = found.validation_errors ∧
    draft.impact = impactOf a m.graph draft.connection_id draft.organization_id draft.change_type
      draft.target_name found

/-- A read that returned returns the same when TM1 answers every call. -/
theorem reply_answering {α : Type} {x : Answer} {reply : Server → Except DefiniteError α}
    {s : Server} {y : α} (h : x.reply reply s = .ok y) :
    (Answer.ok : Answer).reply reply s = .ok y :=
  reply_of_ok (reply_ok h)

section Answered

variable {a : Analyzers Graph} {tm1 : TM1} {answer : DraftAnswers} {target : String}
  {content : Option NewContent} {s : Server} {found : Analysed}

theorem analysedRules_answered (h : analysedRules answer target content s = .ok found) :
    analysedRules (fun _ => .ok) target content s = .ok found := by
  simp only [analysedRules, bind_eq_ok_iff] at h ⊢
  obtain ⟨u, hrules, cube, hcube, hfound⟩ := h
  exact ⟨u, hrules, cube, reply_answering hcube, hfound⟩

theorem analysedUpdate_answered
    (h : analysedProcess a tm1 answer true target content s = .ok found) :
    analysedProcess a tm1 (fun _ => .ok) true target content s = .ok found := by
  unfold analysedProcess at h ⊢
  rcases content with _ | content
  · exact h
  simp only [bind_eq_ok_iff, map_eq_ok_iff, if_true] at h ⊢
  obtain ⟨there, hthere, u, hnew, u', hold, base, ⟨p, hp, hbase⟩, errors, herrors, hfound⟩ := h
  exact ⟨there, reply_answering hthere, u, hnew, u', hold, base,
    ⟨p, reply_answering hp, hbase⟩, errors, reply_answering herrors, hfound⟩

theorem analysedCells_answered (h : analysedCells tm1 answer target content s = .ok found) :
    analysedCells tm1 (fun _ => .ok) target content s = .ok found := by
  simp only [analysedCells, bind_eq_ok_iff] at h ⊢
  obtain ⟨writes, hwrites, result, hresult, hfound⟩ := h
  exact ⟨writes, hwrites, result, reply_answering hresult, hfound⟩

theorem analysedDeletion_answered (h : analysedDeletion answer target s = .ok found) :
    analysedDeletion (fun _ => .ok) target s = .ok found := by
  simp only [analysedDeletion, bind_eq_ok_iff] at h ⊢
  obtain ⟨there, hthere, u, hrefuse, hfound⟩ := h
  exact ⟨there, reply_answering hthere, u, hrefuse, hfound⟩

end Answered

section Created

variable {a : Analyzers Graph} {tm1 : TM1} {m : Moment Graph} {p : Proposal}
  {change_type : ChangeType} {change draft : TM1Change} {store store' : Store}

/-- What was found out of a guarded target is what TM1 would answer. -/
theorem analysed_answered {found : Analysed} (hguarded : Guarded change)
    (h : analysed a tm1 m.answer change.change_type p.target_name p.new_content m.server
      = .ok found) :
    analysed a tm1 (fun _ => .ok) change.change_type p.target_name p.new_content m.server
      = .ok found := by
  rcases hguarded with ht | ht | ht | ht <;> rw [ht] at h ⊢
  · exact analysedRules_answered h
  · exact analysedUpdate_answered h
  · exact analysedDeletion_answered h
  · exact analysedCells_answered h

/-- A new draft without validation errors is current. -/
theorem drafted_current (hchange : drafted a tm1 m p change_type = .ok change)
    (hguarded : Guarded change) (hvalid : change.validation_errors = []) :
    Current a tm1 m change := by
  obtain ⟨hp, found, hfound, herrors, himpact, hbase⟩ := drafted_ok hchange
  have hnone : found.validation_errors = [] := by rw [← herrors, hvalid]
  rw [← hp.change_type] at hfound himpact
  constructor
  · rw [baseFingerprint, if_neg (by simp [hnone]), ← hp.change_type, ← hp.target_name,
      ← hp.new_content] at hbase
    exact fingerprint_answered hbase
  · refine ⟨found, ?_, herrors, ?_⟩
    · rw [hp.target_name, hp.new_content]
      exact analysed_answered hguarded hfound
    · rw [hp.connection_id, hp.organization_id, hp.target_name]
      exact himpact

/-- The identifier a draft gets does not matter. -/
theorem Current.withId (h : Current a tm1 m change) (id : ℕ) :
    Current a tm1 m { change with id := id } :=
  ⟨h.base_fingerprint, h.analysed⟩

/-- A current draft may be executed at once. -/
theorem Current.admitted (h : Current a tm1 m draft) (hguarded : Guarded draft)
    (hstatus : draft.status = .draft) (hvalid : draft.validation_errors = []) :
    change_service.admitted tm1 (fun _ => .ok) true draft m.server = .ok () := by
  obtain ⟨base, hbase⟩ := compared_some hguarded h.base_fingerprint
  rw [admitted_eq_ok_iff hbase]
  refine ⟨⟨hstatus, hvalid, Bool.and_false _⟩, rfl, ?_⟩
  rw [← hbase]
  exact h.base_fingerprint

/-- **A draft is current exactly when it is new, or repeats one that still is.** The
draft without validation errors that `create_change` returns for a guarded target
is then one that can be executed at once. -/
theorem created_current_iff (a : Analyzers Graph) (tm1 : TM1) (m : Moment Graph) (p : Proposal)
    (store store' : Store) (draft : TM1Change)
    (h : create_change a tm1 m p store = .ok (draft, store')) (hguarded : Guarded draft)
    (hvalid : draft.validation_errors = []) :
    (Current a tm1 m draft ∧
        change_service.admitted tm1 (fun _ => .ok) true draft m.server = .ok ())
      ↔ ∀ change_type old, ChangeType.ofText p.change_type = some change_type →
          repeated store p change_type = some old → Current a tm1 m old := by
  obtain ⟨change_type, htype, ⟨hrepeated, -⟩ | ⟨change, hrepeated, hchange, hreplace⟩⟩ :=
    create_change_ok h
  · constructor
    · rintro ⟨hcurrent, -⟩ change_type' old htype' hrepeated'
      rw [htype, Option.some.injEq] at htype'
      rw [← htype', hrepeated, Option.some.injEq] at hrepeated'
      rw [← hrepeated']
      exact hcurrent
    · intro hold
      have hcurrent := hold change_type draft htype hrepeated
      exact ⟨hcurrent, hcurrent.admitted hguarded (repeated_proposes hrepeated).2.status hvalid⟩
  · have hopen : ∀ q ∈ openDrafts store p change_type, q ∈ store.rows :=
      fun q hq => (mem_openDrafts.mp hq).1
    obtain ⟨hnew, -⟩ := Store.replace_ok hreplace hopen
    subst hnew
    have hcurrent := (drafted_current hchange hguarded hvalid).withId store.next
    refine iff_of_true ⟨hcurrent, ?_⟩ ?_
    · exact hcurrent.admitted hguarded (drafted_ok hchange).1.status hvalid
    · intro change_type' old htype' hrepeated'
      rw [htype, Option.some.injEq] at htype'
      rw [← htype', hrepeated] at hrepeated'
      cases hrepeated'

end Created

/-! ## Proposed again -/

/-- Someone has changed the rules of `Sales` since. -/
def laterMoment : Moment Unit :=
  { quietMoment with
    server := smallServer.setCube "Sales" (some { sales with rules := "['Net'] = ['Gross'] * 0.7;" })
    now := 20 }

/-- `created_current_iff` at the first proposal. -/
theorem rulesProposal_current_iff :
    ∃ draft store', create_change noFindings currentTM1 quietMoment rulesProposal Store.empty
        = .ok (draft, store') ∧
      ((Current noFindings currentTM1 quietMoment draft ∧
          change_service.admitted currentTM1 (fun _ => .ok) true draft quietMoment.server = .ok ())
        ↔ ∀ change_type old, ChangeType.ofText rulesProposal.change_type = some change_type →
            repeated Store.empty rulesProposal change_type = some old →
            Current noFindings currentTM1 quietMoment old) :=
  ⟨_, _, rfl, created_current_iff noFindings currentTM1 quietMoment rulesProposal Store.empty _ _
    rfl (.inl rfl) rfl⟩

/-- **A draft that is out of date when it is returned.** The rules were changed in
TM1 after a draft was made. Proposing the same rules again returns the draft of
the old content, which the drift guard refuses. -/
theorem rulesProposal_again_stale :
    ∃ first store₁ again store₂,
      create_change noFindings currentTM1 quietMoment rulesProposal Store.empty
        = .ok (first, store₁) ∧
      create_change noFindings currentTM1 laterMoment rulesProposal store₁ = .ok (again, store₂) ∧
      Guarded again ∧ again.validation_errors = [] ∧
      ¬ Current noFindings currentTM1 laterMoment again ∧
      change_service.admitted currentTM1 (fun _ => .ok) true again laterMoment.server ≠ .ok () := by
  refine ⟨_, _, _, _, rfl, rfl, .inl rfl, rfl, ?_, ?_⟩
  · rintro ⟨hbase, -⟩
    revert hbase
    decide
  · decide

end PaCopilot.change_service
