/-
The columns of a change that say what was proposed, by whom and where.

`create_change` writes them, and nothing writes them again: executing, rejecting and
rolling back a change leave it the change it was. Each of the three, in the session
of its request, is an edit of its row that keeps these columns and opens no draft
([`Amendment`]).
-/
import PaCopilot.Change.Concurrency

set_option autoImplicit false

namespace PaCopilot

open Remote

/-- What was proposed. -/
structure Proposed where
  id : ℕ
  connection_id : ℕ
  organization_id : ℕ
  created_by : ℕ
  change_type : ChangeType
  target_name : String
  new_content : Option NewContent
  environment : String

/-- The columns that `create_change` writes for good. -/
def TM1Change.proposed (change : TM1Change) : Proposed where
  id := change.id
  connection_id := change.connection_id
  organization_id := change.organization_id
  created_by := change.created_by
  change_type := change.change_type
  target_name := change.target_name
  new_content := change.new_content
  environment := change.environment

theorem openKey_of_proposed {row row' : TM1Change} (h : row'.proposed = row.proposed) :
    row'.openKey = row.openKey := by
  have hconnection : row'.connection_id = row.connection_id := congrArg Proposed.connection_id h
  have hauthor : row'.created_by = row.created_by := congrArg Proposed.created_by h
  have htarget : row'.target_name = row.target_name := congrArg Proposed.target_name h
  have hcontent : row'.new_content = row.new_content := congrArg Proposed.new_content h
  rw [TM1Change.openKey, TM1Change.openKey, hconnection, hauthor, htarget, hcontent]

namespace change_service

/-! ## Execution -/

section Kept

variable {tm1 : TM1} {answer : Answers} {change : TM1Change} {proposed : Proposed}

/-- The row is still about a proposal. -/
def About (proposed : Proposed) (row : TM1Change) : Prop := row.proposed = proposed

theorem keeps_conclude {V A : Type} {c : Compensation Server DefiniteError V A}
    {calls : Calls DefiniteError String} {seen : V → TM1Change → TM1Change}
    {errors : V → List String} {message : String} {left : V → A → PreviousContent}
    (hseen : ∀ v row, About proposed row → About proposed (seen v row)) :
    Keeps (About proposed) (conclude c calls seen errors message left) := by
  refine Keeps.bind (c.run_keeps calls hseen) ?_
  rintro ⟨v, _ | x⟩
  · exact Keeps.note fun _ h => h
  · exact Keeps.note fun _ h => h

theorem about_sayRuleCheck (errors : Option (List String)) (row : TM1Change)
    (h : About proposed row) : About proposed (sayRuleCheck errors row) := by
  unfold sayRuleCheck
  by_cases herrors : errors = none
  · rw [if_pos herrors]
    exact h
  · rw [if_neg herrors]
    exact h

theorem applyRules_keeps : Keeps (About proposed) (applyRules tm1 answer change) := by
  refine Keeps.bind (Keeps.ask _ _) fun previous => ?_
  refine Keeps.bind (Keeps.note fun _ h => h) fun _ => ?_
  rcases change.new_content.bind NewContent.rules with _ | rules
  · exact Keeps.throw _
  · exact keeps_conclude about_sayRuleCheck

theorem applyCreateProcess_keeps :
    Keeps (About proposed) (applyCreateProcess tm1 answer change) := by
  refine Keeps.bind (Keeps.ask _ _) fun there => ?_
  by_cases hthere : there = true
  · rw [if_pos hthere]
    exact Keeps.throw _
  rw [if_neg hthere]
  refine Keeps.bind (Keeps.note fun _ h => h) fun _ => ?_
  rcases change.new_content with _ | content
  · exact Keeps.throw _
  · exact keeps_conclude fun _ _ h => h

theorem applyUpdateProcess_keeps :
    Keeps (About proposed) (applyUpdateProcess tm1 answer change) := by
  refine Keeps.bind (Keeps.ask _ _) fun base => ?_
  refine Keeps.bind (Keeps.note fun _ h => h) fun _ => ?_
  rcases change.new_content with _ | content
  · exact Keeps.throw _
  · exact keeps_conclude fun _ _ h => h

theorem applyDeleteProcess_keeps : Keeps (About proposed) (applyDeleteProcess answer change) := by
  refine Keeps.bind (Keeps.ask _ _) fun base => ?_
  refine Keeps.bind (Keeps.note fun _ h => h) fun _ => ?_
  exact Keeps.bind (Keeps.send _ _) fun _ => Keeps.note fun _ h => h

theorem applyCells_keeps : Keeps (About proposed) (applyCells tm1 answer change) := by
  refine Keeps.bind (Keeps.look _) fun writes => ?_
  refine Keeps.bind (Keeps.ask _ _) fun _cube => ?_
  refine Keeps.bind (Keeps.ask _ _) fun before => ?_
  exact Keeps.bind (Keeps.note fun _ h => h) fun _ => keeps_conclude fun _ _ h => h

theorem applyView_keeps : Keeps (About proposed) (applyView tm1 answer change) := by
  refine Keeps.bind (Keeps.look _) fun content => ?_
  obtain ⟨view_name, mdx⟩ := content
  refine Keeps.bind (Keeps.ask _ _) fun there => ?_
  by_cases hthere : there = true
  · rw [if_pos hthere]
    exact Keeps.throw _
  rw [if_neg hthere]
  exact Keeps.bind (Keeps.note fun _ h => h) fun _ => keeps_conclude fun _ _ h => h

theorem run_keeps : Keeps (About proposed) (_run tm1 answer change) := by
  refine Keeps.bind (Keeps.tryCatch ?_ fun e => ?_) fun result => ?_
  · have hcall : Keeps (About proposed) (perform (answer .write) (executeProcess tm1
        change.target_name ((change.new_content.map NewContent.given).getD [])) :
          ChangeM RunResult) := Keeps.perform _ _
    dsimp only
    split
    · exact Keeps.bind (Keeps.throw _) fun _ => Keeps.bind hcall fun _ => Keeps.pure _
    · exact Keeps.bind hcall fun _ => Keeps.pure _
  · rcases e with error | message
    · exact Keeps.bind (Keeps.note fun _ h => h) fun _ => Keeps.pure _
    · exact Keeps.bind (Keeps.note fun _ h => h) fun _ => Keeps.pure _
  · rcases result with _ | result
    · exact Keeps.pure _
    -- both ends write the result and the status, and neither is part of the proposal
    have houtcome : ∀ (r : RunResult) (message : String), Keeps (About proposed) (do
        note fun change => { change with execution_result := some (.run r) }
        if r.success then note fun change => { change with status := .executed }
        else note fun change => { change with
          status := .failed
          error_message := some message } :
          ChangeM Unit) := by
      intro r message
      refine Keeps.bind (Keeps.note fun _ h => h) fun _ => ?_
      by_cases hsuccess : r.success = true
      · rw [if_pos hsuccess]
        exact Keeps.note fun _ h => h
      · rw [if_neg hsuccess]
        exact Keeps.note fun _ h => h
    dsimp only
    split
    · refine Keeps.bind (Keeps.tryCatch (Keeps.bind (Keeps.ask _ _) fun _ => Keeps.pure _)
        fun _ => Keeps.pure _) fun excerpt => ?_
      exact Keeps.bind (Keeps.pure _) fun r => houtcome r _
    · exact Keeps.bind (Keeps.pure _) fun r => houtcome r _

theorem apply_keeps : Keeps (About proposed) (_apply tm1 answer change) := by
  unfold _apply
  split
  · exact applyRules_keeps
  · exact applyCreateProcess_keeps
  · exact applyUpdateProcess_keeps
  · exact run_keeps
  · exact applyCells_keeps
  · exact applyView_keeps
  · exact applyDeleteProcess_keeps

theorem onUnknown_keeps (e : AppException) : Keeps (About proposed) (onUnknown e) := by
  rcases e with error | message
  · exact Keeps.throw _
  · refine Triple.bind Triple.own fun row => ?_
    refine Triple.weaken (P := About proposed) ?_ (fun _ h => h.2) (fun _ _ => id) fun _ _ => id
    rcases row.previous_content with _ | previous
    · exact Keeps.throw _
    · exact Keeps.note fun _ h => h

/-- An execution keeps what was proposed. -/
theorem execute_change_keeps {executed_by now : ℕ} {acknowledge_impact : Bool} :
    Keeps (About proposed) (execute_change tm1 answer executed_by now acknowledge_impact) := by
  refine Triple.bind Triple.own fun row => ?_
  refine Triple.weaken (P := About proposed) ?_ (fun _ h => h.2) (fun _ _ => id) fun _ _ => id
  refine Keeps.bind (Keeps.look _) fun _ => ?_
  exact Keeps.bind (Keeps.note fun _ h => h) fun _ => Keeps.tryCatch apply_keeps onUnknown_keeps

/-! ## Rejection and rollback -/

theorem reject_change_keeps : Keeps (About proposed) reject_change := by
  refine Triple.bind Triple.own fun row => ?_
  refine Triple.weaken (P := About proposed) ?_ (fun _ h => h.2) (fun _ _ => id) fun _ _ => id
  exact Keeps.bind (Keeps.look _) fun _ => Keeps.note fun _ h => h

theorem restoreContent_keeps {answer : RollbackAnswers} :
    Keeps (About proposed) (restoreContent tm1 answer change) := by
  unfold restoreContent
  dsimp only
  split
  · exact Keeps.send _ _
  · exact Keeps.bind (Keeps.ask _ _) fun _ => Keeps.send _ _
  · exact Keeps.throw _
  · exact Keeps.throw _
  · refine Keeps.bind (Keeps.look _) fun content => ?_
    obtain ⟨view_name, mdx⟩ := content
    exact Keeps.send _ _
  · refine Keeps.bind (Keeps.ask _ _) fun there => ?_
    by_cases hthere : there = true
    · rw [if_pos hthere]
      exact Keeps.send _ _
    · rw [if_neg hthere]
      exact Keeps.pure _
  · exact Keeps.throw _
  · split
    · exact Keeps.throw _
    · exact Keeps.send _ _

theorem rollback_change_keeps {answer : RollbackAnswers} {now : ℕ} :
    Keeps (About proposed) (rollback_change tm1 answer now) := by
  refine Triple.bind Triple.own fun row => ?_
  refine Triple.weaken (P := About proposed) ?_ (fun _ h => h.2) (fun _ _ => id) fun _ _ => id
  refine Keeps.bind (Keeps.look _) fun _ => ?_
  refine Keeps.bind (Keeps.look _) fun _ => ?_
  refine Keeps.bind (Keeps.look _) fun _ => ?_
  refine Keeps.bind (Keeps.look _) fun _ => ?_
  exact Keeps.bind restoreContent_keeps fun _ => Keeps.note fun _ h => h

end Kept

end change_service

/-! ## Edits of a row -/

/-- A row and what becomes of it: it stays the change it was, and a decided one is
decided for good. -/
structure Amendment where
  row : TM1Change
  after : TM1Change
  proposed : after.proposed = row.proposed
  drafts : after.isDraft = true → row.isDraft = true

/-- The table with one row amended. -/
def Store.amend (store : Store) (a : Amendment) : Store :=
  store.edit (fun r => if r = a.row then a.after else r)
    (fun r => by
      split
      · rename_i hrow
        rw [hrow]
        exact congrArg Proposed.id a.proposed
      · rfl)
    (fun r h => by
      split at h
      · rename_i hrow
        rw [hrow]
        exact a.drafts h
      · exact h)
    fun r => by
      split
      · rename_i hrow
        rw [hrow]
        exact openKey_of_proposed a.proposed
      · rfl

/-- An amended table is about the changes it was about. -/
theorem Store.mem_amend {store : Store} {a : Amendment} {r : TM1Change}
    (h : r ∈ (store.amend a).rows) : ∃ q ∈ store.rows, r.proposed = q.proposed := by
  obtain ⟨q, hq, rfl⟩ := List.mem_map.mp h
  refine ⟨q, hq, ?_⟩
  split
  · rename_i hrow
    rw [hrow]
    exact a.proposed
  · rfl

/-- And about all of them. -/
theorem Store.amend_mem {store : Store} {a : Amendment} {q : TM1Change} (h : q ∈ store.rows) :
    ∃ r ∈ (store.amend a).rows, r.proposed = q.proposed := by
  refine ⟨_, List.mem_map_of_mem h, ?_⟩
  split
  · rename_i hrow
    rw [hrow]
    exact a.proposed
  · rfl

/-- A later table, with every change that was there as it was proposed. -/
def Store.Grown (store store' : Store) : Prop :=
  ∀ q ∈ store.rows, ∃ r ∈ store'.rows, r.proposed = q.proposed

theorem Store.Grown.refl (store : Store) : store.Grown store := fun q hq => ⟨q, hq, rfl⟩

theorem Store.grown_amend (store : Store) (a : Amendment) : store.Grown (store.amend a) :=
  fun _ hq => Store.amend_mem hq

namespace change_service

section Created

variable {Graph : Type} {a : Analyzers Graph} {tm1 : TM1} {m : Moment Graph} {p : Proposal}
  {store store' : Store} {draft : TM1Change}

/-- A draft is of the environment that its connection has. -/
theorem drafted_environment {change_type : ChangeType} {change : TM1Change}
    (h : drafted a tm1 m p change_type = .ok change) :
    ∃ connection, tm1_integration_service.get_connection m.connections m.user p.connection_id
        p.organization_id = .ok connection ∧
      change.environment = textOr connection.environment "dev" := by
  rw [drafted, bind_eq_ok_iff] at h
  obtain ⟨connection, hconnection, h⟩ := h
  obtain ⟨_, h⟩ := rest_of_bind h
  obtain ⟨_, h⟩ := rest_of_bind h
  dsimp only at h
  obtain ⟨_, h⟩ := rest_of_bind h
  cases h
  exact ⟨connection, hconnection, rfl⟩

/-- A superseded draft is still the change it was. -/
theorem replaced_proposed {ids : List ℕ} {by_ : ℕ} (r : TM1Change) :
    (Store.replaced ids by_ r).proposed = r.proposed := by
  unfold Store.replaced
  split <;> rfl

/-- What `create_change` returns is a draft of the proposal. Where it repeats none, it is
the one new row of the table. -/
theorem create_change_proposes (h : create_change a tm1 m p store = .ok (draft, store')) :
    draft ∈ store'.rows ∧ store.Grown store' ∧
      ∃ change_type, Proposes p change_type draft ∧
        (store' = store ∨ ∃ change, drafted a tm1 m p change_type = .ok change ∧
          draft = { change with id := store.next } ∧
          ∀ r ∈ store'.rows, r = draft ∨ ∃ q ∈ store.rows, r.proposed = q.proposed) := by
  obtain ⟨change_type, -, ⟨hrepeated, rfl⟩ | ⟨change, -, hdrafted, hreplace⟩⟩ :=
    create_change_ok h
  · obtain ⟨hmem, hproposes⟩ := repeated_proposes hrepeated
    exact ⟨hmem, Store.Grown.refl _, change_type, hproposes, .inl rfl⟩
  · obtain ⟨hdraft, hrows⟩ :=
      Store.replace_ok hreplace fun r hr => (mem_openDrafts.mp hr).1
    have hproposes := (drafted_ok hdrafted).1
    refine ⟨?_, ?_, change_type, ?_, .inr ⟨change, hdrafted, hdraft, ?_⟩⟩
    · rw [hrows]
      exact List.mem_append_right _ List.mem_cons_self
    · intro q hq
      refine ⟨Store.replaced ((openDrafts store p change_type).map TM1Change.id) draft.id q, ?_,
        replaced_proposed q⟩
      rw [hrows]
      exact List.mem_append_left _ (List.mem_map_of_mem hq)
    · rw [hdraft]
      exact ⟨hproposes.connection_id, hproposes.organization_id, hproposes.created_by,
        hproposes.change_type, hproposes.target_name, hproposes.new_content, hproposes.status⟩
    · intro r hr
      rw [hrows, List.mem_append, List.mem_singleton] at hr
      rcases hr with hold | hnew
      · obtain ⟨q, hq, rfl⟩ := List.mem_map.mp hold
        exact .inr ⟨q, hq, replaced_proposed q⟩
      · exact .inl hnew

end Created

/-- What a session writes of the row it holds. -/
def amendment (row : TM1Change) (write : Option (TM1Change → TM1Change))
    (hproposed : ∀ f, write = some f → (f row).proposed = row.proposed)
    (hmoves : ∀ f, write = some f → StatusMove row (f row)) : Amendment where
  row := row
  after := (write.getD id) row
  proposed := by
    rcases write with _ | f
    · rfl
    · exact hproposed f rfl
  drafts := by
    intro hafter
    rcases write with _ | f
    · exact hafter
    · by_contra hrow
      have hmoved := (hmoves f rfl).not_draft (of_decide_eq_false (Bool.not_eq_true _ ▸ hrow))
      exact hmoved (of_decide_eq_true hafter)

section Sessions

variable {tm1 : TM1} {row : TM1Change} {s : Server} {f : TM1Change → TM1Change}

theorem session_proposed {α : Type} {request : ChangeM α}
    (hkeeps : Keeps (About row.proposed) request) (h : (session request row s).1 = some f) :
    (f row).proposed = row.proposed := by
  obtain ⟨x, row', s', hrun, rfl⟩ := session_writes h
  exact hkeeps.returned (w := ⟨row, s⟩) rfl hrun

theorem executeSession_proposed {caller : Caller} {answer : Answers} {executed_by now : ℕ}
    {acknowledge_impact : Bool}
    (h : (executeSession caller tm1 answer executed_by now acknowledge_impact row s).1 = some f) :
    (f row).proposed = row.proposed := by
  rw [executeSession_writes h]
  have hkeeps : Keeps (About row.proposed)
      (execute_change tm1 answer executed_by now acknowledge_impact) := execute_change_keeps
  rcases hrun : exec (execute_change tm1 answer executed_by now acknowledge_impact) ⟨row, s⟩
    with ⟨e | x, w'⟩
  · exact hkeeps.raised (w := ⟨row, s⟩) rfl hrun
  · exact hkeeps.returned (w := ⟨row, s⟩) rfl hrun

end Sessions

section Amendments

variable (tm1 : TM1) (row : TM1Change) (s : Server)

/-- An execution in its session. -/
def executed (caller : Caller) (answer : Answers) (executed_by now : ℕ)
    (acknowledge_impact : Bool) : Amendment :=
  amendment row (executeSession caller tm1 answer executed_by now acknowledge_impact row s).1
    (fun _ h => executeSession_proposed h) fun _ h => execute_moves h

/-- A rejection in its session. -/
def rejected : Amendment :=
  amendment row (session reject_change row s).1 (fun _ h => session_proposed reject_change_keeps h)
    fun _ h => reject_moves h

/-- A rollback in its session. -/
def rolledBackIn (answer : RollbackAnswers) (now : ℕ) : Amendment :=
  amendment row (session (rollback_change tm1 answer now) row s).1
    (fun _ h => session_proposed rollback_change_keeps h) fun _ h => rollback_moves h

end Amendments

end change_service

end PaCopilot
