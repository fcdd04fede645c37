/-
Where the drafts that the assistant applies come from.

The history of the assistant is kept beside the database: every call that was answered
without an error, with what it returned. A draft is the assistant's own when a draft
tool returned it to the user in the conversation. `drafted_here` reads this off the
database, by a mark in the content and the first 500 characters of a stored result.

The stored results are as good as the history ([`drafted_in_conversation_iff`]): the
identifier stands first, within the part that is kept, and no other call can write
there. The mark is not: the copy of a process and the run of one are drafted without it,
so the assistant can never apply them, and `drafted_here` is right for a draft exactly
when neither tool returned it ([`drafted_here_iff`]).
-/
import PaCopilot.Ai.ApplyChange
import PaCopilot.Tm1.Endpoint
import PaCopilot.Lib.Run

set_option autoImplicit false

namespace PaCopilot.ai

open Remote Run

/-! ## The history -/

/-- `draft_change_id` of a result. -/
def ToolText.draft_change_id : ToolText → Option String
  | .json (.object fields) =>
    match List.lookup "draft_change_id" fields with
    | some (.string id) => some id
    | _ => none
  | _ => none

/-- A call that was answered without an error. -/
structure AnsweredCall where
  session : Session
  name : String
  content : ToolText

/-- One of the tools returned the draft to the user in the conversation. -/
def Returned (log : List AnsweredCall) (names : List String) (conversation_id user_id change_id : ℕ) :
    Prop :=
  ∃ answered ∈ log, answered.session.conversation_id = conversation_id ∧
    answered.session.user_id = user_id ∧ answered.name ∈ names ∧
    answered.content.draft_change_id = some (String.ofList (uuidText change_id))

structure History where
  db : AssistantDb
  log : List AnsweredCall

/-- Before the first call. -/
def History.start : History := ⟨⟨Store.empty, []⟩, []⟩

/-- What happens to the changes: a call of a tool in a turn of the assistant, a draft
that is made elsewhere, by a person or a promotion, or the decision on a change. -/
inductive Event (Graph : Type)
  | call (around : Surroundings Graph) (others : List OtherTool) (session : Session)
      (allowed_tools : Option (List String)) (agent : Option String) (call : ToolCall ToolInput)
  | create (a : change_service.Analyzers Graph) (tm1 : TM1) (m : Moment Graph) (p : Proposal)
  | decide (amendment : Amendment)

section Steps

variable {Graph : Type}

/-- A call that raises takes its turn with it, and is rolled back. -/
def History.called (around : Surroundings Graph) (others : List OtherTool) (session : Session)
    (allowed_tools : Option (List String)) (agent : Option String) (call : ToolCall ToolInput)
    (s : History) : History :=
  match _execute_tool_call (registry around others) session allowed_tools agent call ⟨s.db, []⟩ with
  | (.error _, _) => s
  | (.ok result, w) =>
    ⟨w.db, if result.is_error then s.log else s.log ++ [⟨session, call.name, result.content⟩]⟩

def History.after (s : History) : Event Graph → History
  | .call around others session allowed_tools agent call =>
    History.called around others session allowed_tools agent call s
  | .create a tm1 m p =>
    match change_service.create_change a tm1 m p s.db.changes with
    | .error _ => s
    | .ok (_, changes) => { s with db := { s.db with changes := changes } }
  | .decide amendment => { s with db := { s.db with changes := s.db.changes.amend amendment } }

/-- An identifier has 128 bits, so there are no more changes than that. -/
def History.step (s : History) (e : Event Graph) : Option History :=
  if (s.after e).db.changes.next ≤ 2 ^ 128 then some (s.after e) else none

end Steps

/-! ## Stored results -/

theorem draftPrefix_eq (id : ℕ) : ai_tool_execution_repository.draftPrefix id
    = Json.opening "draft_change_id".toList (uuidText id) := by
  have hdumps : Json.dumps (.object [("draft_change_id", .string (String.ofList (uuidText id)))])
      = Json.opening "draft_change_id".toList (uuidText id) ++ ['\x7d'] := by
    simp only [Json.dumps, Json.dumpsFields, Json.commaSeparated, Json.opening,
      String.toList_ofList, List.intercalate, List.intersperse, List.flatten_cons,
      List.flatten_nil, List.append_nil, List.cons_append]
  rw [ai_tool_execution_repository.draftPrefix, hdumps, List.dropLast_concat]

/-- The opening of a draft's JSON is within the part of a result that is kept. -/
theorem opening_length (id : ℕ) :
    (Json.opening "draft_change_id".toList (uuidText id)).length = 58 := by
  have hkey : (Json.quoted "draft_change_id".toList).length = 17 := by decide
  rw [Json.opening, List.length_cons, List.length_append, List.length_cons, List.length_cons,
    Json.quoted_plain (uuidText_plain id), List.length_cons, List.length_append, uuidText_length,
    hkey]
  rfl

/-- The stored result of a draft tool starts with the draft's identifier, and with no
other one. -/
theorem draftPrefix_iff {id id' : ℕ} {rest : List (String × Json)} (hid : id < 2 ^ 128)
    (hid' : id' < 2 ^ 128) :
    ai_tool_execution_repository.draftPrefix id
        <+: (_summarise_result (.json (.object
          (("draft_change_id", .string (String.ofList (uuidText id'))) :: rest)))).toList
      ↔ id = id' := by
  have htext : (String.ofList (uuidText id')).toList = uuidText id' := String.toList_ofList
  obtain ⟨tail, htail⟩ :=
    Json.dumps_object_opening "draft_change_id" (String.ofList (uuidText id')) rest
  rw [htext] at htail
  have hkept : (_summarise_result (.json (.object
      (("draft_change_id", .string (String.ofList (uuidText id'))) :: rest)))).toList
        = Json.opening "draft_change_id".toList (uuidText id') ++ tail.take (500 - 58) := by
    rw [_summarise_result, String.toList_ofList, htail, List.take_append, opening_length,
      List.take_of_length_le (by rw [opening_length]; omega)]
  rw [hkept, draftPrefix_eq, Json.opening_prefix_iff (uuidText_plain id) (uuidText_plain id')]
  exact ⟨uuidText_injective hid hid', fun h => by rw [h]⟩

/-! ## The history and the database -/

/-- The row of a call is what was answered. -/
structure Recorded (answered : AnsweredCall) (row : AIToolExecution ToolInput) : Prop where
  conversation_id : row.conversation_id = answered.session.conversation_id
  user_id : row.user_id = answered.session.user_id
  tool_name : row.tool_name = answered.name
  status : row.status = .success
  result_summary : row.result_summary = some (_summarise_result answered.content)

/-- A change carries the mark of the assistant's drafts. -/
def Marked (change : TM1Change) : Prop :=
  (change.new_content.map NewContent.ai_generated).getD false = true

/-- What a tool returned is a draft, one of the changes there are, which carries the mark
if the tool gives it. -/
def IsDraftOf (name : String) (content : ToolText) (changes : Store) : Prop :=
  ∃ change ∈ changes.rows, (Marked change ↔ Marks name) ∧ ∃ rest,
    content = .json (.object
      (("draft_change_id", .string (String.ofList (uuidText change.id))) :: rest))

/-- The database is as good as the history. -/
structure History.Kept (s : History) : Prop where
  recorded : ∀ answered ∈ s.log, ∃ row ∈ s.db.executions, Recorded answered row
  answered : ∀ row ∈ s.db.executions, row.status = .success →
    ∃ answered ∈ s.log, Recorded answered row
  drafts : ∀ answered ∈ s.log, answered.name ∈ DRAFT_TOOLS →
    IsDraftOf answered.name answered.content s.db.changes

theorem History.start_kept : History.start.Kept :=
  ⟨fun _ h => (nomatch h), fun _ h => (nomatch h), fun _ h => (nomatch h)⟩

section Calls

variable {Graph : Type} {around : Surroundings Graph} {others : List OtherTool}
  {session : Session} {allowed_tools : Option (List String)} {agent : Option String}
  {call : ToolCall ToolInput}

/-- A draft is still one in a later table. -/
theorem IsDraftOf.grown {name : String} {content : ToolText} {changes changes' : Store}
    (h : IsDraftOf name content changes) (hgrown : changes.Grown changes') :
    IsDraftOf name content changes' := by
  obtain ⟨change, hmem, hmark, rest, rfl⟩ := h
  obtain ⟨r, hr, hproposed⟩ := hgrown change hmem
  have hid : r.id = change.id := congrArg Proposed.id hproposed
  have hcontent : r.new_content = change.new_content := congrArg Proposed.new_content hproposed
  refine ⟨r, hr, ?_, rest, by rw [hid]⟩
  rw [Marked, hcontent]
  exact hmark

/-- What a draft tool returns. -/
theorem DraftTool.draft_isDraftOf {tool : DraftTool Graph} {input : ToolInput}
    {fields : List (String × Json)} {changes changes' : Store} (htool : tool ∈ draftTools)
    (h : tool.draft around session input changes = .ok (fields, changes')) :
    changes.Grown changes' ∧ IsDraftOf tool.name (.json (.object fields)) changes' := by
  obtain ⟨drafting, change, rest, hcreated, rfl⟩ := DraftTool.draft_ok h
  obtain ⟨hpropose, hdraft⟩ := DraftTool.create_ok hcreated
  obtain ⟨connection_id, _, -, -, hcreate⟩ := _create_draft_ok hdraft
  obtain ⟨hmem, hgrown, _, hproposes, -⟩ := change_service.create_change_proposes hcreate
  refine ⟨hgrown, change, hmem, ?_, rest, rfl⟩
  rw [Marked, hproposes.new_content]
  exact draftTools_mark htool hpropose

/-- What running a registered tool does to the database. -/
theorem registry_execute {tool : Tool AssistantDb ToolInput} {conversation_id : Option ℕ}
    {input : ToolInput} {db db' : AssistantDb} {answer : Except AppException ToolText}
    (htool : (registry around others).get_tool call.name = some tool)
    (h : tool.execute session conversation_id input db = (answer, db')) :
    db'.executions = db.executions ∧ db.changes.Grown db'.changes ∧
      ∀ text, answer = .ok text → call.name ∈ DRAFT_TOOLS → IsDraftOf call.name text db'.changes := by
  obtain ⟨hmem, hname⟩ := Tools.get_tool_some htool
  rw [registry, List.mem_append, List.mem_cons] at hmem
  -- a tool that drafts, the one that applies, or one that changes nothing
  rcases hmem with hdraft | rfl | hother
  · obtain ⟨draftTool, hmember, rfl⟩ := List.mem_map.mp hdraft
    rw [DraftTool.registered] at h hname
    dsimp only at h hname
    rcases hrun : draftTool.draft around session input db.changes with e | ⟨fields, changes⟩
    · rw [hrun, Prod.mk.injEq] at h
      obtain ⟨rfl, rfl⟩ := h
      exact ⟨rfl, Store.Grown.refl _, fun _ hok => (nomatch hok)⟩
    · rw [hrun, Prod.mk.injEq] at h
      obtain ⟨rfl, rfl⟩ := h
      obtain ⟨hgrown, hisDraft⟩ := DraftTool.draft_isDraftOf hmember hrun
      refine ⟨rfl, hgrown, fun text hok _ => ?_⟩
      rw [← Except.ok.inj hok, ← hname]
      exact hisDraft
  · have happly : call.name ∉ DRAFT_TOOLS := by
      rw [← hname]
      exact (by decide : "apply_change" ∉ DRAFT_TOOLS)
    rw [ApplyChangeTool] at h
    dsimp only at h
    split at h
    · rw [Prod.mk.injEq] at h
      obtain ⟨rfl, rfl⟩ := h
      exact ⟨rfl, Store.Grown.refl _, fun _ _ hdraft => absurd hdraft happly⟩
    · rw [Prod.mk.injEq] at h
      obtain ⟨rfl, rfl⟩ := h
      exact ⟨rfl, Store.Grown.refl _, fun _ _ hdraft => absurd hdraft happly⟩
    · rw [Prod.mk.injEq] at h
      obtain ⟨rfl, rfl⟩ := h
      exact ⟨rfl, Store.grown_amend _ _, fun _ _ hdraft => absurd hdraft happly⟩
  · obtain ⟨other, -, rfl⟩ := List.mem_map.mp hother
    have hkeeps : db' = db := by
      rw [← other.keeps session conversation_id input db, h]
    subst hkeeps
    refine ⟨rfl, Store.Grown.refl _, fun _ _ hdraft => ?_⟩
    rw [← hname] at hdraft
    exact absurd hdraft other.other.1

end Calls

/-! ## Runs -/

section Runs

variable {Graph : Type} {s s' : History}

/-- The changes may grow, and calls that did not succeed may be recorded. -/
theorem History.Kept.grown (h : s.Kept) {db : AssistantDb}
    (hexecutions : db.executions = s.db.executions) (hgrown : s.db.changes.Grown db.changes) :
    History.Kept ⟨db, s.log⟩ := by
  refine ⟨?_, ?_, fun answered hanswered hname => (h.drafts answered hanswered hname).grown hgrown⟩
  · rw [hexecutions]
    exact h.recorded
  · rw [hexecutions]
    exact h.answered

/-- A call that did not succeed adds a row, and nothing to the history. -/
theorem History.Kept.unsuccessful (h : s.Kept) {row : AIToolExecution ToolInput}
    (hstatus : row.status ≠ .success) :
    History.Kept ⟨{ s.db with executions := s.db.executions ++ [row] }, s.log⟩ := by
  refine ⟨?_, ?_, h.drafts⟩
  · intro answered hanswered
    obtain ⟨r, hr, hrecorded⟩ := h.recorded answered hanswered
    exact ⟨r, List.mem_append_left _ hr, hrecorded⟩
  · intro r hr hsuccess
    rcases List.mem_append.mp hr with hr | hr
    · exact h.answered r hr hsuccess
    · rw [List.mem_singleton.mp hr] at hsuccess
      exact absurd hsuccess hstatus

/-- A call that succeeded adds its row and its answer. -/
theorem History.Kept.succeeded (h : s.Kept) {answered : AnsweredCall}
    {row : AIToolExecution ToolInput} (hrecorded : Recorded answered row)
    (hdraft : answered.name ∈ DRAFT_TOOLS → IsDraftOf answered.name answered.content s.db.changes) :
    History.Kept ⟨{ s.db with executions := s.db.executions ++ [row] }, s.log ++ [answered]⟩ := by
  refine ⟨?_, ?_, ?_⟩
  · intro other hother
    rcases List.mem_append.mp hother with hother | hother
    · obtain ⟨r, hr, hrow⟩ := h.recorded other hother
      exact ⟨r, List.mem_append_left _ hr, hrow⟩
    · rw [List.mem_singleton.mp hother]
      exact ⟨row, List.mem_append_right _ List.mem_cons_self, hrecorded⟩
  · intro r hr hsuccess
    rcases List.mem_append.mp hr with hr | hr
    · obtain ⟨other, hother, hrow⟩ := h.answered r hr hsuccess
      exact ⟨other, List.mem_append_left _ hother, hrow⟩
    · rw [List.mem_singleton.mp hr]
      exact ⟨answered, List.mem_append_right _ List.mem_cons_self, hrecorded⟩
  · intro other hother hname
    rcases List.mem_append.mp hother with hother | hother
    · exact h.drafts other hother hname
    · rw [List.mem_singleton.mp hother] at hname ⊢
      exact hdraft hname

/-- A row that the database took. -/
theorem registry_create {around : Surroundings Graph} {others : List OtherTool}
    {row : AIToolExecution ToolInput} {db db' : AssistantDb}
    (h : (registry around others).create row db = .ok db') :
    db' = { db with executions := db.executions ++ [row] } := by
  simp only [registry] at h
  rcases hrefusal : around.refusal row with _ | e
  · rw [hrefusal] at h
    exact (Except.ok.inj h).symm
  · rw [hrefusal] at h
    cases h

/-- A call keeps the database as good as the history. -/
theorem History.called_kept {around : Surroundings Graph} {others : List OtherTool}
    {session : Session} {allowed_tools : Option (List String)} {agent : Option String}
    {call : ToolCall ToolInput} (h : s.Kept) :
    (s.called around others session allowed_tools agent call).Kept := by
  unfold History.called
  rcases hcall : _execute_tool_call (registry around others) session allowed_tools agent call
    ⟨s.db, []⟩ with ⟨e | result, w⟩
  · exact h
  dsimp only
  rcases _execute_tool_call_ok hcall with ⟨row, hstatus, hcreate, herror⟩ |
    ⟨tool, conversation_id, answer, db₁, htool, hexecute, hended⟩
  · rw [if_pos herror, registry_create hcreate]
    exact h.unsuccessful hstatus
  · obtain ⟨hexecutions, hgrown, hdraft⟩ := registry_execute htool hexecute
    have hkept : History.Kept ⟨db₁, s.log⟩ := h.grown hexecutions hgrown
    rcases hended with ⟨row, hstatus, hcreate, herror⟩ | ⟨text, db₂, hok, rfl, hcreate, hdb⟩
    · rw [if_pos herror, registry_create hcreate]
      exact hkept.unsuccessful hstatus
    · have hfold : w.db = db₂ := hdb
      rw [hfold, registry_create hcreate, if_neg Bool.false_ne_true]
      exact hkept.succeeded ⟨rfl, rfl, rfl, rfl, rfl⟩ fun hname => hdraft text hok hname

theorem History.step_kept {e : Event Graph} (h : s.Kept) (hstep : s.step e = some s') :
    s'.Kept := by
  have hafter : (s.after e).Kept := by
    rcases e with ⟨around, others, session, allowed_tools, agent, call⟩ | ⟨a, tm1, m, p⟩ | amendment
    · exact History.called_kept h
    · rw [History.after]
      rcases hcreate : change_service.create_change a tm1 m p s.db.changes with
        e | ⟨draft, changes⟩
      · exact h
      · exact h.grown rfl (change_service.create_change_proposes hcreate).2.1
    · exact h.grown rfl (Store.grown_amend _ _)
  unfold History.step at hstep
  split at hstep
  · rw [← Option.some.inj hstep]
    exact hafter
  · cases hstep

/-- An identifier has 128 bits. -/
theorem History.step_bounded {e : Event Graph} (hstep : s.step e = some s') :
    s'.db.changes.next ≤ 2 ^ 128 := by
  unfold History.step at hstep
  split at hstep
  · rename_i hbound
    rw [← Option.some.inj hstep]
    exact hbound
  · cases hstep

/-- Every history is kept by the database. -/
theorem History.run_kept {events : List (Event Graph)}
    (h : Run.run History.step History.start events = some s) :
    s.Kept ∧ s.db.changes.next ≤ 2 ^ 128 :=
  invariant_of_step (I := fun s : History => s.Kept ∧ s.db.changes.next ≤ 2 ^ 128)
    (fun _ _ _ hs hstep => ⟨History.step_kept hs.1 hstep, History.step_bounded hstep⟩)
    ⟨History.start_kept, Nat.zero_le _⟩ h

end Runs

/-! ## What `drafted_here` says -/

section Provenance

variable {s : History} {change : TM1Change} {conversation_id user_id : ℕ} {names : List String}

/-- What a draft tool returned names the draft. -/
theorem IsDraftOf.draft_change_id {name : String} {content : ToolText} {changes : Store}
    {change_id : ℕ} (h : IsDraftOf name content changes) (hbound : changes.next ≤ 2 ^ 128)
    (hid : change_id < 2 ^ 128) :
    content.draft_change_id = some (String.ofList (uuidText change_id)) ↔
      ai_tool_execution_repository.draftPrefix change_id <+: (_summarise_result content).toList := by
  obtain ⟨draft, hmem, -, rest, rfl⟩ := h
  have hdraft : draft.id < 2 ^ 128 := Nat.lt_of_lt_of_le (changes.fresh draft hmem) hbound
  rw [draftPrefix_iff hid hdraft]
  have hlookup : ToolText.draft_change_id (.json (.object
      (("draft_change_id", .string (String.ofList (uuidText draft.id))) :: rest)))
        = some (String.ofList (uuidText draft.id)) := rfl
  rw [hlookup, Option.some.injEq, String.ofList_inj]
  constructor
  · intro h
    exact uuidText_injective hid hdraft h.symm
  · rintro rfl
    rfl

/-- **The stored results say what was returned.** -/
theorem drafted_in_conversation_iff {change_id : ℕ} (h : s.Kept)
    (hbound : s.db.changes.next ≤ 2 ^ 128) (hid : change_id < 2 ^ 128) :
    ai_tool_execution_repository.drafted_in_conversation s.db.executions conversation_id user_id
        change_id DRAFT_TOOLS = true
      ↔ Returned s.log DRAFT_TOOLS conversation_id user_id change_id := by
  rw [ai_tool_execution_repository.drafted_in_conversation, List.any_eq_true]
  constructor
  · rintro ⟨row, hrow, hreturned⟩
    obtain ⟨hconversation, huser, hname, hsuccess, hprefix⟩ := of_decide_eq_true hreturned
    obtain ⟨answered, hanswered, hrecorded⟩ := h.answered row hrow hsuccess
    rw [hrecorded.tool_name] at hname
    rw [hrecorded.result_summary, Option.any_some, decide_eq_true_eq] at hprefix
    refine ⟨answered, hanswered, ?_, ?_, hname, ?_⟩
    · rw [← hrecorded.conversation_id, hconversation]
    · rw [← hrecorded.user_id, huser]
    · exact ((h.drafts answered hanswered hname).draft_change_id hbound hid).mpr hprefix
  · rintro ⟨answered, hanswered, hconversation, huser, hname, hreturned⟩
    obtain ⟨row, hrow, hrecorded⟩ := h.recorded answered hanswered
    refine ⟨row, hrow, decide_eq_true ⟨?_, ?_, ?_, hrecorded.status, ?_⟩⟩
    · rw [hrecorded.conversation_id, hconversation]
    · rw [hrecorded.user_id, huser]
    · rw [hrecorded.tool_name]
      exact hname
    · rw [hrecorded.result_summary, Option.any_some, decide_eq_true_eq]
      exact ((h.drafts answered hanswered hname).draft_change_id hbound hid).mp hreturned

/-- A draft that a tool returned carries the mark if the tool gives it. -/
theorem History.Kept.marked_iff (h : s.Kept) (hbound : s.db.changes.next ≤ 2 ^ 128)
    (hchange : change ∈ s.db.changes.rows) {answered : AnsweredCall} (hanswered : answered ∈ s.log)
    (hname : answered.name ∈ DRAFT_TOOLS)
    (hreturned : answered.content.draft_change_id = some (String.ofList (uuidText change.id))) :
    Marked change ↔ Marks answered.name := by
  obtain ⟨draft, hmem, hmark, rest, hcontent⟩ := h.drafts answered hanswered hname
  rw [hcontent] at hreturned
  have htext : String.ofList (uuidText draft.id) = String.ofList (uuidText change.id) :=
    Option.some.inj hreturned
  rw [String.ofList_inj] at htext
  have hid : draft.id = change.id := uuidText_injective
    (Nat.lt_of_lt_of_le (s.db.changes.fresh draft hmem) hbound)
    (Nat.lt_of_lt_of_le (s.db.changes.fresh change hchange) hbound) htext
  rw [← s.db.changes.ids.eq hmem hchange rfl rfl hid]
  exact hmark

/-- **When a draft is taken as drafted here.** In every history, of every change, user and
conversation: `drafted_here` says that a draft tool returned the change exactly when
neither the copy of a process nor the run of one did. -/
theorem drafted_here_iff {Graph : Type} {events : List (Event Graph)}
    (h : Run.run History.step History.start events = some s)
    (hchange : change ∈ s.db.changes.rows) :
    (drafted_here s.db change user_id (some conversation_id) = true ↔
        Returned s.log DRAFT_TOOLS conversation_id user_id change.id) ↔
      ¬ Returned s.log ["propose_process_copy", "propose_process_run"] conversation_id user_id
        change.id := by
  obtain ⟨hkept, hbound⟩ := History.run_kept h
  have hid : change.id < 2 ^ 128 :=
    Nat.lt_of_lt_of_le (s.db.changes.fresh change hchange) hbound
  have hhere : drafted_here s.db change user_id (some conversation_id) = true ↔
      Marked change ∧ Returned s.log DRAFT_TOOLS conversation_id user_id change.id := by
    rw [drafted_here, Bool.and_eq_true, drafted_in_conversation_iff hkept hbound hid]
    rfl
  rw [hhere]
  constructor
  · intro hright hunmarked
    obtain ⟨answered, hanswered, hconversation, huser, hname, hreturned⟩ := hunmarked
    simp only [List.mem_cons, List.not_mem_nil, or_false] at hname
    have hdraftTool : answered.name ∈ DRAFT_TOOLS := by
      rcases hname with hcopy | hrun
      · rw [hcopy]
        decide
      · rw [hrun]
        decide
    -- these two tools write drafts that `drafted_here` does not recognise
    have hmarks : ¬ Marks answered.name := fun hmarks => hname.elim hmarks.1 hmarks.2
    have hmarked := (hright.mpr
      ⟨answered, hanswered, hconversation, huser, hdraftTool, hreturned⟩).1
    exact hmarks ((hkept.marked_iff hbound hchange hanswered hdraftTool hreturned).mp hmarked)
  · intro hnone
    refine ⟨fun hboth => hboth.2, fun hreturned => ⟨?_, hreturned⟩⟩
    obtain ⟨answered, hanswered, hconversation, huser, hname, hanswer⟩ := hreturned
    rw [hkept.marked_iff hbound hchange hanswered hname hanswer]
    constructor
    · intro hcopy
      exact hnone ⟨answered, hanswered, hconversation, huser, by rw [hcopy]; decide, hanswer⟩
    · intro hrun
      exact hnone ⟨answered, hanswered, hconversation, huser, by rw [hrun]; decide, hanswer⟩

end Provenance

/-! ## A run that is drafted and not taken -/

def devConnection : TM1Connection where
  id := 1
  organization_id := 1
  created_by := 7
  name := "Finance Dev"
  address := "tm1-dev.example.com"
  port := 8010
  ssl := true
  username := "admin"
  password := "secret"
  authentication_type := .native
  tenant := none
  database := none
  gateway_id := none
  environment := "dev"
  visibility := .organization
  verify_ssl := true
  suspended_at := none

/-- The small server, reached by the person. -/
def quietAround : Surroundings Unit where
  analyzers := change_service.noFindings
  tm1 := currentTM1
  TM1_MODE := .readwrite
  auth := manager
  connections := [devConnection]
  user := some 7
  graph := ()
  answer _ := .ok
  copyClient := .ok
  copyBody := .ok
  applyAnswer _ := .ok
  servers _ := smallServer
  now := 10
  impact _ := .null
  error _ := .null
  described _ := ("", "")
  refusal _ := none

/-- The person asks for a run of `Load`. -/
def askForRun : Event Unit :=
  .call quietAround [] ⟨1, 7, 1⟩ none none
    ⟨"call-1", "propose_process_run", { connection_id := .ok 1, process_name := some "Load" }⟩

/-- The person asks for new rules of `Sales`. -/
def askForRules : Event Unit :=
  .call quietAround [] ⟨1, 7, 1⟩ none none
    ⟨"call-1", "propose_rule_update",
      { connection_id := .ok 1, cube_name := some "Sales", rules := some "['Net'] = 0;" }⟩

/-- `drafted_here_iff` of the rules. -/
theorem rules_taken :
    ∃ s change, Run.run History.step History.start [askForRules] = some s ∧
      change ∈ s.db.changes.rows ∧
      ((drafted_here s.db change 7 (some 1) = true ↔ Returned s.log DRAFT_TOOLS 1 7 change.id) ↔
        ¬ Returned s.log ["propose_process_copy", "propose_process_run"] 1 7 change.id) := by
  have hrun : Run.run History.step History.start [askForRules]
      = some (History.start.after askForRules) := rfl
  exact ⟨_, _, hrun, List.mem_cons_self, drafted_here_iff hrun List.mem_cons_self⟩

/-- **A run that was drafted in the conversation and is not taken.** -/
theorem run_not_taken :
    ∃ s change, Run.run History.step History.start [askForRun] = some s ∧
      change ∈ s.db.changes.rows ∧ Returned s.log DRAFT_TOOLS 1 7 change.id ∧
      drafted_here s.db change 7 (some 1) = false := by
  refine ⟨History.start.after askForRun, _, rfl, List.mem_cons_self, ?_, rfl⟩
  exact ⟨_, List.mem_cons_self, rfl, rfl, by decide, rfl⟩

end PaCopilot.ai
