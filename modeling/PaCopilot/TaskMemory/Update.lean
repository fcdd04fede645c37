/-
An update of task memory by the assistant: `apply_update`, and the tool `update_task_memory`.

A call that fails is answered to the model as an error, and the turn goes on in the same
transaction. So it leaves no trace exactly if it fails before it writes. All its refusals come
first but one: an unknown status is refused after the rest of the update is written.
-/
import PaCopilot.TaskMemory.Service

set_option autoImplicit false

namespace PaCopilot.task_memory

/-! ## `apply_update` -/

/-- What may be added to a task. -/
structure Update where
  finding : Option String := none
  decision : Option String := none
  blocker : Option String := none
  next_step : Option String := none
  status : Option String := none
  title : Option String := none
  objective : Option String := none
  deriving DecidableEq

section Update

variable (db : Tables) (task : AITask) (user_id : ℕ) (actor : Actor) (u : Update) (now : ℕ)

/-- One more note. -/
def addNote (keep : ℕ) (notes : List Note) (text : Option String) : List Note :=
  (given text).elim notes fun text => add keep notes ⟨_cut text, now, actor⟩

/-- The row of a task after an update, but for a new status. -/
def updatedRow : AITask :=
  { task with
    state := { task.state with
      findings := addNote actor now 25 task.state.findings u.finding
      decisions := addNote actor now 15 task.state.decisions u.decision
      blockers := addNote actor now 10 task.state.blockers u.blocker
      next_step := ((given u.next_step).map fun text => _cut text).or task.state.next_step }
    title := (given u.title).elim task.title fun text => _cut text 200
    objective := ((given u.objective).map fun text => _cut text 2000).or task.objective
    version := task.version + 1 }

def updateEvents : List EventData :=
  (given u.finding).toList.map (fun text => .finding ⟨_cut text, now, actor⟩)
    ++ (given u.decision).toList.map (fun text => .decision ⟨_cut text, now, actor⟩)
    ++ (given u.blocker).toList.map (fun text => .blocker ⟨_cut text, now, actor⟩)
    ++ (given u.next_step).toList.map (fun text => .next_step ⟨_cut text, now, actor⟩)
    ++ (given u.title).toList.map (fun text => .title task.title (_cut text 200))
    ++ (given u.objective).toList.map (fun text => .objective task.objective (_cut text 2000))

def notSettable : AppException :=
  ValidationException
    ("status must be one of: " ++ ", ".intercalate (SETTABLE.map TaskStatus.text) ++ ".")

def apply_update : Except AppException AITask × Tables :=
  let next := updatedRow task actor u now
  let db := (db.put next).logged task actor user_id (updateEvents task actor u now)
  match given u.status with
  | none => (.ok next, db)
  | some status =>
    match settable status with
    | none => (.error notSettable, db)
    | some status =>
      let (task, db) := _set_status db next status actor user_id
      (.ok task, db)

end Update

/-! ## `update_task_memory` -/

structure UpdateArgs extends Update where
  start_new_task : Bool := false
  resume_task_id : Option String := none
  deriving DecidableEq

/-- The JSON that the tool returns. -/
structure Reply where
  updated : Bool
  error : Option String := none
  task : Option (ℕ × String × TaskStatus) := none
  deriving DecidableEq

/-- Who calls, and in which conversation. -/
structure Caller where
  organization_id : ℕ
  user_id : ℕ
  conversation_id : Option ℕ
  deriving DecidableEq

section Tool

variable (env : Env) (db : Tables) (caller : Caller) (args : UpdateArgs) (id now : ℕ)

def _conversation : Option AIConversation := do
  let conversation_id ← caller.conversation_id
  let conversation ← db.conversations.find? fun c => c.id = conversation_id
  if conversation.organization_id ≠ caller.organization_id
    ∨ conversation.user_id ≠ caller.user_id then none else some conversation

/-- The last part of the tool: the update, and the answer. -/
def applied (task : AITask) (u : Update) : Except AppException Reply × Tables :=
  match apply_update db task caller.user_id .assistant u now with
  | (.ok task, db) => (.ok { updated := true, task := some (task.id, task.title, task.status) }, db)
  | (.error e, db) => (.error e, db)

/-- The task that continues an earlier one. -/
def resumed (conversation : AIConversation) (earlier : AITask) : AITask × Tables :=
  let (task, db) := create db conversation caller.user_id earlier.title earlier.objective
    earlier.agent earlier.connection_id .assistant id now
  let task := { task with
    state := { earlier.state with resumed_from := some earlier.id }
    work_item_id := earlier.work_item_id }
  (task, db.put task)

/-- The title of a new task. -/
def newTitle : String := String.ofList (Python.strip (args.title.getD "").toList)

/-- The arguments of a call say a new task, or there is none to update. -/
def startsTask (conversation : AIConversation) : Bool :=
  args.start_new_task || (current db conversation.id).isNone

/-- The first part of the tool: the task to update, with what, and the tables by then; or else
what is answered at once. -/
def prepared : Except (Except AppException Reply) (AITask × Update × Tables) :=
  if env.user_has_permission caller.user_id = false then
    .error (.error (PermissionDeniedException "Missing permission: ai.chat"))
  else match _conversation db caller with
  | none => .error (.ok { updated := false, error := some "No conversation to record a task in." })
  | some conversation =>
    match given args.resume_task_id with
    | some text =>
      match env.UUID text with
      | none => .error (.error (PythonError "ValueError"))
      | some task_id =>
        match get env db task_id caller.organization_id caller.user_id with
        | .error e => .error (.error e)
        | .ok earlier =>
          let (task, db) := resumed db caller id now conversation earlier
          .ok (task, args.toUpdate, db)
    | none =>
      match current db conversation.id, args.start_new_task with
      | some task, false => .ok (task, args.toUpdate, db)
      -- no task, or one that the model asks to leave behind
      | task, _ =>
        if newTitle args = "" then
          .error (.ok { updated := false, error := some "A new task needs a title." })
        else
          let (task, db) := create db conversation caller.user_id (newTitle args) args.objective none
            (task.bind AITask.connection_id) .assistant id now
          -- the new task has both from the start, so the update leaves them out
          .ok (task, { args.toUpdate with title := none, objective := none }, db)

def execute : Except AppException Reply × Tables :=
  match prepared env db caller args id now with
  | .error answer => (answer, db)
  | .ok (task, u, db) => applied db caller now task u

/-! ## A failed call -/

/-- A call that failed: it raised, or says that it has not updated. -/
def Fails : Except AppException Reply → Prop
  | .error _ => True
  | .ok reply => reply.updated = false

instance : ∀ answer : Except AppException Reply, Decidable (Fails answer)
  | .error _ => .isTrue trivial
  | .ok reply => inferInstanceAs (Decidable (reply.updated = false))

/-- If the call fails, the tasks and their events are as they were. -/
def FailureKeeps : Prop :=
  Fails (execute env db caller args id now).1 →
    (execute env db caller args id now).2.tasks = db.tasks ∧
      (execute env db caller args id now).2.events = db.events

instance : Decidable (FailureKeeps env db caller args id now) :=
  inferInstanceAs (Decidable (_ → _))

/-- The status of a call is one that may not be set. -/
def Unsettable (u : Update) : Prop := ∃ status, given u.status = some status ∧ settable status = none

/-- A call that no check refuses before the update: the person may chat and has the conversation,
an earlier task that is named can be continued, and a new task has a title. -/
structure Admitted : Prop where
  permission : env.user_has_permission caller.user_id = true
  conversation : ∃ conversation, _conversation db caller = some conversation ∧
    (given args.resume_task_id = none → startsTask db args conversation = true →
      newTitle args ≠ "")
  earlier : ∀ text, given args.resume_task_id = some text → ∃ task_id, env.UUID text = some task_id ∧
    ∃ task, get env db task_id caller.organization_id caller.user_id = .ok task

end Tool

section Failure

variable {env : Env} {db : Tables} {caller : Caller} {args : UpdateArgs} {id now user_id : ℕ}
  {task : AITask} {actor : Actor} {u : Update}

theorem tasks_put_length (t : AITask) : (db.put t).tasks.length = db.tasks.length :=
  List.length_map ..

/-- A row that is written differs from what was there. -/
theorem tasks_put_ne {old : AITask} (new : AITask) (hold : old ∈ db.tasks) (hid : old.id = new.id)
    (hne : old ≠ new) : (db.put new).tasks ≠ db.tasks := by
  intro heq
  have hmap : db.tasks.map (fun r => if r.id = new.id then new else r) = db.tasks.map id := by
    rw [List.map_id]
    exact heq
  have hsame := List.map_inj_left.mp hmap old hold
  rw [if_pos hid] at hsame
  exact hne hsame.symm

/-- The update raises for an unknown status only, and then has written all the rest. -/
theorem apply_update_of_unsettable (h : Unsettable u) :
    apply_update db task user_id actor u now = (.error notSettable,
      (db.put (updatedRow task actor u now)).logged task actor user_id
        (updateEvents task actor u now)) := by
  obtain ⟨status, hgiven, hunknown⟩ := h
  simp only [apply_update, hgiven, hunknown]

theorem apply_update_ok (db : Tables) (task : AITask) (user_id : ℕ) (actor : Actor) (now : ℕ)
    (h : ¬ Unsettable u) :
    ∃ next after, apply_update db task user_id actor u now = (.ok next, after) := by
  cases hgiven : given u.status with
  | none =>
    simp only [apply_update, hgiven]
    exact ⟨_, _, rfl⟩
  | some status =>
    cases hsettable : settable status with
    | none => exact absurd ⟨status, hgiven, hsettable⟩ h
    | some found =>
      simp only [apply_update, hgiven, hsettable]
      exact ⟨_, _, rfl⟩

theorem applied_ok (h : ¬ Unsettable u) : ¬ Fails (applied db caller now task u).1 := by
  obtain ⟨next, after, heq⟩ := apply_update_ok db task caller.user_id .assistant now h
  rw [applied, heq]
  simp [Fails]

theorem applied_of_unsettable (db : Tables) (caller : Caller) (now : ℕ) (task : AITask)
    (h : Unsettable u) :
    Fails (applied db caller now task u).1 ∧
      (applied db caller now task u).2.tasks
        = (db.put (updatedRow task .assistant u now)).tasks := by
  rw [applied, apply_update_of_unsettable h]
  exact ⟨trivial, rfl⟩

/-- A new task makes the table longer. -/
theorem create_length (conversation : AIConversation) (user_id : ℕ) (title : String)
    (objective agent : Option String) (connection_id : Option ℕ) (actor : Actor) (id now : ℕ) :
    (create db conversation user_id title objective agent connection_id actor id now).2.tasks.length
      = db.tasks.length + 1 := by
  simp [create]

theorem resumed_length (db : Tables) (caller : Caller) (id now : ℕ)
    (conversation : AIConversation) (earlier : AITask) :
    (resumed db caller id now conversation earlier).2.tasks.length = db.tasks.length + 1 := by
  unfold resumed
  exact (tasks_put_length _).trans (create_length ..)

/-- The task to update is the current one of a conversation, or a new one. -/
theorem prepared_ok {db' : Tables} (h : prepared env db caller args id now = .ok (task, u, db')) :
    u.status = args.status ∧
      ((∃ conversation_id, current db conversation_id = some task) ∧ db' = db ∨
        db'.tasks.length = db.tasks.length + 1) := by
  unfold prepared at h
  split at h
  · cases h
  · split at h
    · cases h
    · split at h
      · split at h
        · cases h
        · split at h
          · cases h
          · cases h
            exact ⟨rfl, .inr (resumed_length ..)⟩
      · split at h
        · rename_i hcurrent _
          cases h
          exact ⟨rfl, .inl ⟨⟨_, hcurrent⟩, rfl⟩⟩
        · split at h
          · cases h
          · cases h
            exact ⟨rfl, .inr (create_length ..)⟩

/-- The calls that come to the update. -/
theorem prepared_iff_admitted (id now : ℕ) :
    (∃ x, prepared env db caller args id now = .ok x) ↔ Admitted env db caller args := by
  unfold prepared
  constructor
  -- each refusal on the way is one of the conditions that fails
  · rintro ⟨x, h⟩
    split at h
    · cases h
    · rename_i hpermission
      rw [Bool.not_eq_false] at hpermission
      split at h
      · cases h
      · rename_i conversation hconversation
        split at h
        · rename_i text hresume
          split at h
          · cases h
          · rename_i task_id huuid
            split at h
            · cases h
            · rename_i earlier hget
              refine ⟨hpermission, ⟨conversation, hconversation, fun hnone => ?_⟩, fun text' h' => ?_⟩
              · rw [hresume] at hnone
                cases hnone
              · rw [hresume] at h'
                cases h'
                exact ⟨task_id, huuid, earlier, hget⟩
        · rename_i hresume
          refine ⟨hpermission, ⟨conversation, hconversation, fun _ hstart htitle => ?_⟩,
            fun text h' => ?_⟩
          · split at h
            · rename_i hcurrent hnew
              rw [startsTask, hcurrent, hnew] at hstart
              cases hstart
            · rw [if_pos htitle] at h
              cases h
          · rw [hresume] at h'
            cases h'
  · rintro ⟨hpermission, ⟨conversation, hconversation, htitle⟩, hearlier⟩
    -- and with the conditions no refusal is left
    rw [if_neg (by simp [hpermission]), hconversation]
    dsimp only
    split
    · rename_i text hresume
      obtain ⟨task_id, huuid, earlier, hget⟩ := hearlier text hresume
      rw [huuid]
      dsimp only
      rw [hget]
      exact ⟨_, rfl⟩
    · rename_i hresume
      split
      · exact ⟨_, rfl⟩
      · rename_i hnot
        -- only a call that goes on with the current task needs no title
        have hstart : startsTask db args conversation = true := by
          rw [startsTask]
          cases hcurrent : current db conversation.id with
          | none => simp
          | some task =>
            cases hnew : args.start_new_task with
            | true => rfl
            | false => exact absurd hnew (hnot task hcurrent)
        rw [if_neg (htitle hresume hstart)]
        exact ⟨_, rfl⟩

/-- **A failed call keeps the tasks and their events** exactly if it is not one that passes
every check before the update and has a status that may not be set. -/
theorem failure_keeps_iff (env : Env) (db : Tables) (caller : Caller) (args : UpdateArgs)
    (id now : ℕ) :
    FailureKeeps env db caller args id now ↔
      ¬ (Admitted env db caller args ∧ Unsettable args.toUpdate) := by
  rw [FailureKeeps, execute]
  cases hprepared : prepared env db caller args id now with
  | error answer =>
    have hnot : ¬ Admitted env db caller args := by
      rw [← prepared_iff_admitted id now, hprepared]
      rintro ⟨x, hx⟩
      cases hx
    exact ⟨fun _ h => hnot h.1, fun _ _ => ⟨rfl, rfl⟩⟩
  | ok x =>
    obtain ⟨task, u, db'⟩ := x
    have hadmitted : Admitted env db caller args :=
      (prepared_iff_admitted id now).mp ⟨_, hprepared⟩
    obtain ⟨hstatus, hwhere⟩ := prepared_ok hprepared
    have hsame : Unsettable u ↔ Unsettable args.toUpdate := by
      rw [Unsettable, Unsettable, hstatus]
    dsimp only
    constructor
    · rintro hkeeps ⟨-, hunsettable⟩
      obtain ⟨hfails, htasks⟩ := applied_of_unsettable db' caller now task
        (hsame.mpr hunsettable)
      have hkept := (hkeeps hfails).1
      rw [htasks] at hkept
      rcases hwhere with ⟨⟨_, hcurrent⟩, rfl⟩ | hlonger
      · -- the row of the task has a new version
        refine tasks_put_ne (updatedRow task .assistant u now) (current_mem hcurrent).1 rfl
          (fun heq => ?_) hkept
        have hversion := congrArg AITask.version heq
        simp [updatedRow] at hversion
      · have hlength := congrArg List.length hkept
        rw [tasks_put_length, hlonger] at hlength
        omega
    · intro hnot hfails
      have hsettable : ¬ Unsettable u := fun h => hnot ⟨hadmitted, hsame.mp h⟩
      exact absurd hfails (applied_ok hsettable)

/-! ### A status that follows from drafted changes only -/

/-- A library and its tables as far as plain texts need them. -/
def plainEnv : Env where
  isalnum := Char.isAlphanum
  lower := Python.lowerAscii
  UUID _ := none
  may_access _ _ := true
  user_has_permission _ := true

def marginTask : AITask where
  id := 10
  organization_id := 1
  user_id := 2
  conversation_id := 3
  title := "Sales margin totals"
  created_at := 0

/-- A conversation with one task. -/
def oneTask : Tables where
  tasks := [marginTask]
  conversations := [⟨3, 1, 2⟩]

def blockedForApproval : UpdateArgs where
  finding := some "Gross Margin is not fed"
  status := some "waiting_for_approval"

/-- The call is refused, and its finding stays. -/
theorem refused_finding_stays : ¬ FailureKeeps plainEnv oneTask ⟨1, 2, some 3⟩ blockedForApproval
    11 5 := by
  decide +kernel

end Failure

end PaCopilot.task_memory
