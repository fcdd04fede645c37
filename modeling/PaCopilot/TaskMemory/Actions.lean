/-
What the tasks say of drafted changes.

The edits of `refresh_actions` are made in dictionaries that the replaced value has too, so no
flush ever sees them ([`refresh_stored`]): the stored status of an action stays the one it was
recorded with, and each end of a turn finds and logs the same difference again.
-/
import Mathlib.Data.List.Nodup
import PaCopilot.Lib.Run
import PaCopilot.TaskMemory.Refresh

set_option autoImplicit false

namespace PaCopilot.task_memory

/-! ## The log of statuses -/

/-- The `action_status` events among some data. -/
def statusData (data : List EventData) : List (ℕ × String × String) :=
  data.filterMap fun d =>
    match d with
    | .action_status change_id before after => some (change_id, before, after)
    | _ => none

/-- The `action_status` events of a task. -/
def actionStatuses (db : Tables) (task_id : ℕ) : List (ℕ × String × String) :=
  statusData ((db.events.filter fun e => e.task_id = task_id).map AITaskEvent.data)

/-- The actions of one state whose status is another one in the next. -/
def statusChanges (old new : List TaskAction) : List (ℕ × String × String) :=
  old.filterMap fun a =>
    (new.find? fun b => b.change_id = a.change_id).bind fun b =>
      if b.status = a.status then none else some (a.change_id, a.status, b.status)

section Log

variable {db : Tables} {task : AITask} {task_id user_id : ℕ} {actor : Actor}
  {data : List EventData}

theorem actionStatuses_logged (h : task.id = task_id) :
    actionStatuses (db.logged task actor user_id data) task_id
      = actionStatuses db task_id ++ statusData data := by
  subst h
  have hall : ((data.map fun d =>
      (⟨task.organization_id, task.id, d, actor, user_id⟩ : AITaskEvent)).filter
      fun e => e.task_id = task.id).map AITaskEvent.data = data := by
    rw [List.filter_eq_self.mpr fun e he => ?_, List.map_map]
    · exact List.map_id _
    · obtain ⟨d, -, rfl⟩ := List.mem_map.mp he
      exact decide_eq_true rfl
  rw [actionStatuses, actionStatuses, Tables.logged]
  dsimp only
  rw [List.filter_append, List.map_append, hall, statusData, statusData, statusData,
    List.filterMap_append]

theorem statusData_append (data more : List EventData) :
    statusData (data ++ more) = statusData data ++ statusData more := List.filterMap_append

/-- Events of another kind. -/
theorem statusData_map {α : Type} {f : α → EventData} (h : ∀ x, statusData [f x] = [])
    (xs : List α) : statusData (xs.map f) = [] := by
  induction xs with
  | nil => rfl
  | cons x xs ih =>
    rw [List.map_cons, ← List.singleton_append, statusData_append, h x, ih]
    rfl

theorem statusData_recorded (env : Env) (call : Call) (now : ℕ) :
    statusData (recordedEvents env db task call now) = [] := by
  have hobjects : ∀ added : List TaskObject,
      statusData (if added = [] then [] else [.objects added call.name]) = [] := by
    intro added
    split <;> rfl
  rw [recordedEvents, statusData_append, statusData_append, hobjects,
    statusData_map fun _ => rfl, statusData_map fun _ => rfl]
  rfl

theorem statusData_updated (u : Update) (now : ℕ) :
    statusData (updateEvents task actor u now) = [] := by
  simp only [updateEvents, statusData_append]
  rw [statusData_map fun _ => rfl, statusData_map fun _ => rfl, statusData_map fun _ => rfl,
    statusData_map fun _ => rfl, statusData_map fun _ => rfl, statusData_map fun _ => rfl]
  rfl

/-- Where no action has another one under its change, no status changes. -/
theorem statusChanges_eq_nil {old new : List TaskAction}
    (h : ∀ a ∈ old, ∀ b ∈ new, b.change_id = a.change_id → b = a) : statusChanges old new = [] := by
  refine List.filterMap_eq_nil_iff.mpr fun a ha => ?_
  cases hfind : new.find? fun b => b.change_id = a.change_id with
  | none => rfl
  | some b =>
    have hid := List.find?_some hfind
    have hsame := h a ha b (List.mem_of_find?_eq_some hfind) (of_decide_eq_true hid)
    rw [hsame]
    exact if_pos rfl

theorem statusChanges_self {actions : List TaskAction}
    (h : (actions.map TaskAction.change_id).Nodup) : statusChanges actions actions = [] :=
  statusChanges_eq_nil fun _ ha _ hb hid => List.inj_on_of_nodup_map h hb ha hid

end Log

/-! ## What is stored -/

section Stored

variable {db : Tables} {old t : AITask}

theorem task_id_of_row {task : AITask} {task_id : ℕ} (h : db.task task_id = some task) :
    task.id = task_id := by
  have hid := List.find?_some h
  exact of_decide_eq_true hid

/-- A row that was written is read. -/
theorem task_put (h : db.task t.id = some old) : (db.put t).task t.id = some t := by
  rw [Tables.task, Tables.put]
  dsimp only
  rw [List.find?_map]
  have hsame : ((fun r : AITask => decide (r.id = t.id)) ∘ fun r => if r.id = t.id then t else r)
      = fun r => decide (r.id = t.id) := by
    funext r
    by_cases hid : r.id = t.id <;> simp [hid]
  have hid := task_id_of_row h
  rw [hsame, show db.tasks.find? (fun r => decide (r.id = t.id)) = some old from h, Option.map_some,
    if_pos hid]

theorem task_put_of {task_id : ℕ} (h : db.task task_id = some old) (hid : t.id = old.id) :
    (db.put t).task task_id = some t := by
  have hold := hid.trans (task_id_of_row h)
  rw [← hold] at h ⊢
  exact task_put h

/-- A new status of the task is no status of an action, and leaves the state alone. -/
theorem set_status_spec {task : AITask} {task_id : ℕ} (h : db.task task_id = some task)
    (status : TaskStatus) (actor : Actor) (user_id : ℕ) (reason : Option String) :
    let r := _set_status db task status actor user_id reason
    r.2.task task_id = some r.1 ∧ r.1.id = task.id ∧ r.1.state = task.state ∧
      actionStatuses r.2 task_id = actionStatuses db task_id ∧ r.2.changes = db.changes := by
  intro r
  by_cases hsame : status = task.status
  · have heq : r = (task, db) := if_pos hsame
    rw [heq]
    exact ⟨h, rfl, rfl, rfl, rfl⟩
  · let next := { task with status := status, version := task.version + 1 }
    have heq : r = (next, (db.put next).logged task actor user_id
        [.status task.status status reason]) := if_neg hsame
    rw [heq]
    refine ⟨task_put_of (t := next) h rfl, rfl, rfl, ?_, rfl⟩
    exact (actionStatuses_logged (task_id_of_row h)).trans (List.append_nil _)

end Stored

/-- The row of a session is the one that is written. -/
structure Held.Sound (h : Held) (task_id : ℕ) : Prop where
  id : h.row.id = task_id
  row : h.db.task task_id = some h.row

namespace Held

variable {h : Held} {task_id user_id : ℕ} {db : Tables} {task : AITask} {actor : Actor}
  {data : List EventData} {status : TaskStatus} {reason : Option String} {s : TaskState ℕ}

theorem Sound.put {row : AITask} (hs : h.Sound task_id) (hid : row.id = h.row.id) :
    (h.db.put row).task task_id = some row := task_put_of hs.row hid

theorem sound_locked (hrow : db.task task_id = some task) : (locked db task).Sound task_id :=
  ⟨task_id_of_row hrow, hrow⟩

theorem flush_state (h : Held) : h.flush.row.state = h.object.flushed h.row.state := rfl

theorem Sound.flush (hs : h.Sound task_id) : h.flush.Sound task_id := ⟨hs.id, hs.put rfl⟩

theorem Sound.touch (hs : h.Sound task_id) (s : TaskState ℕ) : (h._touch s).Sound task_id :=
  ⟨hs.id, hs.put rfl⟩

theorem Sound.logged (hs : h.Sound task_id) (actor : Actor) (user_id : ℕ) (data : List EventData) :
    (h.logged actor user_id data).Sound task_id := ⟨hs.id, hs.row⟩

theorem Sound.set_status (hs : h.Sound task_id) (status : TaskStatus) (actor : Actor)
    (user_id : ℕ) (reason : Option String) :
    let h' := h._set_status status actor user_id reason
    h'.Sound task_id ∧ h'.object = h.object ∧ h'.row.state = h.row.state ∧
      actionStatuses h'.db task_id = actionStatuses h.db task_id ∧ h'.db.changes = h.db.changes := by
  intro h'
  obtain ⟨hrow, hid, hstate, hlog, hchanges⟩ := set_status_spec hs.row status actor user_id reason
  exact ⟨⟨hid.trans hs.id, hrow⟩, rfl, hstate, hlog, hchanges⟩

end Held

/-! ## What a refresh writes -/

/-- No change of an action of the task has another status than the action. -/
def Unmoved (db : Tables) (actions : List TaskAction) : Prop :=
  ∀ a ∈ actions, ∀ c, db.change a.change_id = some c → c.status.text = a.status

instance (db : Tables) (actions : List TaskAction) : Decidable (Unmoved db actions) :=
  inferInstanceAs (Decidable (∀ a ∈ actions, ∀ c ∈ db.change a.change_id, _))

theorem unmoved_congr {db db' : Tables} {actions : List TaskAction} (h : db'.changes = db.changes) :
    Unmoved db' actions ↔ Unmoved db actions := by
  unfold Unmoved Tables.change
  rw [h]

section Refresh

variable {db : Tables} {o : Loaded} {refs : List ℕ} {h : Held} {task_id user_id : ℕ}

/-- The loop edits dictionaries only, and it edits one exactly if it finds a change. -/
theorem refreshLoop_spec (db : Tables) (refs : List ℕ) (o : Loaded) :
    (refreshLoop db refs o).1.state = o.state ∧ (refreshLoop db refs o).1.replaced = o.replaced ∧
      ((refreshLoop db refs o).2 = [] ↔
        Unmoved db (refs.filterMap fun ref => o.dicts[ref]?)) := by
  induction refs generalizing o with
  | nil => exact ⟨rfl, rfl, fun _ a ha => absurd ha List.not_mem_nil, fun _ => rfl⟩
  | cons ref refs ih =>
    rw [refreshLoop]
    cases hdict : o.dicts[ref]? with
    | none =>
      dsimp only
      rw [List.filterMap_cons_none hdict]
      exact ih o
    | some action =>
      rw [List.filterMap_cons_some hdict]
      dsimp only
      -- an action whose change has its status leaves the question to the others
      have hskip : (∀ c, db.change action.change_id = some c → c.status.text = action.status) →
          (Unmoved db (refs.filterMap fun ref => o.dicts[ref]?) ↔
            Unmoved db (action :: refs.filterMap fun ref => o.dicts[ref]?)) := by
        intro hsame
        rw [Unmoved, Unmoved, List.forall_mem_cons]
        exact ⟨fun hrest => ⟨hsame, hrest⟩, fun hall => hall.2⟩
      cases hchange : db.change action.change_id with
      | none =>
        rw [← hskip fun c hc => by rw [hchange] at hc; cases hc]
        exact ih o
      | some change =>
        dsimp only
        by_cases hsame : change.status.text = action.status
        · rw [if_pos hsame, ← hskip fun c hc => by rw [hchange] at hc; cases hc; exact hsame]
          exact ih o
        · rw [if_neg hsame]
          obtain ⟨hstate, hreplaced, -⟩ := ih (o.setStatus ref change.status.text)
          refine ⟨hstate, hreplaced, (fun hnil => by cases hnil), fun hall => ?_⟩
          exact absurd (hall action List.mem_cons_self change hchange) hsame

theorem statusData_action_status (changed : List (ℕ × String × String)) :
    statusData (changed.map fun (change_id, before, after) =>
      .action_status change_id before after) = changed := by
  rw [statusData, List.filterMap_map]
  exact List.filterMap_some ..

/-- What is assigned after the loop equals what it replaces: nothing is left to write. -/
theorem noteChanges_spec (hs : h.Sound task_id) (hflushed : h.object.replaced = none)
    (changed : List (ℕ × String × String)) (user_id : ℕ) :
    let h' := noteChanges h h.object.state.actions changed user_id
    h'.Sound task_id ∧ h'.flush.row.state = h.row.state ∧
      actionStatuses h'.db task_id = actionStatuses h.db task_id ++ changed ∧
      h'.db.changes = h.db.changes := by
  intro h'
  let touched := (h._touch { h.object.state with actions := h.object.state.actions }).logged .system
    user_id (changed.map fun (change_id, before, after) => .action_status change_id before after)
  have hsound : touched.Sound task_id := (hs.touch _).logged ..
  have hobject : touched.object = { h.object with replaced := some h.object.state } := by
    show h.object.assign _ = _
    rw [Loaded.assign, hflushed]
    rfl
  have hstored : touched.object.flushed touched.row.state = h.row.state := by
    rw [hobject, Loaded.flushed]
    exact if_pos rfl
  have hlog : actionStatuses touched.db task_id = actionStatuses h.db task_id ++ changed := by
    refine (actionStatuses_logged hs.id).trans ?_
    rw [statusData_action_status]
    rfl
  by_cases hdecided : touched.row.status = .waiting_for_approval ∧ touched.pending = false
  · have heq : h' = touched._set_status .active .system user_id
        (some "drafted changes were decided") := if_pos hdecided
    obtain ⟨hsound', hkept, hstate, hlogged, hchanges⟩ := hsound.set_status .active .system user_id
      (some "drafted changes were decided")
    rw [heq]
    refine ⟨hsound', ?_, hlogged.trans hlog, hchanges⟩
    rw [Held.flush_state, hkept, hstate, hstored]
  · have heq : h' = touched := if_neg hdecided
    rw [heq]
    exact ⟨hsound, hstored, hlog, rfl⟩

/-- **No refresh changes what is stored.** The value that it assigns shares the dictionaries
that it has edited with the value it replaces. -/
theorem refresh_spec (hs : h.Sound task_id) (user_id : ℕ) :
    (refresh_actions h user_id).Sound task_id ∧
      (refresh_actions h user_id).flush.row.state = h.flush.row.state ∧
      (refresh_actions h user_id).db.changes = h.db.changes ∧
      ∃ changed, actionStatuses (refresh_actions h user_id).db task_id
          = actionStatuses h.db task_id ++ changed ∧
        (changed = [] ↔ Unmoved h.db (h.object.value h.object.state).actions) := by
  by_cases hnone : h.object.state.actions = []
  · have heq : refresh_actions h user_id = h := if_pos hnone
    rw [heq]
    refine ⟨hs, rfl, rfl, [], (List.append_nil _).symm, fun _ a ha => ?_, fun _ => rfl⟩
    rw [Loaded.value, TaskState.withActions, hnone] at ha
    exact absurd ha List.not_mem_nil
  -- the query flushes first, then the loop edits the dictionaries in place
  · let looped := refreshLoop h.flush.db h.flush.object.state.actions h.flush.object
    obtain ⟨hstate, hreplaced, hchanged⟩ :=
      refreshLoop_spec h.flush.db h.flush.object.state.actions h.flush.object
    have hedited : Held.Sound { h.flush with object := looped.1 } task_id :=
      ⟨hs.flush.id, hs.flush.row⟩
    -- with no change nothing is assigned, and what was edited stays in memory
    by_cases hempty : looped.2 = []
    · have heq : refresh_actions h user_id = { h.flush with object := looped.1 } :=
        (if_neg hnone).trans (if_pos hempty)
      rw [heq]
      refine ⟨hedited, ?_, rfl, [], (List.append_nil _).symm, fun _ => hchanged.mp hempty,
        fun _ => rfl⟩
      show looped.1.flushed h.flush.row.state = _
      rw [Loaded.flushed, hreplaced]
      rfl
    · have heq : refresh_actions h user_id
          = noteChanges { h.flush with object := looped.1 } looped.1.state.actions looped.2
            user_id := by
        refine ((if_neg hnone).trans (if_neg hempty)).trans ?_
        rw [hstate]
      obtain ⟨hsound, hstored, hlog, hchanges⟩ := noteChanges_spec hedited hreplaced looped.2 user_id
      rw [heq]
      exact ⟨hsound, hstored, hchanges, looped.2, hlog, hchanged⟩

end Refresh

/-! ## The steps of a run -/

section Steps

variable {env : Env} {db db' : Tables} {task : AITask} {task_id user_id now : ℕ}

/-- Where nothing is pending, the state that is loaded is the one that is stored. -/
theorem value_load (s : TaskState TaskAction) : (Loaded.load s).value (Loaded.load s).state = s := by
  have hmap : (List.range s.actions.length).map (fun ref => s.actions[ref]?)
      = s.actions.map some := by
    apply List.ext_getElem
    · rw [List.length_map, List.length_map, List.length_range]
    · intro i hi _
      rw [List.length_map, List.length_range] at hi
      simp [hi]
  have hall : (List.range s.actions.length).filterMap (fun ref => s.actions[ref]?)
      = s.actions := by
    have hid := congrArg (List.filterMap id) hmap
    rw [List.filterMap_map, List.filterMap_map] at hid
    exact hid.trans (List.filterMap_some ..)
  show s.withActions ((List.range s.actions.length).filterMap fun ref => s.actions[ref]?) = s
  rw [hall]
  rfl

/-- What a step leaves of a task: its actions, and what it logs of their statuses. -/
structure Leaves (db db' : Tables) (task_id : ℕ) (actions : List TaskAction)
    (logged : List (ℕ × String × String)) : Prop where
  row : ∃ task, db'.task task_id = some task ∧ task.state.actions = actions
  log : actionStatuses db' task_id = actionStatuses db task_id ++ logged
  changes : db'.changes = db.changes

theorem refreshed_leaves (hrow : db.task task_id = some task) (user_id : ℕ) :
    ∃ logged, Leaves db (refreshed db user_id task) task_id task.state.actions logged ∧
      (logged = [] ↔ Unmoved db task.state.actions) := by
  obtain ⟨hsound, hstate, hchanges, logged, hlog, hunmoved⟩ :=
    refresh_spec (Held.sound_locked hrow) user_id
  rw [Held.locked, value_load] at hunmoved
  refine ⟨logged, ⟨⟨_, hsound.flush.row, ?_⟩, hlog, hchanges⟩, hunmoved⟩
  rw [hstate]
  rfl

theorem continued_leaves (hrow : db.task task_id = some task) (user_id : ℕ) (b : Begin)
    (now : ℕ) :
    let r := continued db task user_id b now
    r.2.task task_id = some r.1 ∧ Leaves db r.2 task_id task.state.actions [] := by
  intro r
  let first := if task.status = .waiting_for_user ∨ task.status = .blocked then
      _set_status db task .active .user user_id (some "the user continued")
    else (task, db)
  have hfirst : first.2.task task_id = some first.1 ∧ first.1.state = task.state ∧
      actionStatuses first.2 task_id = actionStatuses db task_id ∧ first.2.changes = db.changes := by
    by_cases hwaits : task.status = .waiting_for_user ∨ task.status = .blocked
    · have heq : first = _set_status db task .active .user user_id (some "the user continued") :=
        if_pos hwaits
      obtain ⟨hthere, -, hrest⟩ := set_status_spec hrow .active .user user_id
        (some "the user continued")
      rw [heq]
      exact ⟨hthere, hrest⟩
    · have heq : first = (task, db) := if_neg hwaits
      rw [heq]
      exact ⟨hrow, rfl, rfl, rfl⟩
  obtain ⟨hthere, hstate, hlog, hchanges⟩ := hfirst
  have hput : r.2.task task_id = some r.1 := task_put_of (t := r.1) hthere rfl
  refine ⟨hput, ⟨r.1, hput, ?_⟩, ?_, hchanges⟩
  · exact congrArg TaskState.actions hstate
  · rw [List.append_nil]
    exact hlog

/-- An action that is recorded is one of a new change. -/
theorem newAction_some {call : Call} {action : TaskAction}
    (h : newAction db task call now = some action) :
    ∀ a ∈ task.state.actions, a.change_id ≠ action.change_id := by
  intro a ha hid
  rw [newAction, Option.filter_eq_some_iff] at h
  rw [Bool.not_eq_true', List.any_eq_false] at h
  exact h.2 a ha (decide_eq_true hid)

theorem record_leaves (env : Env) (hrow : db.task task_id = some task) (user_id : ℕ) (call : Call)
    (now : ℕ) :
    ∃ actions, Leaves db (record_tool env db (some task) user_id call now) task_id actions [] ∧
      (actions = task.state.actions ∨
        ∃ action, actions = add 25 task.state.actions action ∧
          ∀ a ∈ task.state.actions, a.change_id ≠ action.change_id) := by
  by_cases hnothing : addsNothing env db task call now
  · have heq : record_tool env db (some task) user_id call now = db := if_pos hnothing
    rw [heq]
    exact ⟨_, ⟨⟨task, hrow, rfl⟩, (List.append_nil _).symm, rfl⟩, .inl rfl⟩
  · have heq : record_tool env db (some task) user_id call now
        = (db.put (recordedRow env db task call now)).logged task .assistant user_id
          (recordedEvents env db task call now) := if_neg hnothing
    rw [heq]
    refine ⟨(recordedRow env db task call now).state.actions, ⟨⟨_, task_put_of hrow rfl, rfl⟩, ?_, rfl⟩,
      ?_⟩
    · rw [actionStatuses_logged (task_id_of_row hrow), statusData_recorded]
      rfl
    · have hactions : (recordedRow env db task call now).state.actions
          = (newAction db task call now).elim task.state.actions
            (addNew 25 TaskAction.change_id task.state.actions) := rfl
      rw [hactions]
      cases haction : newAction db task call now with
      | none => exact .inl rfl
      | some action =>
        have hfresh := newAction_some haction
        refine .inr ⟨action, ?_, hfresh⟩
        refine if_neg fun hany => ?_
        obtain ⟨a, ha, hid⟩ := List.any_eq_true.mp hany
        exact hfresh a ha (of_decide_eq_true hid)

theorem update_leaves (hrow : db.task task_id = some task) (user_id : ℕ) (u : Update) (now : ℕ) :
    Leaves db (apply_update db task user_id .assistant u now).2 task_id task.state.actions [] := by
  let written := (db.put (updatedRow task .assistant u now)).logged task .assistant user_id
    (updateEvents task .assistant u now)
  have hthere : written.task task_id = some (updatedRow task .assistant u now) :=
    task_put_of hrow rfl
  have hlog : actionStatuses written task_id = actionStatuses db task_id := by
    rw [actionStatuses_logged (task_id_of_row hrow), statusData_updated, List.append_nil]
    rfl
  have hwritten : Leaves db written task_id task.state.actions [] :=
    ⟨⟨_, hthere, rfl⟩, by rw [List.append_nil, hlog], rfl⟩
  unfold apply_update
  cases given u.status with
  | none => exact hwritten
  | some status =>
    dsimp only
    cases settable status with
    | none => exact hwritten
    | some status =>
      obtain ⟨hrow', -, hstate, hlog', hchanges⟩ := set_status_spec hthere status .assistant
        user_id none
      refine ⟨⟨_, hrow', ?_⟩, ?_, hchanges⟩
      · rw [hstate]
        rfl
      · rw [List.append_nil]
        exact hlog'.trans hlog

/-- The first part of `end_turn`: the answer is kept. -/
theorem answered_spec (hrow : db.task task_id = some task) (user_id : ℕ) (answer : Option String)
    (now : ℕ) :
    let h := answered (.locked db task) user_id answer now
    h.Sound task_id ∧ (h.object.value h.object.state).actions = task.state.actions ∧
      h.flush.row.state.actions = task.state.actions ∧
      actionStatuses h.db task_id = actionStatuses db task_id ∧ h.db.changes = db.changes := by
  have hloaded := congrArg TaskState.actions (value_load task.state)
  have hsound := Held.sound_locked hrow
  intro h
  cases hspoken : spoken answer with
  | none =>
    have heq : h = .locked db task := by simp only [h, answered, hspoken]
    rw [heq]
    exact ⟨hsound, hloaded, rfl, rfl, rfl⟩
  | some text =>
    let touched := (Held.locked db task)._touch
      { (Held.locked db task).object.state with last_answer := some (_cut text 600, now) }
    have heq : h = touched.logged .assistant user_id [.answer (_cut text 2000)] := by
      simp only [h, answered, hspoken]
      rfl
    rw [heq]
    refine ⟨(hsound.touch _).logged .., hloaded, ?_, ?_, rfl⟩
    -- the flush writes the new state or leaves the old one; the actions are the same in both
    · have hflushed : touched.flush.row.state.actions
          = if touched.object.value touched.object.state
              = touched.object.value (Loaded.load task.state).state then task.state.actions
            else (touched.object.value touched.object.state).actions := by
        rw [Held.flush_state]
        exact apply_ite TaskState.actions _ _ _
      refine hflushed.trans ?_
      split
      · rfl
      · exact hloaded
    · exact (actionStatuses_logged hsound.id).trans (List.append_nil _)

theorem end_leaves (hrow : db.task task_id = some task) (user_id : ℕ) (answer : Option String)
    (now : ℕ) :
    ∃ logged, Leaves db (end_turn db user_id task answer now) task_id task.state.actions logged ∧
      (logged = [] ↔ Unmoved db task.state.actions) := by
  obtain ⟨hsound, hactions, hstored, hlog, hchanges⟩ := answered_spec hrow user_id answer now
  let h := answered (.locked db task) user_id answer now
  obtain ⟨hsound', hstate, hchanges', logged, hlog', hunmoved⟩ := refresh_spec hsound user_id
  rw [hactions] at hunmoved
  refine ⟨logged, ?_, hunmoved.trans (unmoved_congr hchanges)⟩
  -- the answer is kept, the actions are refreshed, and the status follows from them
  let refreshed := refresh_actions h user_id
  let last := if refreshed.row.status = .active then
      refreshed._set_status (if refreshed.pending then .waiting_for_approval else .waiting_for_user)
        .system user_id
    else refreshed
  have hlast : last.Sound task_id ∧ last.object = refreshed.object ∧
      last.row.state = refreshed.row.state ∧
      actionStatuses last.db task_id = actionStatuses refreshed.db task_id ∧
      last.db.changes = refreshed.db.changes := by
    by_cases hactive : refreshed.row.status = .active
    · have heq : last = refreshed._set_status
          (if refreshed.pending then .waiting_for_approval else .waiting_for_user) .system user_id :=
        if_pos hactive
      rw [heq]
      exact hsound'.set_status ..
    · have heq : last = refreshed := if_neg hactive
      rw [heq]
      exact ⟨hsound', rfl, rfl, rfl, rfl⟩
  obtain ⟨hlastSound, hobject, hlastState, hlastLog, hlastChanges⟩ := hlast
  have hend : end_turn db user_id task answer now = last.flush.db := rfl
  rw [hend]
  refine ⟨⟨_, hlastSound.flush.row, ?_⟩, ?_, hlastChanges.trans (hchanges'.trans hchanges)⟩
  · rw [Held.flush_state, hobject, hlastState, ← Held.flush_state, hstate, hstored]
  · exact hlastLog.trans (hlog'.trans (by rw [hlog]))

end Steps

/-! ## Runs -/

/-- What happens around one task: changes are drafted and decided, a turn continues the task, a
tool call and an update are recorded in it, and a turn ends. -/
inductive TaskStep
  | changes (rows : List TM1Change)
  | turn (b : Begin) (now : ℕ)
  | record (call : Call) (now : ℕ)
  | update (u : Update) (now : ℕ)
  | ended (answer : Option String) (now : ℕ)

/-- A turn ends. -/
def TaskStep.isEnd : TaskStep → Bool
  | .ended _ _ => true
  | _ => false

section Runs

variable (env : Env) (task_id user_id : ℕ)

/-- A step, with the commit at its end. -/
def taskStep (db : Tables) : TaskStep → Option Tables
  | .changes rows => some { db with changes := rows }
  | .turn b now => (db.task task_id).map fun task =>
    let (task, db) := continued db task user_id b now
    refreshed db user_id task
  | .record call now => (db.task task_id).map fun task =>
    record_tool env db (some task) user_id call now
  | .update u now => (db.task task_id).map fun task =>
    (apply_update db task user_id .assistant u now).2
  | .ended answer now => (db.task task_id).map fun task => end_turn db user_id task answer now

/-- The actions of a task are of different changes. -/
def Distinct (db : Tables) : Prop :=
  ∀ task, db.task task_id = some task → (task.state.actions.map TaskAction.change_id).Nodup

instance (db : Tables) : Decidable (Distinct task_id db) :=
  inferInstanceAs (Decidable (∀ task ∈ db.task task_id, _))

/-- Each action of the task has the status of its change. -/
def Synced (db : Tables) : Prop :=
  ∀ task, db.task task_id = some task → Unmoved db task.state.actions

instance (db : Tables) : Decidable (Synced task_id db) :=
  inferInstanceAs (Decidable (∀ task ∈ db.task task_id, _))

/-- Each status that has changed between the two is logged, once. -/
def LoggedOnce (db db' : Tables) : Prop :=
  ∀ old, db.task task_id = some old → ∀ new, db'.task task_id = some new →
    actionStatuses db' task_id
      = actionStatuses db task_id ++ statusChanges old.state.actions new.state.actions

instance (db db' : Tables) : Decidable (LoggedOnce task_id db db') :=
  inferInstanceAs (Decidable (∀ old ∈ db.task task_id, ∀ new ∈ db'.task task_id, _))

/-- A step logs what it changes, and a turn ends with the statuses of the changes. -/
def FollowsChanges (db : Tables) (x : TaskStep) : Prop :=
  ∀ db', taskStep env task_id user_id db x = some db' →
    LoggedOnce task_id db db' ∧ (x.isEnd = true → Synced task_id db')

instance (db : Tables) (x : TaskStep) : Decidable (FollowsChanges env task_id user_id db x) :=
  inferInstanceAs (Decidable (∀ db' ∈ taskStep env task_id user_id db x, _))

/-- At both ends of a turn, no change of an action has moved on since the action was recorded. -/
def Undecided (db : Tables) : TaskStep → Prop
  | .turn _ _ | .ended _ _ => Synced task_id db
  | _ => True

instance (db : Tables) : ∀ x : TaskStep, Decidable (Undecided task_id db x)
  | .turn _ _ | .ended _ _ => inferInstanceAs (Decidable (Synced task_id db))
  | .changes _ | .record _ _ | .update _ _ => .isTrue trivial

end Runs

section Runs

variable {env : Env} {db db' : Tables} {task_id user_id : ℕ} {x : TaskStep} {task : AITask}

/-- What a step leaves of the task, where it takes one. -/
theorem taskStep_leaves (env : Env) (user_id : ℕ) (x : TaskStep) (hrow : db.task task_id = some task)
    (h : taskStep env task_id user_id db x = some db') :
    (∃ rows, x = .changes rows ∧ db' = { db with changes := rows }) ∨
    (∃ call now, x = .record call now ∧ ∃ actions, Leaves db db' task_id actions [] ∧
      (actions = task.state.actions ∨ ∃ action, actions = add 25 task.state.actions action ∧
        ∀ a ∈ task.state.actions, a.change_id ≠ action.change_id)) ∨
    (∃ u now, x = .update u now ∧ Leaves db db' task_id task.state.actions []) ∨
    ((∃ b now, x = .turn b now) ∨ (∃ answer now, x = .ended answer now)) ∧
      ∃ logged, Leaves db db' task_id task.state.actions logged ∧
        (logged = [] ↔ Unmoved db task.state.actions) := by
  cases x with
  | changes rows =>
    cases h
    exact .inl ⟨rows, rfl, rfl⟩
  | turn b now =>
    rw [taskStep, hrow] at h
    cases h
    -- a turn touches the row first, and refreshes its actions after it
    obtain ⟨hcontinued, ⟨t, ht, hactions⟩, hlog, hchanges⟩ := continued_leaves hrow user_id b now
    rw [hcontinued] at ht
    cases ht
    obtain ⟨logged, ⟨hlast, hlog', hchanges'⟩, hunmoved⟩ := refreshed_leaves hcontinued user_id
    rw [hactions] at hlast hunmoved
    rw [hlog, List.append_nil] at hlog'
    exact .inr (.inr (.inr ⟨.inl ⟨b, now, rfl⟩, logged, ⟨hlast, hlog', hchanges'.trans hchanges⟩,
      hunmoved.trans (unmoved_congr hchanges)⟩))
  | record call now =>
    rw [taskStep, hrow] at h
    cases h
    exact .inr (.inl ⟨call, now, rfl, record_leaves env hrow user_id call now⟩)
  | update u now =>
    rw [taskStep, hrow] at h
    cases h
    exact .inr (.inr (.inl ⟨u, now, rfl, update_leaves hrow user_id u now⟩))
  | ended answer now =>
    rw [taskStep, hrow] at h
    cases h
    exact .inr (.inr (.inr ⟨.inr ⟨answer, now, rfl⟩, end_leaves hrow user_id answer now⟩))

theorem distinct_add {actions : List TaskAction} {action : TaskAction}
    (h : (actions.map TaskAction.change_id).Nodup)
    (hnew : ∀ a ∈ actions, a.change_id ≠ action.change_id) :
    ((add 25 actions action).map TaskAction.change_id).Nodup := by
  have hall : ((actions ++ [action]).map TaskAction.change_id).Nodup := by
    rw [List.map_append, List.nodup_append]
    refine ⟨h, List.nodup_singleton _, fun a ha b hb => ?_⟩
    obtain ⟨x, hx, rfl⟩ := List.mem_map.mp ha
    rw [List.map_singleton, List.mem_singleton] at hb
    rw [hb]
    exact hnew x hx
  exact hall.sublist ((List.drop_sublist ..).map _)

theorem Leaves.log_eq {actions : List TaskAction} {logged : List (ℕ × String × String)}
    (h : Leaves db db' task_id actions logged) {new : AITask}
    (hnew : db'.task task_id = some new) : new.state.actions = actions := by
  obtain ⟨t, ht, hactions⟩ := h.row
  rw [hnew] at ht
  cases ht
  exact hactions

/-- A task keeps its actions apart. -/
theorem taskStep_distinct (h : Distinct task_id db)
    (hstep : taskStep env task_id user_id db x = some db') : Distinct task_id db' := by
  intro new hnew
  cases hrow : db.task task_id with
  | none =>
    cases x with
    | changes rows =>
      cases hstep
      exact h new hnew
    | turn | record | update | ended =>
      rw [taskStep, hrow] at hstep
      cases hstep
  | some task =>
    have hold := h task hrow
    rcases taskStep_leaves env user_id x hrow hstep with ⟨rows, -, rfl⟩ |
      ⟨call, now, -, actions, hleaves, hactions⟩ | ⟨u, now, -, hleaves⟩ | ⟨-, logged, hleaves, -⟩
    · exact h new hnew
    · rw [hleaves.log_eq hnew]
      rcases hactions with rfl | ⟨action, rfl, hfresh⟩
      · exact hold
      · exact distinct_add hold hfresh
    · rw [hleaves.log_eq hnew]
      exact hold
    · rw [hleaves.log_eq hnew]
      exact hold

/-- A step that logs no status leaves none changed. -/
theorem loggedOnce_iff (hrow : db.task task_id = some task) (h : Distinct task_id db)
    {logged : List (ℕ × String × String)}
    (hleaves : Leaves db db' task_id task.state.actions logged) :
    LoggedOnce task_id db db' ↔ logged = [] := by
  have hself := statusChanges_self (h task hrow)
  constructor
  · intro hlogged
    obtain ⟨new, hnew, hactions⟩ := hleaves.row
    have heq := hlogged task hrow new hnew
    rw [hactions, hself, hleaves.log] at heq
    exact List.append_cancel_left heq
  · intro hnil old hold new hnew
    rw [hrow] at hold
    cases hold
    rw [hleaves.log_eq hnew, hself, hleaves.log, hnil]

/-- What is recorded changes no status. -/
theorem loggedOnce_record (hrow : db.task task_id = some task) (h : Distinct task_id db)
    {actions : List TaskAction} (hleaves : Leaves db db' task_id actions [])
    (hactions : actions = task.state.actions ∨ ∃ action, actions = add 25 task.state.actions action ∧
      ∀ a ∈ task.state.actions, a.change_id ≠ action.change_id) : LoggedOnce task_id db db' := by
  have hold := h task hrow
  have hnone : statusChanges task.state.actions actions = [] := by
    rcases hactions with rfl | ⟨action, rfl, hfresh⟩
    · exact statusChanges_self hold
    · refine statusChanges_eq_nil fun a ha b hb hid => ?_
      rcases List.mem_append.mp (List.mem_of_mem_drop hb) with hb | hb
      · exact List.inj_on_of_nodup_map hold hb ha hid
      · rw [List.mem_singleton.mp hb] at hid
        exact absurd hid.symm (hfresh a ha)
  intro old hold' new hnew
  rw [hrow] at hold'
  cases hold'
  rw [hleaves.log_eq hnew, hnone]
  exact hleaves.log

theorem exists_taskStep (env : Env) (user_id : ℕ) (x : TaskStep) (hrow : db.task task_id = some task) :
    ∃ db', taskStep env task_id user_id db x = some db' := by
  cases x with
  | changes rows => exact ⟨_, rfl⟩
  | turn | record | update | ended =>
    rw [taskStep, hrow]
    exact ⟨_, rfl⟩

/-- One step follows the changes exactly if it is no end of a turn that finds one decided. -/
theorem follows_iff (env : Env) (user_id : ℕ) (h : Distinct task_id db) (x : TaskStep) :
    FollowsChanges env task_id user_id db x ↔ Undecided task_id db x := by
  cases hrow : db.task task_id with
  | none =>
    -- there is no such task, so nothing can be logged of it
    have hsynced : Synced task_id db := fun task ht => by rw [hrow] at ht; cases ht
    have hundecided : Undecided task_id db x := by
      cases x with
      | changes | record | update => trivial
      | turn | ended => exact hsynced
    refine ⟨fun _ => hundecided, fun _ db' hstep => ⟨fun old hold => ?_, fun hend => ?_⟩⟩
    · rw [hrow] at hold
      cases hold
    · cases x with
      | ended answer now =>
        rw [taskStep, hrow] at hstep
        cases hstep
      | changes | turn | record | update => cases hend
  | some task =>
    -- the step can be taken in one way
    obtain ⟨db', hstep⟩ := exists_taskStep env user_id x hrow
    have hfollows : FollowsChanges env task_id user_id db x ↔
        LoggedOnce task_id db db' ∧ (x.isEnd = true → Synced task_id db') := by
      refine ⟨fun hall => hall db' hstep, fun hthis db'' hstep' => ?_⟩
      rw [hstep] at hstep'
      cases hstep'
      exact hthis
    have hsynced : Synced task_id db ↔ Unmoved db task.state.actions :=
      ⟨fun hs => hs task hrow, fun hu t ht => by rw [hrow] at ht; cases ht; exact hu⟩
    rw [hfollows]
    rcases taskStep_leaves env user_id x hrow hstep with ⟨rows, rfl, rfl⟩ |
      ⟨call, now, rfl, actions, hleaves, hactions⟩ | ⟨u, now, rfl, hleaves⟩ |
      ⟨hend, logged, hleaves, hunmoved⟩
    · refine ⟨fun _ => trivial, fun _ => ⟨fun old hold new hnew => ?_, fun hend => by cases hend⟩⟩
      have hsame : new = old := Option.some.inj (hnew.symm.trans hold)
      rw [hsame, statusChanges_self (h old hold), List.append_nil]
      rfl
    · exact ⟨fun _ => trivial,
        fun _ => ⟨loggedOnce_record hrow h hleaves hactions, fun hend => by cases hend⟩⟩
    · exact ⟨fun _ => trivial,
        fun _ => ⟨(loggedOnce_iff hrow h hleaves).mpr rfl, fun hend => by cases hend⟩⟩
    -- an end of a turn, which goes wrong only if a change was decided meanwhile
    · have hundecided : Undecided task_id db x ↔ Synced task_id db := by
        rcases hend with ⟨b, now, rfl⟩ | ⟨answer, now, rfl⟩ <;> exact Iff.rfl
      rw [hundecided, hsynced, loggedOnce_iff hrow h hleaves, hunmoved]
      refine ⟨And.left, fun hu => ⟨hu, fun _ new hnew => ?_⟩⟩
      rw [hleaves.log_eq hnew]
      exact (unmoved_congr hleaves.changes).mpr hu

/-- **The tasks follow the changes** in every step of a run exactly if no turn begins or ends with
a change of an action decided. -/
theorem follows_changes_iff (env : Env) (user_id : ℕ) (h : Distinct task_id db)
    (xs : List TaskStep) :
    Run.Along (taskStep env task_id user_id) (FollowsChanges env task_id user_id) db xs ↔
      Run.Along (taskStep env task_id user_id) (fun db x => Undecided task_id db x) db xs :=
  Run.along_iff (I := Distinct task_id) (J := fun _ => True)
    (fun _ _ _ hs hstep => taskStep_distinct hs hstep)
    (fun _ x hs _ => follows_iff env user_id hs x) (fun _ _ _ _ _ _ _ => trivial) h trivial

end Runs

/-! ### A change that is rejected -/

def feederFix : TM1Change where
  id := 7
  connection_id := 1
  organization_id := 1
  created_by := 2
  created_at := 0
  change_type := .update_rules
  target_name := "Sales"
  new_content := none

def proposeFix : Call where
  name := "propose_rule_update"
  arguments := [("cube_name", "Sales")]
  parsed := { draft_change_id := some 7, status := some "draft" }

/-- A turn drafts the fix. -/
def fixDrafted : List TaskStep :=
  [ .turn ⟨"Okay, fix it.", some "developer", some 1, true, false, none⟩ 1,
    .changes [feederFix],
    .record proposeFix 2,
    .ended (some "I have prepared the feeder fix for review.") 3 ]

theorem fixDrafted_follows :
    Run.Along (taskStep plainEnv 10 2) (FollowsChanges plainEnv 10 2) oneTask fixDrafted :=
  (follows_changes_iff plainEnv 2 (by decide +kernel) fixDrafted).mpr (by decide +kernel)

/-- The fix is rejected, and a turn asks what was changed. -/
def fixRejected : List TaskStep :=
  fixDrafted ++
    [ .changes [{ feederFix with status := .rejected }],
      .turn ⟨"What did we change?", some "developer", some 1, true, false, none⟩ 4,
      .ended (some "The feeder fix was rejected.") 5 ]

/-- The action stays a draft, and its rejection is logged at both ends of the turn. -/
theorem fixRejected_not_followed :
    ¬ Run.Along (taskStep plainEnv 10 2) (FollowsChanges plainEnv 10 2) oneTask fixRejected ∧
      ((Run.run (taskStep plainEnv 10 2) oneTask fixRejected).map fun db =>
        ((db.task 10).map fun task => task.state.actions.map TaskAction.status,
          actionStatuses db 10))
      = some (some ["draft"], [(7, "draft", "rejected"), (7, "draft", "rejected")]) := by
  decide +kernel

end PaCopilot.task_memory
