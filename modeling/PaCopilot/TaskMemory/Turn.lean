/-
The task of a turn, and the task in which its tool calls are recorded.

`begin_turn` settles the task of a turn once. `_fold_into_task` looks for a task anew after each
call, and takes the newest open one of the conversation. A turn that starts a task or continues
the newest one finds its own in this way, as long as the assistant does not close it
([`folds_into_own`]). A turn that is resumed with an older task finds another one.
-/
import PaCopilot.TaskMemory.Actions

set_option autoImplicit false

namespace PaCopilot.task_memory

/-! ## The newest task -/

/-- The first of the latest tasks of a list. -/
def FirstLatest (tasks : List AITask) (task : AITask) : Prop :=
  ∃ before after, tasks = before ++ task :: after ∧
    (∀ other ∈ before, other.created_at < task.created_at) ∧
    ∀ other ∈ after, other.created_at ≤ task.created_at

/-- A task is the newest open one of a conversation. -/
def IsNewest (db : Tables) (conversation_id : ℕ) (task : AITask) : Prop :=
  FirstLatest (db.tasks.filter (workable conversation_id)) task

section Newest

variable {tasks : List AITask} {task : AITask}

theorem FirstLatest.le (h : FirstLatest tasks task) :
    ∀ other ∈ tasks, other.created_at ≤ task.created_at := by
  obtain ⟨before, after, rfl, hbefore, hafter⟩ := h
  intro other hother
  rcases List.mem_append.mp hother with hmem | hmem
  · exact Nat.le_of_lt (hbefore other hmem)
  · rcases List.mem_cons.mp hmem with rfl | hmem
    · exact Nat.le_refl _
    · exact hafter other hmem

theorem newest_eq_none (h : newest tasks = none) : tasks = [] := by
  cases tasks with
  | nil => rfl
  | cons first rest =>
    -- either the first task or the newest of the rest
    rw [newest] at h
    cases hrest : newest rest with
    | none =>
      rw [hrest] at h
      cases h
    | some later =>
      rw [hrest] at h
      dsimp only at h
      split at h <;> cases h

/-- The query finds the first of the latest tasks. -/
theorem newest_iff : newest tasks = some task ↔ FirstLatest tasks task := by
  induction tasks generalizing task with
  | nil =>
    refine ⟨(fun h => by cases h), ?_⟩
    rintro ⟨before, after, htasks, -⟩
    exact absurd htasks.symm (List.append_ne_nil_of_right_ne_nil _ (List.cons_ne_nil _ _))
  | cons first rest ih =>
    rw [newest]
    constructor
    · intro h
      cases hrest : newest rest with
      | none =>
        rw [hrest] at h
        cases h
        rw [newest_eq_none hrest]
        exact ⟨[], [], rfl, by simp, by simp⟩
      | some later =>
        rw [hrest] at h
        dsimp only at h
        have hlater := ih.mp hrest
        -- of two tasks of one time the first stands
        by_cases hlt : first.created_at < later.created_at
        · rw [if_pos hlt] at h
          cases h
          obtain ⟨before, after, rfl, hbefore, hafter⟩ := hlater
          refine ⟨first :: before, after, rfl, fun other hother => ?_, hafter⟩
          rcases List.mem_cons.mp hother with rfl | hmem
          · exact hlt
          · exact hbefore other hmem
        · rw [if_neg hlt] at h
          cases h
          refine ⟨[], rest, rfl, by simp, fun other hother => ?_⟩
          exact (hlater.le other hother).trans (Nat.le_of_not_lt hlt)
    · rintro ⟨before, after, htasks, hbefore, hafter⟩
      cases before with
      | nil =>
        cases htasks
        cases hrest : newest rest with
        | none => rfl
        | some later =>
          -- nothing after the first is later than it
          have hle := hafter later (newest_mem hrest)
          dsimp only
          rw [if_neg (Nat.not_lt_of_le hle)]
      | cons other before =>
        rw [List.cons_append, List.cons.injEq] at htasks
        obtain ⟨rfl, rfl⟩ := htasks
        have hrest : newest (before ++ task :: after) = some task :=
          ih.mpr ⟨before, after, rfl, fun o ho => hbefore o (List.mem_cons_of_mem _ ho), hafter⟩
        rw [hrest]
        dsimp only
        rw [if_pos (hbefore first List.mem_cons_self)]

theorem current_iff {db : Tables} {conversation_id : ℕ} :
    current db conversation_id = some task ↔ IsNewest db conversation_id task := newest_iff

end Newest

/-! ## Turns -/

section Turn

variable (env : Env) (conversation : AIConversation) (user_id : ℕ)

/-- What happens in a turn: tools write drafts and work items, a call of a tool is recorded, and
the assistant updates the task. -/
inductive TurnStep
  | written (changes : List TM1Change) (work_items : List WorkItemRef)
  | called (call : Call) (now : ℕ)
  | updated (args : UpdateArgs) (id now : ℕ)

/-- Who calls the tools of a turn. -/
def turnCaller : Caller := ⟨conversation.organization_id, user_id, some conversation.id⟩

/-- A call of `update_task_memory` starts a task, or resumes one. -/
def startsOrResumes (db : Tables) (args : UpdateArgs) (id now : ℕ) : Bool :=
  match prepared env db (turnCaller conversation user_id) args id now with
  | .ok (_, _, prepared) => db.tasks.length < prepared.tasks.length
  | .error _ => false

/-- A step of a turn in which the assistant neither starts nor resumes a task. -/
def turnStep (db : Tables) : TurnStep → Option Tables
  | .written changes work_items => some { db with changes := changes, work_items := work_items }
  | .called call now => some (_fold_into_task env db conversation.id user_id call now)
  | .updated args id now =>
    if startsOrResumes env conversation user_id db args id now then none
    else some (execute env db (turnCaller conversation user_id) args id now).2

/-- The row of the task of a turn. -/
def ownRow (own : Option AITask) (db : Tables) : Option AITask :=
  own.bind fun task => db.task task.id

/-- A call is recorded in the task of the turn, and in no other. -/
def RecordsOnOwn (own : Option AITask) (db : Tables) : TurnStep → Prop
  | .called call now => _fold_into_task env db conversation.id user_id call now
      = record_tool env db (ownRow own db) user_id call now
  | _ => True

/-- After each call, the task of the turn is the newest open one of the conversation, or both of
them have nothing to add. -/
def OwnIsNewest (own : Option AITask) (db : Tables) : TurnStep → Prop
  | .called call now =>
    (∀ task, ownRow own db = some task ↔ IsNewest db conversation.id task) ∨
    ∀ task, ownRow own db = some task ∨ IsNewest db conversation.id task →
      addsNothing env db task call now
  | _ => True

/-- Whatever `begin_turn` returns, all calls of the turn are recorded in it. -/
def FoldsIntoOwn (db : Tables) (b : Begin) (id now : ℕ) (xs : List TurnStep) : Prop :=
  ∀ own begun, _task_for_turn env db user_id conversation b id now = .ok (own, begun) →
    Run.Along (turnStep env conversation user_id) (RecordsOnOwn env conversation user_id own) begun xs

end Turn

section Recorded

variable {env : Env} {db : Tables} {task : AITask} {user_id now : ℕ} {call : Call}

theorem record_nothing {a : Option AITask}
    (h : ∀ task, a = some task → addsNothing env db task call now) :
    record_tool env db a user_id call now = db := by
  cases a with
  | none => rfl
  | some task => exact if_pos (h task rfl)

/-- A call that adds something logs it under its task first. -/
theorem record_events (user_id : ℕ) (h : ¬ addsNothing env db task call now) :
    ∃ e rest, (record_tool env db (some task) user_id call now).events = db.events ++ e :: rest ∧
      e.task_id = task.id := by
  have hrecord : record_tool env db (some task) user_id call now
      = (db.put (recordedRow env db task call now)).logged task .assistant user_id
        (recordedEvents env db task call now) := if_neg h
  obtain ⟨d, more, hevents⟩ := List.exists_cons_of_ne_nil fun hnil => h (.inr hnil)
  rw [hrecord, hevents]
  exact ⟨_, _, rfl, rfl⟩

/-- A call that adds something to a task is recorded in another one differently. -/
theorem record_inj {b : Option AITask} (hids : (db.tasks.map AITask.id).Nodup)
    (htask : task ∈ db.tasks) (hb : ∀ other, b = some other → other ∈ db.tasks)
    (hadds : ¬ addsNothing env db task call now)
    (heq : record_tool env db (some task) user_id call now = record_tool env db b user_id call now) :
    b = some task := by
  obtain ⟨e, rest, hevents, hid⟩ := record_events user_id hadds
  -- the other records something too
  have hnot : record_tool env db b user_id call now ≠ db := by
    intro hsame
    rw [heq, hsame] at hevents
    exact absurd (List.self_eq_append_right.mp hevents) (List.cons_ne_nil _ _)
  cases b with
  | none => exact absurd rfl hnot
  | some other =>
    have hother : ¬ addsNothing env db other call now := fun h => hnot (if_pos h)
    obtain ⟨e', rest', hevents', hid'⟩ := record_events user_id hother
    rw [heq, hevents'] at hevents
    have hhead := (List.cons.inj (List.append_cancel_left hevents)).1
    have hsame : other.id = task.id := by rw [← hid', hhead, hid]
    rw [List.inj_on_of_nodup_map hids (hb other rfl) htask hsame]

/-- Two tasks take a call alike exactly if they are one, or it adds nothing to either. -/
theorem record_eq_iff {a b : Option AITask} (hids : (db.tasks.map AITask.id).Nodup)
    (ha : ∀ task, a = some task → task ∈ db.tasks) (hb : ∀ task, b = some task → task ∈ db.tasks) :
    record_tool env db a user_id call now = record_tool env db b user_id call now ↔
      a = b ∨ ∀ task, b = some task ∨ a = some task → addsNothing env db task call now := by
  constructor
  · intro heq
    by_cases hsame : a = b
    · exact .inl hsame
    · refine .inr fun task htask => ?_
      by_contra hadds
      rcases htask with rfl | rfl
      · exact hsame (record_inj hids (hb task rfl) ha hadds heq.symm)
      · exact hsame (record_inj hids (ha task rfl) hb hadds heq).symm
  · rintro (rfl | hnothing)
    · rfl
    · rw [record_nothing fun task h => hnothing task (.inr h),
        record_nothing fun task h => hnothing task (.inl h)]

end Recorded

/-! ## The rows of tasks through a turn -/

/-- A task that is neither archived nor cancelled. -/
def isOpen (status : TaskStatus) : Bool := status ≠ .archived && status ≠ .cancelled

/-- What the query for the newest task reads of a row. -/
def rowKey (task : AITask) : ℕ × ℕ × ℕ × Bool :=
  (task.id, task.conversation_id, task.created_at, isOpen task.status)

/-- The same tasks, as far as that query sees. -/
def SameRows (db db' : Tables) : Prop := db'.tasks.map rowKey = db.tasks.map rowKey

/-- A row that may be written for its task. -/
def Fits (db : Tables) (task : AITask) : Prop :=
  ∀ r ∈ db.tasks, r.id = task.id → rowKey r = rowKey task

section Kept

variable {db db' db'' : Tables} {task t : AITask} {conversation_id : ℕ} {h h' h'' : Held}

theorem SameRows.trans (h : SameRows db db') (h' : SameRows db' db'') : SameRows db db'' :=
  Eq.trans h' h

theorem SameRows.ids (h : SameRows db db') :
    db'.tasks.map AITask.id = db.tasks.map AITask.id := by
  have hfst := congrArg (List.map Prod.fst) h
  rw [List.map_map, List.map_map] at hfst
  exact hfst

theorem fits_of_mem (hids : (db.tasks.map AITask.id).Nodup) (h : task ∈ db.tasks) : Fits db task :=
  fun _ hr hid => congrArg rowKey (List.inj_on_of_nodup_map hids hr h hid)

theorem Fits.put (h : Fits db t) : SameRows db (db.put t) := by
  rw [SameRows, Tables.put]
  dsimp only
  rw [List.map_map]
  refine List.map_congr_left fun r hr => ?_
  rw [Function.comp_apply]
  by_cases hid : r.id = t.id
  · rw [if_pos hid, h r hr hid]
  · rw [if_neg hid]

theorem Fits.congr (h : Fits db task) (hrows : SameRows db db') (hkey : rowKey t = rowKey task) :
    Fits db' t := by
  intro r hr hid
  have hmem : rowKey r ∈ db.tasks.map rowKey := by
    rw [← hrows]
    exact List.mem_map_of_mem hr
  obtain ⟨r₀, hr₀, hsame⟩ := List.mem_map.mp hmem
  have hid₀ : r₀.id = task.id := by
    have hfirst : r₀.id = r.id := congrArg Prod.fst hsame
    have hlast : t.id = task.id := congrArg Prod.fst hkey
    rw [hfirst, hid, hlast]
  rw [← hsame, h r₀ hr₀ hid₀, hkey]

theorem workable_eq (conversation_id : ℕ) (task : AITask) :
    workable conversation_id task
      = ((rowKey task).2.1 = conversation_id && (rowKey task).2.2.2) := by
  rw [workable, rowKey, isOpen, Bool.and_assoc]

/-- The query sees the key of a row only. -/
theorem newest_congr {tasks tasks' : List AITask} (h : tasks'.map rowKey = tasks.map rowKey) :
    (newest (tasks'.filter (workable conversation_id))).map rowKey
      = (newest (tasks.filter (workable conversation_id))).map rowKey := by
  induction tasks generalizing tasks' with
  | nil =>
    rw [List.map_nil, List.map_eq_nil_iff] at h
    rw [h]
  | cons first rest ih =>
    obtain ⟨first', rest', rfl, hfirst, hrest⟩ := List.map_eq_cons_iff.mp h
    have hnewest := ih hrest
    have hsame : workable conversation_id first' = workable conversation_id first := by
      rw [workable_eq, workable_eq, hfirst]
    by_cases hworkable : workable conversation_id first = true
    · rw [List.filter_cons_of_pos hworkable, List.filter_cons_of_pos (hsame.trans hworkable), newest,
        newest]
      -- the times are in the key, so both sides choose the same row
      have hcreated : first'.created_at = first.created_at := congrArg (fun k => k.2.2.1) hfirst
      cases hn : newest (rest.filter (workable conversation_id)) with
      | none =>
        rw [hn, Option.map_none, Option.map_eq_none_iff] at hnewest
        rw [hnewest]
        exact congrArg some hfirst
      | some later =>
        rw [hn, Option.map_some, Option.map_eq_some_iff] at hnewest
        obtain ⟨later', hn', hkey⟩ := hnewest
        have hcreated' : later'.created_at = later.created_at := congrArg (fun k => k.2.2.1) hkey
        rw [hn']
        dsimp only
        rw [hcreated, hcreated']
        by_cases hlt : first.created_at < later.created_at
        · rw [if_pos hlt, if_pos hlt]
          exact congrArg some hkey
        · rw [if_neg hlt, if_neg hlt]
          exact congrArg some hfirst
    · have hworkable' : ¬ workable conversation_id first' = true :=
        fun h => hworkable (hsame.symm.trans h)
      rw [List.filter_cons_of_neg hworkable, List.filter_cons_of_neg hworkable']
      exact hnewest

theorem set_status_rows (hfits : Fits db task) {status : TaskStatus}
    (hopen : isOpen status = isOpen task.status) (actor : Actor) (user_id : ℕ)
    (reason : Option String) :
    let r := _set_status db task status actor user_id reason
    SameRows db r.2 ∧ rowKey r.1 = rowKey task := by
  intro r
  by_cases hsame : status = task.status
  · have heq : r = (task, db) := if_pos hsame
    rw [heq]
    exact ⟨rfl, rfl⟩
  · let next := { task with status := status, version := task.version + 1 }
    have heq : r = (next, (db.put next).logged task actor user_id
        [.status task.status status reason]) := if_neg hsame
    have hkey : rowKey next = rowKey task := by
      rw [rowKey, rowKey, hopen]
    rw [heq]
    exact ⟨(hfits.congr rfl hkey).put, hkey⟩

/-- What a session does to the task that it has loaded, seen by the query. -/
structure Held.Keeps (h h' : Held) : Prop where
  rows : SameRows h.db h'.db
  key : rowKey h'.row = rowKey h.row

theorem Held.Keeps.trans (hk : h.Keeps h') (hk' : h'.Keeps h'') : h.Keeps h'' :=
  ⟨hk.rows.trans hk'.rows, hk'.key.trans hk.key⟩

theorem Held.Keeps.fits (hk : h.Keeps h') (hfits : Fits h.db h.row) : Fits h'.db h'.row :=
  hfits.congr hk.rows hk.key

theorem Held.keeps_flush (hfits : Fits h.db h.row) : h.Keeps h.flush :=
  ⟨Fits.put (t := h.flush.row) (hfits.congr rfl rfl), rfl⟩

theorem Held.keeps_touch (hfits : Fits h.db h.row) (s : TaskState ℕ) : h.Keeps (h._touch s) :=
  ⟨Fits.put (t := (h._touch s).row) (hfits.congr rfl rfl), rfl⟩

theorem keeps_noteChanges (hfits : Fits h.db h.row) (actions : List ℕ)
    (changed : List (ℕ × String × String)) (user_id : ℕ) :
    h.Keeps (noteChanges h actions changed user_id) := by
  let touched := (h._touch { h.object.state with actions := actions }).logged .system user_id
    (changed.map fun entry => .action_status entry.1 entry.2.1 entry.2.2)
  have htouched : h.Keeps touched :=
    ⟨(Held.keeps_touch hfits { h.object.state with actions := actions }).rows, rfl⟩
  by_cases hdecided : touched.row.status = .waiting_for_approval ∧ touched.pending = false
  · have heq : noteChanges h actions changed user_id = touched._set_status .active .system user_id
        (some "drafted changes were decided") := if_pos hdecided
    have hopen : isOpen .active = isOpen touched.row.status := by
      rw [hdecided.1]
      rfl
    obtain ⟨hrows, hkey⟩ := set_status_rows (htouched.fits hfits) hopen .system user_id
      (some "drafted changes were decided")
    rw [heq]
    exact htouched.trans ⟨hrows, hkey⟩
  · have heq : noteChanges h actions changed user_id = touched := if_neg hdecided
    rw [heq]
    exact htouched

theorem keeps_refresh (hfits : Fits h.db h.row) (user_id : ℕ) :
    h.Keeps (refresh_actions h user_id) := by
  by_cases hnone : h.object.state.actions = []
  · have heq : refresh_actions h user_id = h := if_pos hnone
    rw [heq]
    exact ⟨rfl, rfl⟩
  · have hflush := Held.keeps_flush hfits
    let looped := refreshLoop h.flush.db h.flush.object.state.actions h.flush.object
    by_cases hempty : looped.2 = []
    · have heq : refresh_actions h user_id = { h.flush with object := looped.1 } :=
        (if_neg hnone).trans (if_pos hempty)
      rw [heq]
      exact ⟨hflush.rows, hflush.key⟩
    · have heq : refresh_actions h user_id = noteChanges { h.flush with object := looped.1 }
          h.flush.object.state.actions looped.2 user_id := (if_neg hnone).trans (if_neg hempty)
      have hlooped : Fits h.flush.db h.flush.row := hflush.fits hfits
      obtain ⟨hrows, hkey⟩ := keeps_noteChanges (h := { h.flush with object := looped.1 }) hlooped
        h.flush.object.state.actions looped.2 user_id
      rw [heq]
      exact hflush.trans ⟨hrows, hkey⟩

theorem refreshed_rows (hfits : Fits db task) (user_id : ℕ) :
    SameRows db (refreshed db user_id task) := by
  have hrefresh := keeps_refresh (h := .locked db task) hfits user_id
  exact (hrefresh.trans (Held.keeps_flush (hrefresh.fits hfits))).rows

theorem continued_rows (hfits : Fits db task) (user_id : ℕ) (b : Begin) (now : ℕ) :
    let r := continued db task user_id b now
    SameRows db r.2 ∧ rowKey r.1 = rowKey task := by
  intro r
  let first := if task.status = .waiting_for_user ∨ task.status = .blocked then
      _set_status db task .active .user user_id (some "the user continued")
    else (task, db)
  have hfirst : SameRows db first.2 ∧ rowKey first.1 = rowKey task := by
    by_cases hwaits : task.status = .waiting_for_user ∨ task.status = .blocked
    · have heq : first = _set_status db task .active .user user_id (some "the user continued") :=
        if_pos hwaits
      have hopen : isOpen .active = isOpen task.status := by
        rcases hwaits with hstatus | hstatus <;> rw [hstatus] <;> rfl
      rw [heq]
      exact set_status_rows hfits hopen ..
    · have heq : first = (task, db) := if_neg hwaits
      rw [heq]
      exact ⟨rfl, rfl⟩
  have hput : SameRows first.2 r.2 := Fits.put (t := r.1) (hfits.congr hfirst.1 hfirst.2)
  exact ⟨hfirst.1.trans hput, hfirst.2⟩

theorem record_rows {a : Option AITask} (env : Env) (hfits : ∀ task, a = some task → Fits db task)
    (user_id : ℕ) (call : Call) (now : ℕ) : SameRows db (record_tool env db a user_id call now) := by
  cases a with
  | none => rfl
  | some task =>
    by_cases hnothing : addsNothing env db task call now
    · rw [record_nothing fun task' h => by cases h; exact hnothing]
      rfl
    · have heq : record_tool env db (some task) user_id call now
          = (db.put (recordedRow env db task call now)).logged task .assistant user_id
            (recordedEvents env db task call now) := if_neg hnothing
      rw [heq]
      exact Fits.put (t := recordedRow env db task call now) ((hfits task rfl).congr rfl rfl)

/-! ### Updates -/

theorem ids_put (db : Tables) (t : AITask) :
    (db.put t).tasks.map AITask.id = db.tasks.map AITask.id := by
  rw [Tables.put]
  dsimp only
  rw [List.map_map]
  refine List.map_congr_left fun r _ => ?_
  rw [Function.comp_apply]
  split
  · rename_i hid
    exact hid.symm
  · rfl

theorem set_status_ids (db : Tables) (task : AITask) (status : TaskStatus) (actor : Actor)
    (user_id : ℕ) (reason : Option String) :
    (_set_status db task status actor user_id reason).2.tasks.map AITask.id
      = db.tasks.map AITask.id := by
  rw [_set_status]
  split
  · rfl
  · exact ids_put ..

theorem record_ids (env : Env) (db : Tables) (a : Option AITask) (user_id : ℕ) (call : Call)
    (now : ℕ) :
    (record_tool env db a user_id call now).tasks.map AITask.id = db.tasks.map AITask.id := by
  cases a with
  | none => rfl
  | some task =>
    rw [record_tool]
    split
    · rfl
    · exact ids_put ..

/-- The status that an update sets. -/
def newStatus (u : Update) : Option TaskStatus := (given u.status).bind settable

theorem apply_update_tables (db : Tables) (task : AITask) (user_id : ℕ) (actor : Actor) (u : Update)
    (now : ℕ) :
    let updated := (db.put (updatedRow task actor u now)).logged task actor user_id
      (updateEvents task actor u now)
    (apply_update db task user_id actor u now).2 = (newStatus u).elim updated fun status =>
      (_set_status updated (updatedRow task actor u now) status actor user_id none).2 := by
  intro updated
  rw [apply_update, newStatus]
  dsimp only
  cases hgiven : given u.status with
  | none => rfl
  | some text =>
    rw [Option.bind_some]
    dsimp only
    cases settable text with
    | none => rfl
    | some status => rfl

theorem applied_tables (db : Tables) (caller : Caller) (now : ℕ) (task : AITask) (u : Update) :
    (applied db caller now task u).2 = (apply_update db task caller.user_id .assistant u now).2 := by
  rw [applied]
  split <;> rename_i heq <;> rw [heq]

theorem updated_ids (db : Tables) (task : AITask) (user_id : ℕ) (actor : Actor) (u : Update)
    (now : ℕ) :
    (apply_update db task user_id actor u now).2.tasks.map AITask.id = db.tasks.map AITask.id := by
  rw [apply_update_tables]
  cases newStatus u with
  | none => exact ids_put ..
  | some status => exact (set_status_ids ..).trans (ids_put ..)

/-- An update that does not close an open task leaves it as the query sees it. -/
theorem updated_rows (hfits : Fits db task) (hopen : isOpen task.status = true) {u : Update}
    (hstatus : ∀ status, newStatus u = some status → isOpen status = true) (user_id : ℕ)
    (actor : Actor) (now : ℕ) : SameRows db (apply_update db task user_id actor u now).2 := by
  have hput : SameRows db (db.put (updatedRow task actor u now)) :=
    Fits.put (t := updatedRow task actor u now) (hfits.congr rfl rfl)
  rw [apply_update_tables]
  cases hnew : newStatus u with
  | none => exact hput
  | some status =>
    have hsame : isOpen status = isOpen (updatedRow task actor u now).status :=
      (hstatus status hnew).trans hopen.symm
    have hfits' : Fits (db.put (updatedRow task actor u now)) (updatedRow task actor u now) :=
      hfits.congr hput rfl
    let updated := (db.put (updatedRow task actor u now)).logged task actor user_id
      (updateEvents task actor u now)
    have hupdated : Fits updated (updatedRow task actor u now) := hfits'
    exact hput.trans (set_status_rows hupdated hsame ..).1

end Kept

/-! ## A turn -/

section Begin

variable {env : Env} {db : Tables} {conversation : AIConversation} {user_id id now : ℕ} {b : Begin}
  {own : Option AITask}

theorem get_ok {task : AITask} {task_id organization_id : ℕ}
    (h : get env db task_id organization_id user_id = .ok task) : db.task task_id = some task := by
  rw [get] at h
  cases hrow : db.task task_id with
  | none =>
    rw [hrow] at h
    cases h
  | some row =>
    rw [hrow] at h
    dsimp only at h
    by_cases hsee : ¬ _may_see env row organization_id user_id = true
    · rw [refuse, if_pos hsee] at h
      cases h
    · rw [refuse, if_neg hsee] at h
      cases h
      rfl

/-- The task that a turn starts, under a title. -/
def started (db : Tables) (conversation : AIConversation) (user_id : ℕ) (b : Begin) (id now : ℕ)
    (title : String) : AITask × Tables :=
  create db conversation user_id title (some b.message) b.agent b.connection_id .user id now

/-- A turn has no task, starts one, or continues the one that is named or the newest one. -/
theorem begin_turn_ok {begun : Tables}
    (h : begin_turn env db conversation user_id b id now = .ok (own, begun)) :
    (b.task_id = none ∧ current db conversation.id = none ∧ own = none ∧ begun = db) ∨
    (b.task_id = none ∧ ∃ title, own = some (started db conversation user_id b id now title).1 ∧
      begun = (started db conversation user_id b id now title).2) ∨
    ∃ task, (∀ task_id, b.task_id = some task_id → db.task task_id = some task) ∧
      (b.task_id = none → current db conversation.id = some task) ∧
      own = some (continued db task user_id b now).1 ∧
      begun = (continued db task user_id b now).2 := by
  -- where a task is started: a turn may ask for one, or have none to continue
  have hstarted : ∀ x, (do
      let title ← _title_from env b.message
      let created := create db conversation user_id title (some b.message) b.agent b.connection_id
        .user id now
      return (some created.1, created.2) : Except AppException (Option AITask × Tables)) = .ok x →
      ∃ title, x = (some (started db conversation user_id b id now title).1,
        (started db conversation user_id b id now title).2) := by
    intro x hx
    cases htitle : _title_from env b.message with
    | error e =>
      rw [htitle] at hx
      cases hx
    | ok title =>
      rw [htitle] at hx
      cases hx
      exact ⟨title, rfl⟩
  rw [begin_turn] at h
  dsimp only at h
  cases hnamed : b.task_id with
  | some task_id =>
    rw [hnamed] at h
    dsimp only at h
    -- a task that is named has to be the user's, and of this conversation
    cases hget : get env db task_id conversation.organization_id user_id with
    | error e =>
      rw [hget] at h
      cases h
    | ok task =>
      rw [hget] at h
      have hrow := get_ok hget
      by_cases hother : task.conversation_id ≠ conversation.id
      · simp only [bind, Except.bind, refuse, if_pos hother] at h
        cases h
      · simp only [bind, Except.bind, refuse, if_neg hother] at h
        cases h
        -- the named task goes on
        refine .inr (.inr ⟨task, fun other hsame => ?_, (fun hnone => by cases hnone), rfl, rfl⟩)
        cases hsame
        exact hrow
  | none =>
    rw [hnamed] at h
    dsimp only at h
    split at h
    · obtain ⟨title, hx⟩ := hstarted _ h
      cases hx
      exact .inr (.inl ⟨rfl, title, rfl, rfl⟩)
    · cases hcurrent : current db conversation.id with
      | some task =>
        rw [hcurrent] at h
        cases h
        -- so does the newest one that is open
        exact .inr (.inr ⟨task, (fun other hsame => by cases hsame), fun _ => rfl, rfl, rfl⟩)
      | none =>
        rw [hcurrent] at h
        dsimp only at h
        split at h
        · obtain ⟨title, hx⟩ := hstarted _ h
          cases hx
          exact .inr (.inl ⟨rfl, title, rfl, rfl⟩)
        · cases h
          exact .inl ⟨rfl, rfl, rfl, rfl⟩

/-- The rows that a turn begins with are those of `begin_turn`. -/
theorem task_for_turn_ok {begun : Tables} (hids : (db.tasks.map AITask.id).Nodup)
    (hfresh : id ∉ db.tasks.map AITask.id)
    (h : _task_for_turn env db user_id conversation b id now = .ok (own, begun)) :
    ∃ db', begin_turn env db conversation user_id b id now = .ok (own, db') ∧ SameRows db' begun ∧
      (db'.tasks.map AITask.id).Nodup := by
  cases hbegin : begin_turn env db conversation user_id b id now with
  | error e =>
    rw [_task_for_turn, hbegin] at h
    cases h
  | ok x =>
    obtain ⟨task, db'⟩ := x
    rw [_task_for_turn, hbegin] at h
    cases h
    refine ⟨db', rfl, ?_⟩
    rcases begin_turn_ok hbegin with ⟨-, -, rfl, rfl⟩ | ⟨-, title, rfl, rfl⟩ |
      ⟨task, hnamed, hnewest, rfl, rfl⟩
    -- no task, nothing to refresh
    · exact ⟨rfl, hids⟩
    -- a task that is started, under an identifier that is new
    · have htasks : (started db conversation user_id b id now title).2.tasks
          = db.tasks ++ [(started db conversation user_id b id now title).1] := rfl
      have hnodup :
          ((started db conversation user_id b id now title).2.tasks.map AITask.id).Nodup := by
        rw [htasks, List.map_append, List.nodup_append]
        refine ⟨hids, List.nodup_singleton _, fun a ha c hc heq => ?_⟩
        rw [List.map_singleton, List.mem_singleton] at hc
        rw [heq, hc] at ha
        exact hfresh ha
      refine ⟨refreshed_rows (fits_of_mem hnodup ?_) user_id, hnodup⟩
      rw [htasks]
      exact List.mem_append_right _ (List.mem_singleton.mpr rfl)
    -- one that is continued: it is a row that was there
    · have hmem : task ∈ db.tasks := by
        cases htask : b.task_id with
        | some task_id => exact List.mem_of_find?_eq_some (hnamed task_id htask)
        | none => exact (current_mem (hnewest htask)).1
      have hfits := fits_of_mem hids hmem
      obtain ⟨hrows, hkey⟩ := continued_rows hfits user_id b now
      refine ⟨refreshed_rows (hfits.congr hrows hkey) user_id, ?_⟩
      rw [hrows.ids]
      exact hids

end Begin

section Fold

variable {env : Env} {db db' : Tables} {conversation : AIConversation} {user_id : ℕ}
  {own : Option AITask}

theorem own_mem {task : AITask} (h : ownRow own db = some task) : task ∈ db.tasks := by
  obtain ⟨t, -, hrow⟩ := Option.bind_eq_some_iff.mp h
  exact List.mem_of_find?_eq_some hrow

/-- A call is recorded in the task of the turn exactly if that is the newest one, or nothing is
recorded. -/
theorem records_iff (hids : (db.tasks.map AITask.id).Nodup) (x : TurnStep) :
    RecordsOnOwn env conversation user_id own db x ↔ OwnIsNewest env conversation own db x := by
  cases x with
  | written | updated => exact Iff.rfl
  | called call now =>
    have hsame : current db conversation.id = ownRow own db ↔
        ∀ task, ownRow own db = some task ↔ IsNewest db conversation.id task := by
      simp only [← current_iff]
      constructor
      · intro heq task
        rw [heq]
      · intro hall
        exact Option.ext fun task => (hall task).symm
    have hmem : ∀ task, current db conversation.id = some task → task ∈ db.tasks :=
      fun task h => (current_mem h).1
    rw [RecordsOnOwn, OwnIsNewest, _fold_into_task, record_eq_iff hids hmem fun _ => own_mem, hsame]
    simp only [current_iff]

/-- An update that starts no task changes nothing, or updates the current task. -/
theorem execute_cases {args : UpdateArgs} {id now : ℕ}
    (h : startsOrResumes env conversation user_id db args id now = false) :
    let after := (execute env db (turnCaller conversation user_id) args id now).2
    after = db ∨ ∃ task u, (∃ conversation_id, current db conversation_id = some task) ∧
      u.status = args.status ∧ after = (apply_update db task user_id .assistant u now).2 := by
  intro after
  cases hprepared : prepared env db (turnCaller conversation user_id) args id now with
  | error answer =>
    refine .inl ?_
    show (execute ..).2 = db
    rw [execute, hprepared]
  | ok x =>
    obtain ⟨task, u, db'⟩ := x
    rw [startsOrResumes, hprepared] at h
    obtain ⟨hstatus, hwhere⟩ := prepared_ok hprepared
    rcases hwhere with ⟨hcurrent, rfl⟩ | hlonger
    · refine .inr ⟨task, u, hcurrent, hstatus, ?_⟩
      show (execute ..).2 = _
      rw [execute, hprepared]
      exact applied_tables ..
    · dsimp only at h
      rw [hlonger] at h
      exact absurd (Nat.lt_succ_self _) (of_decide_eq_false h)

/-- A turn neither adds nor removes a task after it has begun. -/
theorem turnStep_ids {x : TurnStep} (h : turnStep env conversation user_id db x = some db') :
    db'.tasks.map AITask.id = db.tasks.map AITask.id := by
  cases x with
  | written changes work_items =>
    cases h
    rfl
  | called call now =>
    cases h
    exact record_ids ..
  | updated args id now =>
    rw [turnStep] at h
    split at h
    · cases h
    · rename_i hstarts
      cases h
      rcases execute_cases (Bool.eq_false_iff.mpr hstarts) with heq | ⟨task, u, -, -, heq⟩
      · rw [heq]
      · rw [heq]
        exact updated_ids ..

/-- A step of a turn that does not close the current task. -/
def LeavesOpen : TurnStep → Prop
  | .updated args _ _ => ∀ status, newStatus args.toUpdate = some status → isOpen status = true
  | _ => True

theorem current_open {task : AITask} {conversation_id : ℕ}
    (h : current db conversation_id = some task) : isOpen task.status = true := by
  have hworkable := (current_mem h).2
  rw [workable_eq, Bool.and_eq_true] at hworkable
  exact hworkable.2

/-- Such a step leaves the tasks as the query for the newest sees them. -/
theorem turnStep_rows {x : TurnStep} (hids : (db.tasks.map AITask.id).Nodup) (hopen : LeavesOpen x)
    (h : turnStep env conversation user_id db x = some db') : SameRows db db' := by
  cases x with
  | written changes work_items =>
    cases h
    rfl
  | called call now =>
    cases h
    exact record_rows env (fun task hcurrent => fits_of_mem hids (current_mem hcurrent).1) ..
  | updated args id now =>
    rw [turnStep] at h
    split at h
    · cases h
    · rename_i hstarts
      cases h
      rcases execute_cases (Bool.eq_false_iff.mpr hstarts) with
        heq | ⟨task, u, ⟨_, hcurrent⟩, hstatus, heq⟩
      · rw [heq]
        rfl
      · have hnew : newStatus u = newStatus args.toUpdate := by rw [newStatus, newStatus, hstatus]
        rw [heq]
        refine updated_rows (fits_of_mem hids (current_mem hcurrent).1) (current_open hcurrent) ?_ ..
        rw [hnew]
        exact hopen

theorem along_records_iff {begun : Tables} (hids : (begun.tasks.map AITask.id).Nodup)
    (xs : List TurnStep) :
    Run.Along (turnStep env conversation user_id) (RecordsOnOwn env conversation user_id own)
        begun xs ↔
      Run.Along (turnStep env conversation user_id) (OwnIsNewest env conversation own) begun xs := by
  refine Run.along_iff (I := fun db => (db.tasks.map AITask.id).Nodup) (J := fun _ => True)
    (fun s x s' hs hstep => ?_) (fun s x hs _ => records_iff hs x) (fun _ _ _ _ _ _ _ => trivial)
    hids trivial
  rw [turnStep_ids hstep]
  exact hs

/-- **The calls of a turn are recorded in its own task** exactly if after each call that adds
something, the task of the turn is the newest open one of the conversation. -/
theorem folds_into_own_iff (env : Env) (conversation : AIConversation) (user_id : ℕ) {id : ℕ}
    (hids : (db.tasks.map AITask.id).Nodup) (hfresh : id ∉ db.tasks.map AITask.id) (b : Begin)
    (now : ℕ) (xs : List TurnStep) :
    FoldsIntoOwn env conversation user_id db b id now xs ↔
      ∀ own begun, _task_for_turn env db user_id conversation b id now = .ok (own, begun) →
        Run.Along (turnStep env conversation user_id) (OwnIsNewest env conversation own) begun xs := by
  refine forall_congr' fun own => forall_congr' fun begun => forall_congr' fun hbegun => ?_
  obtain ⟨db', -, hrows, hnodup⟩ := task_for_turn_ok hids hfresh hbegun
  refine along_records_iff ?_ xs
  rw [hrows.ids]
  exact hnodup

theorem SameRows.current_id (h : SameRows db db') (conversation_id : ℕ) :
    (current db' conversation_id).map AITask.id = (current db conversation_id).map AITask.id := by
  have hnewest : (newest (db'.tasks.filter (workable conversation_id))).map rowKey
      = (newest (db.tasks.filter (workable conversation_id))).map rowKey := newest_congr h
  have hkeys := congrArg (Option.map Prod.fst) hnewest
  rw [Option.map_map, Option.map_map] at hkeys
  exact hkeys

theorem task_of_mem {task : AITask} (hids : (db.tasks.map AITask.id).Nodup) (h : task ∈ db.tasks) :
    db.task task.id = some task := by
  cases hfind : db.task task.id with
  | none =>
    have hnone := List.find?_eq_none.mp hfind task h
    exact absurd rfl (of_decide_eq_false (Bool.eq_false_iff.mpr hnone))
  | some row =>
    have hmem : row ∈ db.tasks := List.mem_of_find?_eq_some hfind
    rw [List.inj_on_of_nodup_map hids hmem h (task_id_of_row hfind)]

theorem ownRow_eq_current (hids : (db.tasks.map AITask.id).Nodup)
    (h : (current db conversation.id).map AITask.id = own.map AITask.id) :
    ownRow own db = current db conversation.id := by
  cases own with
  | none =>
    rw [Option.map_none, Option.map_eq_none_iff] at h
    rw [h]
    rfl
  | some task =>
    obtain ⟨newest, hcurrent, hid⟩ := Option.map_eq_some_iff.mp h
    rw [ownRow, Option.bind_some, ← hid, hcurrent]
    exact task_of_mem hids (current_mem hcurrent).1

/-- A turn begins with the newest task, unless it names another one. -/
theorem begun_current {begun : Tables} {id now : ℕ} {b : Begin}
    (hids : (db.tasks.map AITask.id).Nodup) (hlater : ∀ task ∈ db.tasks, task.created_at < now)
    (hnewest : ∀ task_id, b.task_id = some task_id →
      ∃ task, IsNewest db conversation.id task ∧ task.id = task_id)
    (h : begin_turn env db conversation user_id b id now = .ok (own, begun)) :
    (current begun conversation.id).map AITask.id = own.map AITask.id := by
  rcases begin_turn_ok h with ⟨-, hnone, rfl, rfl⟩ | ⟨-, title, rfl, rfl⟩ |
    ⟨task, hnamed, hcurrent, rfl, rfl⟩
  · rw [hnone]
  · -- the task that is started is later than all the others
    have hstarted : current (started db conversation user_id b id now title).2 conversation.id
        = some (started db conversation user_id b id now title).1 := by
      have htasks : (started db conversation user_id b id now title).2.tasks
          = db.tasks ++ [(started db conversation user_id b id now title).1] := rfl
      have hworkable : workable conversation.id (started db conversation user_id b id now title).1
          = true := by
        simp [workable, started, create]
      rw [current_iff, IsNewest, htasks, List.filter_append, List.filter_singleton, hworkable]
      exact ⟨_, [], rfl, fun other hother => hlater other (List.mem_filter.mp hother).1, by simp⟩
    rw [hstarted]
  · have htask : current db conversation.id = some task := by
      cases hb : b.task_id with
      | none => exact hcurrent hb
      | some task_id =>
        obtain ⟨newest, hisNewest, hid⟩ := hnewest task_id hb
        have hmem := (current_mem (current_iff.mpr hisNewest)).1
        have hrow := hnamed task_id hb
        rw [← hid, task_of_mem hids hmem, Option.some.injEq] at hrow
        rw [← hrow]
        exact current_iff.mpr hisNewest
    obtain ⟨hrows, hkey⟩ := continued_rows (fits_of_mem hids (current_mem htask).1) user_id b now
    rw [hrows.current_id, htask]
    exact congrArg some (congrArg Prod.fst hkey).symm

/-- Through a turn that starts a task or continues the newest one, its task stays the newest as
long as the assistant does not close it. -/
theorem along_own_newest {begun : Tables} {id now : ℕ} {b : Begin} {xs : List TurnStep}
    (hids : (db.tasks.map AITask.id).Nodup) (hfresh : id ∉ db.tasks.map AITask.id)
    (hlater : ∀ task ∈ db.tasks, task.created_at < now)
    (hnewest : ∀ task_id, b.task_id = some task_id →
      ∃ task, IsNewest db conversation.id task ∧ task.id = task_id)
    (hopen : ∀ x ∈ xs, LeavesOpen x)
    (h : _task_for_turn env db user_id conversation b id now = .ok (own, begun)) :
    Run.Along (turnStep env conversation user_id) (OwnIsNewest env conversation own) begun xs := by
  obtain ⟨db', hbegin, hrows, hnodup⟩ := task_for_turn_ok hids hfresh h
  have hcurrent := (hrows.current_id conversation.id).trans
    (begun_current hids hlater hnewest hbegin)
  have hnodup' : (begun.tasks.map AITask.id).Nodup := by
    rw [hrows.ids]
    exact hnodup
  refine Run.along_of_invariant (I := fun db => (db.tasks.map AITask.id).Nodup ∧
      (current db conversation.id).map AITask.id = own.map AITask.id)
    (P := fun _ x => LeavesOpen x) ?_ ?_ ⟨hnodup', hcurrent⟩ (Run.along_of_forall hopen)
  · rintro s x s' ⟨hs, hown⟩ hleaves hstep
    have hsame := turnStep_rows hs hleaves hstep
    refine ⟨?_, (hsame.current_id conversation.id).trans hown⟩
    rw [hsame.ids]
    exact hs
  · rintro s x ⟨hs, hown⟩ -
    cases x with
    | written | updated => trivial
    | called call now =>
      refine .inl fun task => ?_
      rw [ownRow_eq_current hs hown, current_iff]

/-- **A turn that starts a task, or continues the newest one, records its calls in it**, as long
as the assistant does not close it. -/
theorem folds_into_own (env : Env) (user_id : ℕ) {id now : ℕ} {b : Begin} {xs : List TurnStep}
    (hids : (db.tasks.map AITask.id).Nodup) (hfresh : id ∉ db.tasks.map AITask.id)
    (hlater : ∀ task ∈ db.tasks, task.created_at < now)
    (hnewest : ∀ task_id, b.task_id = some task_id →
      ∃ task, IsNewest db conversation.id task ∧ task.id = task_id)
    (hopen : ∀ x ∈ xs, LeavesOpen x) : FoldsIntoOwn env conversation user_id db b id now xs := by
  intro own begun hbegun
  obtain ⟨db', -, hrows, hnodup⟩ := task_for_turn_ok hids hfresh hbegun
  have hnodup' : (begun.tasks.map AITask.id).Nodup := by
    rw [hrows.ids]
    exact hnodup
  exact (along_records_iff hnodup' xs).mpr
    (along_own_newest hids hfresh hlater hnewest hopen hbegun)

end Fold

/-! ### An older task that is resumed -/

def salesConversation : AIConversation := ⟨3, 1, 2⟩

/-- Sales is read. -/
def readSales : Call where
  name := "get_cube"
  arguments := [("cube_name", "Sales")]

/-- The one task is continued. -/
def goOn : Begin := ⟨"And the feeders?", none, none, true, false, none⟩

theorem goOn_folds : FoldsIntoOwn plainEnv salesConversation 2 oneTask goOn 11 5
    [.called readSales 6] :=
  (folds_into_own_iff plainEnv salesConversation 2 (by decide) (by decide) goOn 5
    [.called readSales 6]).mpr fun _ _ hbegun =>
      along_own_newest (by decide) (by decide) (by decide) (fun _ hnamed => by cases hnamed)
        (fun x hx => by rw [List.mem_singleton.mp hx]; trivial) hbegun

/-- A second task of the conversation. -/
def twoTasks : Tables :=
  { oneTask with tasks := [marginTask, { marginTask with id := 11, title := "Tax", created_at := 1 }] }

/-- The older one is resumed. -/
def backToMargin : Begin := ⟨"Back to the margin.", none, none, true, false, some 10⟩

theorem backToMargin_not_folded : ¬ FoldsIntoOwn plainEnv salesConversation 2 twoTasks backToMargin
    12 5 [.called readSales 6] := by
  have hdiffer : ((_task_for_turn plainEnv twoTasks 2 salesConversation backToMargin 12 5).toOption.map
      fun first =>
        ((_fold_into_task plainEnv first.2 3 2 readSales 6).events.map AITaskEvent.task_id,
          (record_tool plainEnv first.2 (ownRow first.1 first.2) 2 readSales 6).events.map
            AITaskEvent.task_id)) = some ([11], [10]) := by
    decide +kernel
  intro h
  cases hbegun : _task_for_turn plainEnv twoTasks 2 salesConversation backToMargin 12 5 with
  | error e =>
    rw [hbegun] at hdiffer
    cases hdiffer
  | ok x =>
    obtain ⟨own, begun⟩ := x
    rw [hbegun] at hdiffer
    obtain ⟨hfolded, hown⟩ := Prod.mk.inj (Option.some.inj hdiffer)
    have hsame : _fold_into_task plainEnv begun 3 2 readSales 6
        = record_tool plainEnv begun (ownRow own begun) 2 readSales 6 := (h own begun hbegun).1
    rw [hsame, hown] at hfolded
    cases hfolded

end PaCopilot.task_memory
