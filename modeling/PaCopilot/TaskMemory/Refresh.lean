/-
The statuses of drafted changes, read back into a task: `refresh_actions` and the two ends of a
turn, `_task_for_turn` of `ai/orchestrator.py` and `end_turn`.

`state` is one JSON value. In the memory of a session its actions are dictionaries, which a
shallow copy of the state shares with the value it is a copy of. A flush writes the value only
if it is not equal to the one it replaced, and a query flushes first.
-/
import PaCopilot.TaskMemory.Update

set_option autoImplicit false

namespace PaCopilot.task_memory

/-! ## A value in memory -/

/-- The attribute `state` of a task that is loaded: the dictionaries of the actions, its value,
which refers to them, and the value that it has replaced since the last flush. -/
structure Loaded where
  dicts : List TaskAction
  state : TaskState ℕ
  replaced : Option (TaskState ℕ) := none
  deriving DecidableEq

/-- A state with other actions. -/
def TaskState.withActions {α β : Type} (s : TaskState α) (actions : List β) : TaskState β :=
  { s with actions := actions }

namespace Loaded

variable (o : Loaded)

/-- The JSON that a value says. -/
def value (s : TaskState ℕ) : TaskState TaskAction :=
  s.withActions (s.actions.filterMap fun ref => o.dicts[ref]?)

/-- A value that is read from the database. -/
def load (stored : TaskState TaskAction) : Loaded :=
  ⟨stored.actions, stored.withActions (List.range stored.actions.length), none⟩

/-- `task.state = s`. -/
def assign (s : TaskState ℕ) : Loaded :=
  { o with state := s, replaced := some (o.replaced.getD o.state) }

/-- `action["status"] = status`. -/
def setStatus (ref : ℕ) (status : String) : Loaded :=
  { o with dicts := o.dicts.modify ref fun a => { a with status := status } }

/-- What is in the database after a flush. -/
def flushed (stored : TaskState TaskAction) : TaskState TaskAction :=
  match o.replaced with
  | none => stored
  | some old => if o.value o.state = o.value old then stored else o.value o.state

end Loaded

/-- A task that a session has loaded: what the transaction has written, the row, and the value
of its `state`. The other columns are written as they are set. -/
structure Held where
  db : Tables
  row : AITask
  object : Loaded

namespace Held

variable (h : Held)

/-- `_locked`: the row is read again. -/
def locked (db : Tables) (row : AITask) : Held := ⟨db, row, .load row.state⟩

def flush : Held :=
  let row := { h.row with state := h.object.flushed h.row.state }
  ⟨h.db.put row, row, { h.object with replaced := none }⟩

/-- `_touch`. -/
def _touch (s : TaskState ℕ) : Held :=
  let row := { h.row with version := h.row.version + 1 }
  ⟨h.db.put row, row, h.object.assign s⟩

/-- `_event`, for each of several. -/
def logged (actor : Actor) (user_id : ℕ) (data : List EventData) : Held :=
  { h with db := h.db.logged h.row actor user_id data }

def _set_status (status : TaskStatus) (actor : Actor) (user_id : ℕ)
    (reason : Option String := none) : Held :=
  let (row, db) := task_memory._set_status h.db h.row status actor user_id reason
  { h with db := db, row := row }

/-- An action of the task is a draft. -/
def pending : Bool := (h.object.value h.object.state).actions.any fun a => a.status = "draft"

end Held

/-! ## `refresh_actions` -/

/-- The loop over the actions: the dictionaries after it, and what changed. -/
def refreshLoop (db : Tables) : List ℕ → Loaded → Loaded × List (ℕ × String × String)
  | [], o => (o, [])
  | ref :: refs, o =>
    match o.dicts[ref]? with
    | none => refreshLoop db refs o
    | some action =>
      match db.change action.change_id with
      | none => refreshLoop db refs o
      | some change =>
        if change.status.text = action.status then refreshLoop db refs o
        else
          let (o, changed) := refreshLoop db refs (o.setStatus ref change.status.text)
          (o, (action.change_id, action.status, change.status.text) :: changed)

/-- The end of `refresh_actions`, where statuses have changed. -/
def noteChanges (h : Held) (actions : List ℕ) (changed : List (ℕ × String × String))
    (user_id : ℕ) : Held :=
  let h := (h._touch { h.object.state with actions := actions }).logged .system user_id
    (changed.map fun (change_id, before, after) => .action_status change_id before after)
  if h.row.status = .waiting_for_approval ∧ h.pending = false then
    h._set_status .active .system user_id (some "drafted changes were decided")
  else h

def refresh_actions (h : Held) (user_id : ℕ) : Held :=
  if h.object.state.actions = [] then h
  else
    -- the query for the changes flushes what is pending
    let h := h.flush
    let actions := h.object.state.actions
    let looped := refreshLoop h.db actions h.object
    if looped.2 = [] then { h with object := looped.1 }
    else noteChanges { h with object := looped.1 } actions looped.2 user_id

/-! ## The two ends of a turn -/

section Turn

variable (env : Env) (db : Tables) (user_id : ℕ)

/-- The task of a turn is refreshed, and what is pending is written. -/
def refreshed (task : AITask) : Tables := (refresh_actions (.locked db task) user_id).flush.db

/-- The task that a turn continues or starts, and the tables by the first answer of the model. -/
def _task_for_turn (conversation : AIConversation) (b : Begin) (id now : ℕ) :
    Except AppException (Option AITask × Tables) := do
  let (task, db) ← begin_turn env db conversation user_id b id now
  return (task, task.elim db fun task => refreshed db user_id task)

/-- The first part of `end_turn`: the opening of the answer is kept. -/
def answered (h : Held) (user_id : ℕ) (answer : Option String) (now : ℕ) : Held :=
  match spoken answer with
  | none => h
  | some answer =>
    (h._touch { h.object.state with last_answer := some (_cut answer 600, now) }).logged .assistant
      user_id [.answer (_cut answer 2000)]

def end_turn (task : AITask) (answer : Option String) (now : ℕ) : Tables :=
  let h := refresh_actions (answered (.locked db task) user_id answer now) user_id
  let h := if h.row.status = .active then
      h._set_status (if h.pending then .waiting_for_approval else .waiting_for_user) .system user_id
    else h
  h.flush.db

end Turn

end PaCopilot.task_memory
