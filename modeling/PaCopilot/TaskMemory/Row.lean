/-
Task memory: the rows of `ai_tasks` and `ai_task_events` (`database/models/ai_task.py`).

The JSON of `state` is a record. A list that is empty here is one whose key is absent there:
nothing stores an empty one.
-/
import PaCopilot.Change.Row
import PaCopilot.Errors
import PaCopilot.Python

set_option autoImplicit false

namespace PaCopilot.task_memory

/-! ## A task -/

/-- `STATUSES`. -/
inductive TaskStatus
  | active
  | waiting_for_user
  | waiting_for_approval
  | blocked
  | completed
  | failed
  | cancelled
  | archived
  deriving DecidableEq

def TaskStatus.text : TaskStatus → String
  | .active => "active"
  | .waiting_for_user => "waiting_for_user"
  | .waiting_for_approval => "waiting_for_approval"
  | .blocked => "blocked"
  | .completed => "completed"
  | .failed => "failed"
  | .cancelled => "cancelled"
  | .archived => "archived"

/-- `SETTABLE`. -/
def SETTABLE : List TaskStatus :=
  [.active, .waiting_for_user, .blocked, .completed, .failed, .cancelled, .archived]

/-- The settable status that a text names. -/
def settable (status : String) : Option TaskStatus := SETTABLE.find? fun s => s.text = status

inductive Actor
  | user
  | assistant
  | system
  deriving DecidableEq

structure TaskObject where
  type : String
  name : String
  deriving DecidableEq

/-- An item of `findings`, `decisions` or `blockers`. -/
structure Note where
  text : String
  at_ : ℕ
  by_ : Actor
  deriving DecidableEq

/-- An item of `actions`. -/
structure TaskAction where
  change_id : ℕ
  tool : String
  change_type : Option ChangeType
  target : Option String
  status : String
  at_ : ℕ
  deriving DecidableEq

/-- `state`. In the memory of a session the items of `actions` are references. -/
structure TaskState (Action : Type) where
  objects : List TaskObject := []
  findings : List Note := []
  decisions : List Note := []
  blockers : List Note := []
  actions : List Action := []
  next_step : Option String := none
  last_answer : Option (String × ℕ) := none
  resumed_from : Option ℕ := none
  deriving DecidableEq

structure AITask where
  id : ℕ
  organization_id : ℕ
  user_id : ℕ
  conversation_id : ℕ
  work_item_id : Option ℕ := none
  connection_id : Option ℕ := none
  agent : Option String := none
  title : String
  objective : Option String := none
  status : TaskStatus := .active
  state : TaskState TaskAction := {}
  version : ℕ := 1
  last_turn_at : Option ℕ := none
  created_at : ℕ
  deriving DecidableEq

/-! ## Its events -/

/-- The data of an event, by its kind. -/
inductive EventData
  | created (title : String) (objective : Option String)
  | objects (added : List TaskObject) (tool : String)
  | finding (note : Note)
  | decision (note : Note)
  | blocker (note : Note)
  | next_step (note : Note)
  | action (action : TaskAction)
  | action_status (change_id : ℕ) (before after : String)
  | status (before after : TaskStatus) (reason : Option String)
  | linked (work_item_id : ℕ)
  | title (before after : String)
  | objective (before : Option String) (after : String)
  | answer (text : String)
  deriving DecidableEq

structure AITaskEvent where
  organization_id : ℕ
  task_id : ℕ
  data : EventData
  actor : Actor
  user_id : ℕ
  deriving DecidableEq

structure AIConversation where
  id : ℕ
  organization_id : ℕ
  user_id : ℕ
  deriving DecidableEq

/-- What is read of a work item. -/
structure WorkItemRef where
  id : ℕ
  organization_id : ℕ
  reference : String
  deriving DecidableEq

/-- What a session reads and writes. A turn keeps it when its transaction commits. -/
structure Tables where
  tasks : List AITask
  events : List AITaskEvent := []
  conversations : List AIConversation := []
  changes : List TM1Change := []
  work_items : List WorkItemRef := []

namespace Tables

variable (db : Tables)

/-- `db.get(AITask, task_id)`. -/
def task (task_id : ℕ) : Option AITask := db.tasks.find? fun t => t.id = task_id

/-- `db.get(TM1Change, change_id)`. -/
def change (change_id : ℕ) : Option TM1Change := db.changes.find? fun c => c.id = change_id

/-- The row of a task is written. -/
def put (t : AITask) : Tables :=
  { db with tasks := db.tasks.map fun r => if r.id = t.id then t else r }

/-- `_event`, for each of several. -/
def logged (t : AITask) (actor : Actor) (user_id : ℕ) (data : List EventData) : Tables :=
  { db with events := db.events ++ data.map fun d => ⟨t.organization_id, t.id, d, actor, user_id⟩ }

@[simp] theorem tasks_logged (t : AITask) (actor : Actor) (user_id : ℕ) (data : List EventData) :
    (db.logged t actor user_id data).tasks = db.tasks := rfl

end Tables

/-! ## Texts and lists -/

/-- `text or None`. -/
def given (text : Option String) : Option String := text.filter (· ≠ "")

def TEXT_LIMIT : ℕ := 400

/-- `_cut`. -/
def _cut (text : String) (limit : ℕ := TEXT_LIMIT) : String :=
  let text := Python.squeeze text
  if text.length ≤ limit then text
  else String.ofList (text.toList.take (limit - 1) ++ ['…'])

/-- `items[-n:]`. -/
def lastOf {α : Type} (n : ℕ) (items : List α) : List α := items.drop (items.length - n)

/-- `_add`, of an item that has no key. -/
def add {α : Type} (keep : ℕ) (items : List α) (item : α) : List α := lastOf keep (items ++ [item])

/-- `_add`, of an item with a key: nothing is added under a key that is there. -/
def addNew {α κ : Type} [DecidableEq κ] (keep : ℕ) (key : α → κ) (items : List α) (item : α) :
    List α :=
  if items.any fun old => key old = key item then items else add keep items item

end PaCopilot.task_memory
