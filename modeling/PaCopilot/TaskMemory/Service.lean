/-
The working state of a job, `services/task_memory_service.py`, and the tool that updates it,
`ai/tools/task_memory.py`.

A turn works on the row that it reads: the lock of `_locked` is held until the transaction
ends. What a call writes before it raises stays written, so that every operation returns the
tables next to what it answers. The audit log is left out.
-/
import PaCopilot.TaskMemory.Row
import PaCopilot.Tm1.Rules.Parser

set_option autoImplicit false

namespace PaCopilot.task_memory

open Python (afterWord)

/-- What the service asks of others: `str.isalnum`, `str.lower`, `uuid.UUID` of a text,
`tm1_integration_service.may_access` for a connection and a user, with a connection that is gone
for allowed, and whether a user has the permission `ai.chat`. -/
structure Env where
  isalnum : Char → Bool
  lower : String → String
  UUID : String → Option ℕ
  may_access : ℕ → ℕ → Bool
  user_has_permission : ℕ → Bool

/-! ## The beginning of a message -/

/-- The words of `NEW_TASK`, up to the word boundary. -/
def newTaskWords (s : List Char) : Option (List Char) :=
  (afterWord "new task".toList s).or do
    let rest ← afterWord "start ".toList s
    afterWord "new task".toList ((afterWord "a ".toList rest).getD rest)

/-- `NEW_TASK`: what follows the words that open a new task. -/
def NEW_TASK (env : Env) (s : List Char) : Option (List Char) := do
  let rest ← newTaskWords (s.dropWhile Python.isspace)
  if rest.head?.any fun c => env.isalnum c || c = '_' then none
  else some (rest.dropWhile fun c => Python.isspace c || c ∈ [':', ',', '.', '-'])

/-- `_title_from`: the first line of a message. There is none after the words alone. -/
def _title_from (env : Env) (message : String) : Except AppException String := do
  let stripped := Python.strip message.toList
  let line ← if stripped.isEmpty then pure []
    else match rules.splitlines ((NEW_TASK env stripped).getD stripped) with
      | line :: _ => pure line
      | [] => .error (PythonError "IndexError")
  return (given (some (_cut (String.ofList line) 120))).getD "Untitled task"

section Service

variable (env : Env) (db : Tables)

/-! ## Access -/

def _may_see (task : AITask) (organization_id user_id : ℕ) : Bool :=
  task.organization_id = organization_id && task.user_id = user_id &&
    task.connection_id.all fun connection => env.may_access connection user_id

def get (task_id organization_id user_id : ℕ) : Except AppException AITask :=
  match db.task task_id with
  | none => .error (NotFoundException "Task not found.")
  | some task => do
    refuse (¬ _may_see env task organization_id user_id) (NotFoundException "Task not found.")
    return task

/-! ## A task, and the current one -/

/-- `create`, under a new identifier. -/
def create (conversation : AIConversation) (user_id : ℕ) (title : String)
    (objective agent : Option String) (connection_id : Option ℕ) (actor : Actor) (id now : ℕ) :
    AITask × Tables :=
  let task : AITask :=
    { id := id
      organization_id := conversation.organization_id
      user_id := user_id
      conversation_id := conversation.id
      title := _cut title 200
      objective := given (objective.map fun text => _cut text 2000)
      agent := agent
      connection_id := connection_id
      last_turn_at := some now
      created_at := now }
  (task, { db with tasks := db.tasks ++ [task] }.logged task actor user_id
    [.created task.title task.objective])

/-- A task of a conversation that is worked on: neither archived nor cancelled. -/
def workable (conversation_id : ℕ) (task : AITask) : Bool :=
  task.conversation_id = conversation_id && task.status ≠ .archived && task.status ≠ .cancelled

/-- `ORDER BY created_at DESC LIMIT 1`. -/
def newest : List AITask → Option AITask
  | [] => none
  | task :: rest =>
    match newest rest with
    | none => some task
    | some later => if task.created_at < later.created_at then some later else some task

def current (conversation_id : ℕ) : Option AITask :=
  newest (db.tasks.filter (workable conversation_id))

/-- `_set_status`, of a status that there is. -/
def _set_status (task : AITask) (status : TaskStatus) (actor : Actor) (user_id : ℕ)
    (reason : Option String := none) : AITask × Tables :=
  if status = task.status then (task, db)
  else
    let next := { task with status := status, version := task.version + 1 }
    (next, (db.put next).logged task actor user_id [.status task.status status reason])

/-- What a turn is begun with. -/
structure Begin where
  message : String
  agent : Option String
  connection_id : Option ℕ
  tools : Bool
  new_task : Bool := false
  task_id : Option ℕ := none

/-- The end of `begin_turn`, for a task that was there. -/
def continued (task : AITask) (user_id : ℕ) (b : Begin) (now : ℕ) : AITask × Tables :=
  let (task, db) :=
    if task.status = .waiting_for_user ∨ task.status = .blocked then
      _set_status db task .active .user user_id (some "the user continued")
    else (task, db)
  let task := { task with
    agent := (given task.agent).or b.agent
    connection_id := task.connection_id.or b.connection_id
    last_turn_at := some now }
  (task, db.put task)

def begin_turn (conversation : AIConversation) (user_id : ℕ) (b : Begin) (id now : ℕ) :
    Except AppException (Option AITask × Tables) :=
  let started : Except AppException (Option AITask × Tables) := do
    let title ← _title_from env b.message
    let (task, db) := create db conversation user_id title (some b.message) b.agent b.connection_id
      .user id now
    return (some task, db)
  match b.task_id with
  | some task_id => do
    let task ← get env db task_id conversation.organization_id user_id
    refuse (task.conversation_id ≠ conversation.id)
      (ValidationException "That task belongs to another conversation.")
    let (task, db) := continued db task user_id b now
    return (some task, db)
  | none =>
    if b.new_task || (NEW_TASK env b.message.toList).isSome then started
    else match current db conversation.id with
      | some task =>
        let (task, db) := continued db task user_id b now
        .ok (some task, db)
      -- a conversation without tools does not start one by itself
      | none => if b.tools then started else .ok (none, db)

/-! ## What a tool call leaves -/

/-- What is read of the result of a tool. -/
structure Parsed where
  draft_change_id : Option ℕ := none
  status : Option String := none
  work_item_id : Option ℕ := none
  reference : Option String := none
  deriving DecidableEq

/-- A successful call, with the arguments that are texts. -/
structure Call where
  name : String
  arguments : List (String × String)
  parsed : Parsed := {}
  deriving DecidableEq

/-- `OBJECT_KEYS`. -/
def OBJECT_KEYS : List (String × String) :=
  [ ("cube_name", "cubes"), ("source_cube", "cubes"), ("target_cube", "cubes"),
    ("dimension_name", "dimensions"), ("hierarchy_name", "dimensions"),
    ("process_name", "processes"), ("source_process", "processes"),
    ("new_process_name", "processes"), ("chore_name", "chores"), ("view_name", "views"),
    ("subset_name", "subsets") ]

/-- `SELF_TOOLS`. -/
def SELF_TOOLS : List String := ["update_task_memory", "search_task_memory"]

/-- A text that is not blank. -/
def spoken (text : Option String) : Option String :=
  text.filter fun s => !(Python.strip s.toList).isEmpty

/-- The objects that a call names, in the order in which they are looked for. -/
def named (call : Call) : List TaskObject :=
  (OBJECT_KEYS.filterMap fun (key, kind) =>
    (spoken (call.arguments.lookup key)).map fun name => ⟨kind, _cut name 120⟩) ++
  (if "propose_".toList.isPrefixOf call.name.toList then
    (spoken (call.arguments.lookup "target_name")).toList.map fun name =>
      ⟨if call.name ∈ ["propose_rule_update", "propose_cell_write", "propose_view"] then "cubes"
        else "processes", _cut name 120⟩
  else [])

def objectKey (o : TaskObject) : String × String := (o.type, env.lower o.name)

/-- The loop over the named objects: the list after it, and what it added. -/
def addObjects (known : List TaskObject) : List TaskObject → List TaskObject × List TaskObject
  | [] => (known, [])
  | item :: rest =>
    if known.any fun old => objectKey env old = objectKey env item then addObjects known rest
    else
      let (known, added) := addObjects (add 15 known item) rest
      (known, item :: added)

/-- The action of a call that drafted a change. -/
def actionOf (call : Call) (now : ℕ) : Option TaskAction :=
  call.parsed.draft_change_id.map fun change_id =>
    let change := db.change change_id
    { change_id := change_id
      tool := call.name
      change_type := change.map TM1Change.change_type
      target := (given (change.map TM1Change.target_name)).or
        ((given (call.arguments.lookup "cube_name")).or
          ((given (call.arguments.lookup "process_name")).or (call.arguments.lookup "target_name")))
      status := (change.map fun c => c.status.text).getD ((given call.parsed.status).getD "draft")
      at_ := now }

/-- The action, where the task does not have it. -/
def newAction (task : AITask) (call : Call) (now : ℕ) : Option TaskAction :=
  (actionOf db call now).filter fun action =>
    !(task.state.actions.any fun old => old.change_id = action.change_id)

/-- The work item of a call. -/
def workItemOf (task : AITask) (call : Call) : Option ℕ :=
  call.parsed.work_item_id.or
    (if call.name ∈ ["save_work_item", "link_change_to_work_item"] then do
      let reference ← given call.parsed.reference
      let found ← db.work_items.find? fun w =>
        w.organization_id = task.organization_id && w.reference = reference
      return found.id
    else none)

/-- The work item, where the task has none. -/
def newWorkItem (task : AITask) (call : Call) : Option ℕ :=
  (workItemOf db task call).filter fun _ => task.work_item_id.isNone

/-- The row of a task after a call. -/
def recordedRow (task : AITask) (call : Call) (now : ℕ) : AITask :=
  { task with
    state := { task.state with
      objects := (addObjects env task.state.objects (named call)).1
      actions := (newAction db task call now).elim task.state.actions
        (addNew 25 TaskAction.change_id task.state.actions) }
    work_item_id := (newWorkItem db task call).or task.work_item_id
    version := task.version + 1 }

/-- The events of a call. -/
def recordedEvents (task : AITask) (call : Call) (now : ℕ) : List EventData :=
  let added := (addObjects env task.state.objects (named call)).2
  (if added = [] then [] else [.objects added call.name])
    ++ (newAction db task call now).toList.map .action
    ++ (newWorkItem db task call).toList.map .linked

/-- A call has nothing to add to a task. -/
def addsNothing (task : AITask) (call : Call) (now : ℕ) : Prop :=
  call.name ∈ SELF_TOOLS ∨ recordedEvents env db task call now = []

instance (task : AITask) (call : Call) (now : ℕ) : Decidable (addsNothing env db task call now) :=
  inferInstanceAs (Decidable (_ ∨ _))

def record_tool (task : Option AITask) (user_id : ℕ) (call : Call) (now : ℕ) : Tables :=
  match task with
  | none => db
  | some task =>
    if addsNothing env db task call now then db
    else (db.put (recordedRow env db task call now)).logged task .assistant user_id
      (recordedEvents env db task call now)

/-- `_fold_into_task`: after each successful call of a tool. -/
def _fold_into_task (conversation_id user_id : ℕ) (call : Call) (now : ℕ) : Tables :=
  record_tool env db (current db conversation_id) user_id call now

end Service

section Current

variable {db : Tables} {task : AITask} {tasks : List AITask}

theorem newest_cases (task : AITask) (rest : List AITask) :
    newest (task :: rest) = some task ∨ newest (task :: rest) = newest rest := by
  rw [newest]
  cases newest rest with
  | none => exact .inl rfl
  | some later =>
    dsimp only
    by_cases hlater : task.created_at < later.created_at
    · rw [if_pos hlater]
      exact .inr rfl
    · rw [if_neg hlater]
      exact .inl rfl

theorem newest_mem (h : newest tasks = some task) : task ∈ tasks := by
  induction tasks with
  | nil => cases h
  | cons first rest ih =>
    rcases newest_cases first rest with heq | heq
    · rw [heq] at h
      cases h
      exact List.mem_cons_self
    · rw [heq] at h
      exact List.mem_cons_of_mem _ (ih h)

theorem current_mem {conversation_id : ℕ} (h : current db conversation_id = some task) :
    task ∈ db.tasks ∧ workable conversation_id task = true :=
  List.mem_filter.mp (newest_mem h)

end Current

end PaCopilot.task_memory
