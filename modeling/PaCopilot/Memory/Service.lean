/-
Engineering memory, `services/engineering_memory_service.py`: what an organization knows, in
versions.

Every operation reads the table in its own session and says what it will write of it, or
raises. The permission is looked up in the tables of roles, before the row is read.
-/
import PaCopilot.Auth.Permissions
import PaCopilot.Reports.Execution
import PaCopilot.Python
import Mathlib.Data.List.Sort

set_option autoImplicit false

namespace PaCopilot.engineering_memory_service

open reports (Time column)

/-! ## The table -/

inductive MemoryStatus
  | proposed
  | approved
  | rejected
  | archived
  deriving DecidableEq

def MemoryStatus.value : MemoryStatus → String
  | .proposed => "proposed"
  | .approved => "approved"
  | .rejected => "rejected"
  | .archived => "archived"

inductive Source
  | human
  | ai
  deriving DecidableEq

structure EngineeringMemory where
  id : ℕ
  organization_id : ℕ
  connection_id : Option ℕ
  object_type : Option String
  object_name : Option String
  kind : String
  text : String
  status : MemoryStatus
  source : Source
  version : ℕ
  supersedes : Option ℕ
  created_by : ℕ
  decided_by : Option ℕ
  decided_at : Option Time
  rationale : Option String
  updated_at : Time
  deriving DecidableEq

/-- The rows, and the identifier of the next one. -/
structure Memories where
  rows : List EngineeringMemory := []
  next_id : ℕ := 0
  deriving DecidableEq

/-- INSERT, under a new identifier. -/
def Memories.add (memories : Memories) (memory : ℕ → EngineeringMemory) : Memories where
  rows := memories.rows ++ [memory memories.next_id]
  next_id := memories.next_id + 1

/-- UPDATE of the row with an identifier. -/
def Memories.update (memories : Memories) (id : ℕ)
    (f : EngineeringMemory → EngineeringMemory) : Memories :=
  { memories with rows := memories.rows.map fun memory => if memory.id = id then f memory else memory }

/-- `db.get(EngineeringMemory, memory_id)`. -/
def Memories.find (memories : Memories) (id : ℕ) : Option EngineeringMemory :=
  memories.rows.find? fun memory => memory.id = id

/-! ## The operations -/

def KINDS : List String := ["convention", "sequence", "caution", "known_issue", "note"]

def OBJECT_TYPES : List String := ["cube", "dimension", "process", "chore", "rule"]

def MAX_TEXT : ℕ := 1000

/-- Approved memories put in one conversation's context. -/
def MAX_IN_PROMPT : ℕ := 40

/-- `(s or "").strip()`. -/
def stripped (s : Option String) : String := String.ofList (Python.strip (s.getD "").toList)

/-- `s or None`. -/
def orNone (s : String) : Option String := if s = "" then none else some s

def _can_vouch (auth : AuthDb) (user_id : ℕ) : Except AppException Bool :=
  auth_repository.user_has_permission auth user_id "knowledge.write"

def _validate (kind text : String) (object_type : Option String) : Except AppException String := do
  refuse (kind ∉ KINDS) (ValidationException
    ("kind must be one of: " ++ ", ".intercalate KINDS ++ "."))
  refuse (∃ type ∈ object_type, type ∉ OBJECT_TYPES) (ValidationException
    ("object_type must be one of: " ++ ", ".intercalate OBJECT_TYPES ++ "."))
  let text := stripped (some text)
  refuse (text = "") (ValidationException "A memory needs some text.")
  refuse (text.length > MAX_TEXT) (ValidationException
    s!"Keep a memory under {MAX_TEXT} characters; split it if needed.")
  return text

/-- The arguments of `create`. -/
structure MemoryCreate where
  organization_id : ℕ
  kind : String
  text : String
  source : Source
  connection_id : Option ℕ := none
  object_type : Option String := none
  object_name : Option String := none
  rationale : Option String := none

section Operations

variable (auth : AuthDb) (now : Time) (user_id : ℕ) (memories : Memories)

/-- The row of a new memory. -/
def created (request : MemoryCreate) (text : String) (vouched : Bool) (id : ℕ) :
    EngineeringMemory where
  id := id
  organization_id := request.organization_id
  connection_id := request.connection_id
  object_type := request.object_type
  object_name := orNone (stripped request.object_name)
  kind := request.kind
  text := text
  status := if vouched then .approved else .proposed
  source := request.source
  version := 1
  supersedes := none
  created_by := user_id
  decided_by := if vouched then some user_id else none
  decided_at := if vouched then some now else none
  rationale := orNone (String.ofList ((stripped request.rationale).toList.take 2000))
  updated_at := now

/-- `source == "human" and await self._can_vouch(db, user_id)`. -/
def vouchedFor (source : Source) : Except AppException Bool :=
  if source = .human then _can_vouch auth user_id else .ok false

def create (request : MemoryCreate) : Except AppException (Memories → Memories) := do
  let text ← _validate request.kind request.text request.object_type
  let vouched ← vouchedFor auth user_id request.source
  return fun stored => stored.add (created now user_id request text vouched)

def get (memory_id organization_id : ℕ) : Except AppException EngineeringMemory :=
  match memories.find memory_id with
  | none => .error (NotFoundException "Memory not found.")
  | some memory =>
    if memory.organization_id ≠ organization_id then .error (NotFoundException "Memory not found.")
    else .ok memory

/-- The columns that `decide` changed of the row it read, over the row as it is. -/
def decided (approve : Bool) (read stored : EngineeringMemory) : EngineeringMemory :=
  { stored with
    status := column read.status (if approve then .approved else .rejected) stored.status
    decided_by := column read.decided_by (some user_id) stored.decided_by
    decided_at := column read.decided_at (some now) stored.decided_at
    updated_at := now }

def decide (memory_id organization_id : ℕ) (approve : Bool) :
    Except AppException (Memories → Memories) := do
  let vouches ← _can_vouch auth user_id
  refuse (vouches = false)
    (PermissionDeniedException "Approving memory needs the knowledge.write permission.")
  let memory ← get memories memory_id organization_id
  refuse (memory.status ≠ .proposed)
    (ConflictException s!"This memory is already {memory.status.value}.")
  return fun stored => stored.update memory.id (decided now user_id approve memory)

/-- The row that is archived. -/
def put_away (stored : EngineeringMemory) : EngineeringMemory :=
  { stored with status := .archived, updated_at := now }

/-- The new version. -/
def version_after (old : EngineeringMemory) (kind text : String) (id : ℕ) :
    EngineeringMemory where
  id := id
  organization_id := old.organization_id
  connection_id := old.connection_id
  object_type := old.object_type
  object_name := old.object_name
  kind := kind
  text := text
  status := .approved
  source := .human
  version := old.version + 1
  supersedes := some old.id
  created_by := user_id
  decided_by := some user_id
  decided_at := some now
  rationale := none
  updated_at := now

def edit (memory_id organization_id : ℕ) (text : String) (kind : Option String) :
    Except AppException (Memories → Memories) := do
  let vouches ← _can_vouch auth user_id
  refuse (vouches = false)
    (PermissionDeniedException "Editing memory needs the knowledge.write permission.")
  let old ← get memories memory_id organization_id
  refuse (old.status ≠ .approved) (ConflictException
    "Only an approved memory can be edited; approve or reject a proposal first.")
  let new_kind := (kind.bind orNone).getD old.kind
  let text ← _validate new_kind text old.object_type
  return fun stored =>
    (stored.update old.id (put_away now)).add (version_after now user_id old new_kind text)

/-- `archive`. It returns a memory that is archived already without writing it. -/
def archive (memory_id organization_id : ℕ) : Except AppException (Option (Memories → Memories)) := do
  let vouches ← _can_vouch auth user_id
  refuse (vouches = false)
    (PermissionDeniedException "Archiving memory needs the knowledge.write permission.")
  let memory ← get memories memory_id organization_id
  if memory.status = .archived then return none
  else return some fun stored => stored.update memory.id (put_away now)

end Operations

/-! ## What the assistant is told -/

section Prompt

variable (memories : Memories) (organization_id : ℕ) (connection_ids : List ℕ)

/-- The query of `prompt_block`. -/
def inPrompt : List EngineeringMemory :=
  let asked := memories.rows.filter fun memory => memory.organization_id = organization_id
    && memory.status = .approved && memory.connection_id.all fun id => id ∈ connection_ids
  (asked.insertionSort fun m n => n.updated_at ≤ m.updated_at).take MAX_IN_PROMPT

variable (isoDate : Time → String)

/-- The line of a memory. A date that is missing cannot be formatted. -/
def line (memory : EngineeringMemory) : Except AppException String :=
  let about := match memory.object_type.bind orNone, memory.object_name.bind orNone with
    | some object_type, some object_name => s!" [{object_type} {object_name}]"
    | _, _ => ""
  match memory.decided_at with
  | none => .error (PythonError "TypeError")
  | some decided_at =>
    .ok s!"- ({memory.kind}){about} {memory.text} — approved {isoDate decided_at}"

def prompt_block : Except AppException (Option String) := do
  let memories := inPrompt memories organization_id connection_ids
  if memories = [] then return none
  else
    let lines ← memories.mapM (line isoDate)
    return some ("Approved engineering memory — ORGANIZATION KNOWLEDGE, vouched for by "
      ++ "people in this organization. Follow it, cite it as organization "
      ++ "knowledge (not as something read from TM1), and say so if live TM1 "
      ++ "evidence contradicts it:\n" ++ "\n".intercalate lines)

/-- What is shown is approved. -/
theorem approved_of_inPrompt {memory : EngineeringMemory}
    (h : memory ∈ inPrompt memories organization_id connection_ids) :
    memory ∈ memories.rows ∧ memory.status = .approved := by
  have hsorted := (List.perm_insertionSort _ _).mem_iff.mp (List.mem_of_mem_take h)
  rw [List.mem_filter, Bool.and_eq_true, Bool.and_eq_true] at hsorted
  exact ⟨hsorted.1, of_decide_eq_true hsorted.2.1.2⟩

end Prompt

end PaCopilot.engineering_memory_service
