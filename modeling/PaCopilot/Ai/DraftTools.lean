/-
The tools of the assistant that draft a change (`ai/tools/tm1/changes.py`).

The six draft tools differ in what they propose. Each asks for the same permission,
goes through `_create_draft`, and returns a JSON object that starts with the
identifier of the draft, to which two of them add something. So a draft tool is one
definition over what it proposes ([`DraftTool`]), and what holds of all of them is
proved once ([`DraftTool.draft_ok`]). Two of them, the copy of a process and the run of
one, leave out the mark `ai_generated` that the others give to the content
([`draftTools_mark`]).

The arguments of a call are a record of the keys that these tools read, each as the
tool reads it: `str` of it where the tool takes `str`, and the empty text for a value
that is false where the tool writes `or ""`.
-/
import PaCopilot.Ai.Chat
import PaCopilot.Change.Routes
import Mathlib.Data.List.Infix

set_option autoImplicit false

namespace PaCopilot.ai

open Remote

/-! ## Identifiers -/

/-- The last digits of a number in base 16. -/
def hexDigits : ℕ → ℕ → List Char
  | 0, _ => []
  | width + 1, n => hexDigits width (n / 16) ++ [Json.hexDigit (n % 16)]

/-- `str(id)` of an identifier of 128 bits. -/
def uuidText (id : ℕ) : List Char :=
  let digits := hexDigits 32 id
  digits.take 8 ++ '-' :: ((digits.drop 8).take 4 ++ '-' :: ((digits.drop 12).take 4
    ++ '-' :: ((digits.drop 16).take 4 ++ '-' :: digits.drop 20)))

/-- Two digits are the same character only for the same number. -/
theorem hexDigit_injective {n m : ℕ} (hn : n < 16) (hm : m < 16)
    (h : Json.hexDigit n = Json.hexDigit m) : n = m := by
  have hall : ∀ i < 16, ∀ j < 16, Json.hexDigit i = Json.hexDigit j → i = j := by decide
  exact hall n hn m hm h

theorem hexDigits_length (width n : ℕ) : (hexDigits width n).length = width := by
  induction width generalizing n with
  | zero => rfl
  | succ width ih =>
    rw [hexDigits, List.length_append, ih]
    rfl

/-- The digits tell numbers apart that they can spell. -/
theorem hexDigits_injective {width n m : ℕ} (hn : n < 16 ^ width) (hm : m < 16 ^ width)
    (h : hexDigits width n = hexDigits width m) : n = m := by
  induction width generalizing n m with
  | zero =>
    rw [pow_zero] at hn hm
    omega
  | succ width ih =>
    rw [hexDigits, hexDigits] at h
    obtain ⟨hinit, hlast⟩ := List.append_inj h (by rw [hexDigits_length, hexDigits_length])
    have hdigit := hexDigit_injective (Nat.mod_lt n (by decide)) (Nat.mod_lt m (by decide))
      (List.head_eq_of_cons_eq hlast)
    rw [pow_succ] at hn hm
    have hquotient := ih (Nat.div_lt_of_lt_mul (by omega)) (Nat.div_lt_of_lt_mul (by omega)) hinit
    omega

/-- A digit is none of the characters that JSON escapes, and no hyphen. -/
theorem mem_hexDigits {width n : ℕ} {c : Char} (h : c ∈ hexDigits width n) :
    (c ≠ '"' ∧ c ≠ '\\' ∧ 32 ≤ c.toNat) ∧ c ≠ '-' := by
  have hall : ∀ i < 16, (Json.hexDigit i ≠ '"' ∧ Json.hexDigit i ≠ '\\'
      ∧ 32 ≤ (Json.hexDigit i).toNat) ∧ Json.hexDigit i ≠ '-' := by decide
  induction width generalizing n with
  | zero => exact absurd h List.not_mem_nil
  | succ width ih =>
    rw [hexDigits, List.mem_append, List.mem_singleton] at h
    rcases h with hinit | rfl
    · exact ih hinit
    · exact hall _ (Nat.mod_lt n (by decide))

/-- The digits of an identifier are what its text is without the hyphens. -/
theorem uuidText_digits (id : ℕ) : (uuidText id).filter (· ≠ '-') = hexDigits 32 id := by
  have hkept : ∀ digits : List Char, (∀ c ∈ digits, c ∈ hexDigits 32 id) →
      digits.filter (· ≠ '-') = digits := by
    intro digits hdigits
    exact List.filter_eq_self.mpr fun c hc => decide_eq_true (mem_hexDigits (hdigits c hc)).2
  have hskip : ∀ digits : List Char, ('-' :: digits).filter (· ≠ '-') = digits.filter (· ≠ '-') :=
    fun digits => List.filter_cons_of_neg (by simp)
  rw [uuidText, List.filter_append, hskip, List.filter_append, hskip, List.filter_append, hskip,
    List.filter_append, hskip, hkept _ fun c hc => List.mem_of_mem_take hc,
    hkept _ fun c hc => List.mem_of_mem_drop (List.mem_of_mem_take hc),
    hkept _ fun c hc => List.mem_of_mem_drop (List.mem_of_mem_take hc),
    hkept _ fun c hc => List.mem_of_mem_drop (List.mem_of_mem_take hc),
    hkept _ fun c hc => List.mem_of_mem_drop hc]
  have hnext : ∀ i : ℕ, ((hexDigits 32 id).drop i).take 4 ++ (hexDigits 32 id).drop (i + 4)
      = (hexDigits 32 id).drop i := by
    intro i
    rw [← List.drop_drop]
    exact List.take_append_drop _ _
  rw [hnext 16, hnext 12, hnext 8]
  exact List.take_append_drop _ _

/-- An identifier of 128 bits is told by its text. -/
theorem uuidText_injective {id id' : ℕ} (hid : id < 2 ^ 128) (hid' : id' < 2 ^ 128)
    (h : uuidText id = uuidText id') : id = id' := by
  have hwidth : (2 : ℕ) ^ 128 = 16 ^ 32 := by norm_num
  rw [hwidth] at hid hid'
  apply hexDigits_injective hid hid'
  rw [← uuidText_digits, ← uuidText_digits, h]

theorem uuidText_plain (id : ℕ) : Json.Plain (uuidText id) := by
  intro c hc
  by_cases hhyphen : c = '-'
  · rw [hhyphen]
    decide
  · have hdigit : c ∈ (uuidText id).filter (· ≠ '-') :=
      List.mem_filter.mpr ⟨hc, decide_eq_true hhyphen⟩
    rw [uuidText_digits] at hdigit
    exact (mem_hexDigits hdigit).1

theorem uuidText_length (id : ℕ) : (uuidText id).length = 36 := by
  rw [uuidText]
  simp only [List.length_append, List.length_cons, List.length_take, List.length_drop,
    hexDigits_length]
  omega

/-! ## Calls -/

/-- `parameters`: the list of a process, the object of a run, or any other JSON. -/
inductive ParametersInput
  | absent
  | list (parameters : List ParameterContent)
  | object (given : List (String × Scalar))
  | other (falsy : Bool) (dumped : String)

/-- The arguments of a call. `connection_id` and `change_id` are what reading them as
identifiers gives, or raises. -/
structure ToolInput where
  connection_id : Except AppException ℕ := .error (PythonError "KeyError")
  cube_name : Option String := none
  process_name : Option String := none
  source_process : Option String := none
  new_process_name : Option String := none
  rules : Option String := none
  prolog : Option String := none
  metadata : Option String := none
  data : Option String := none
  epilog : Option String := none
  create_new : Option Bool := none
  datasource_type : Option String := none
  datasource_name : Option String := none
  ascii_delimiter : Option String := none
  ascii_header_records : Option ℤ := none
  «variables» : Option (List VariableContent) := none
  parameters : ParametersInput := .absent
  cells : Option (List CellContent) := none
  reason : Option String := none
  view_name : Option String := none
  mdx : Option String := none
  rationale : Option String := none
  change_id : Except AppException ℕ := .error (PythonError "KeyError")
  acknowledge_impact : Bool := false

/-- `kwargs[key]`. -/
def required {α : Type} (value : Option α) : Except AppException α :=
  match value with
  | none => .error (PythonError "KeyError")
  | some given => .ok given

/-- What the tools read and write: the changes, and the calls that were recorded. -/
structure AssistantDb where
  changes : Store
  executions : List (AIToolExecution ToolInput) := []

/-- What a call meets. `user` is the user of the request, none for a scheduled job.
`impact` and `error` are the JSON of an impact entry and of a validation error, of which
the row keeps the severity and the text; `described` is the description and the schema
of a tool, and `refusal` what the database raises for a row of a call. -/
structure Surroundings (Graph : Type) where
  analyzers : change_service.Analyzers Graph
  tm1 : TM1
  TM1_MODE : governance.Tm1Mode
  auth : AuthDb
  connections : List TM1Connection
  user : Option ℕ
  graph : Graph
  answer : change_service.DraftAnswers
  copyClient : Answer
  copyBody : Answer
  applyAnswer : change_service.Answers
  servers : ℕ → Server
  now : ℕ
  impact : ImpactEntry → Json
  error : String → Json
  described : String → String × String
  refusal : AIToolExecution ToolInput → Option AppException

/-! ## Drafting -/

/-- First line of code the assistant drafts. -/
def AI_GENERATED_MARKER : String :=
  "# AI GENERATED by PA-Copilot. Reviewed and approved by a person before deployment."

def mark_ai_generated (code : String) : String :=
  if "AI GENERATED".toList <:+: code.toList.take 500 then code
  else AI_GENERATED_MARKER ++ "\n" ++ code

def _HUMAN_REVIEW_NOTE : String :=
  "This is a DRAFT only — it has NOT been applied to the TM1 server. "
    ++ "A human administrator with deploy rights must review and execute it "
    ++ "in the console."

def _RUN_REVIEW_NOTE : String :=
  "This is a proposed RUN only — the process has NOT been run. A person "
    ++ "with permission to run processes must open the draft, check the "
    ++ "parameter values and what the process writes, and approve it. A run "
    ++ "cannot be rolled back."

/-- `draft[key] = value`. -/
def assign (fields : List (String × Json)) (key : String) (value : Json) : List (String × Json) :=
  if fields.any fun field => field.1 = key then
    fields.map fun field => if field.1 = key then (key, value) else field
  else fields ++ [(key, value)]

/-- What a draft tool proposes, and what it adds to the JSON of the draft. It leaves the
identifier there as it is. -/
structure Drafting where
  connection_id : Except AppException ℕ
  change_type : String
  target_name : String
  new_content : NewContent
  added : List (String × Json) := []
  added_ne : ∀ field ∈ added, field.1 ≠ "draft_change_id" := by decide

section Draft

variable {Graph : Type} (around : Surroundings Graph) (session : Session)

/-- What `create_change` meets. -/
def Surroundings.moment (connection_id : ℕ) : Moment Graph where
  connections := around.connections.map TM1Connection.seen
  user := around.user
  graph := around.graph
  answer := around.answer
  server := around.servers connection_id
  now := around.now

/-- The JSON of a draft. -/
def draftFields (change : TM1Change) : List (String × Json) :=
  [ ("draft_change_id", .string (String.ofList (uuidText change.id))),
    ("status", .string change.status.text),
    ("validation_errors", .array (change.validation_errors.map around.error)),
    ("impact", .array (change.impact.map around.impact)),
    ("note", .string _HUMAN_REVIEW_NOTE) ]

/-- The proposal of a draft tool to `create_change`. -/
def Drafting.proposal (drafting : Drafting) (connection_id : ℕ) : Proposal where
  connection_id := connection_id
  organization_id := session.organization_id
  created_by := session.user_id
  change_type := drafting.change_type
  target_name := drafting.target_name
  new_content := some drafting.new_content

/-- `_create_draft`: the draft, and the changes with it. -/
def _create_draft (drafting : Drafting) (changes : Store) : Except AppException (TM1Change × Store) := do
  let connection_id ← drafting.connection_id
  let connection ← connection_service.get_connection around.auth around.user around.connections
    connection_id session.organization_id .use
  governance.check_ai_may_draft connection
  change_service.create_change around.analyzers around.tm1 (around.moment connection_id)
    (drafting.proposal session connection_id) changes

end Draft

/-- A draft tool. -/
structure DraftTool (Graph : Type) where
  name : String
  propose : Surroundings Graph → Session → ToolInput → Except AppException Drafting

namespace DraftTool

variable {Graph : Type}

/-- What a call of a draft tool proposes, and the draft it makes of it. -/
def create (tool : DraftTool Graph) (around : Surroundings Graph) (session : Session)
    (input : ToolInput) (changes : Store) :
    Except AppException (Drafting × TM1Change × Store) := do
  let has_permission ←
    auth_repository.user_has_permission around.auth session.user_id "tm1.write"
  refuse (has_permission = false)
    (PermissionDeniedException "You do not have permission to draft TM1 changes.")
  let drafting ← tool.propose around session input
  let created ← _create_draft around session drafting changes
  return (drafting, created)

/-- What a call of a draft tool returns. -/
def draft (tool : DraftTool Graph) (around : Surroundings Graph) (session : Session)
    (input : ToolInput) (changes : Store) :
    Except AppException (List (String × Json) × Store) := do
  let (drafting, change, changes) ← tool.create around session input changes
  return (drafting.added.foldl (fun fields field => assign fields field.1 field.2)
    (draftFields around change), changes)

/-- The tool as the orchestrator calls it. -/
def registered (tool : DraftTool Graph) (around : Surroundings Graph) :
    Tool AssistantDb ToolInput where
  name := tool.name
  description := (around.described tool.name).1
  input_schema := (around.described tool.name).2
  execute session _ input db :=
    match tool.draft around session input db.changes with
    | .error e => (.error e, db)
    | .ok (fields, changes) => (.ok (.json (.object fields)), { db with changes := changes })

end DraftTool

/-! ## The six tools -/

section Proposals

variable {Graph : Type}

def ProposeRuleUpdateTool : DraftTool Graph where
  name := "propose_rule_update"
  propose _ _ input := do
    let cube_name ← required input.cube_name
    let rules ← required input.rules
    return {
      connection_id := input.connection_id
      change_type := "update_rules"
      target_name := cube_name
      new_content := { rules := some (mark_ai_generated rules), ai_generated := true } }

/-- The tab that carries the marker: the first that the draft supplies, and the Prolog
of a new process with no code at all. -/
inductive Tab
  | prolog
  | metadata
  | data
  | epilog
  deriving DecidableEq

def markedTab (input : ToolInput) : Option Tab :=
  if input.prolog.isSome then some .prolog
  else if input.metadata.isSome then some .metadata
  else if input.data.isSome then some .data
  else if input.epilog.isSome then some .epilog
  else if input.create_new = some true then some .prolog
  else none

/-- A tab of the draft. -/
def draftedTab (input : ToolInput) (tab : Tab) (code : Option String) : Option (Option String) :=
  if markedTab input = some tab then some (some (mark_ai_generated (code.getD "")))
  else code.map some

def ProposeProcessUpdateTool : DraftTool Graph where
  name := "propose_process_update"
  propose _ _ input := do
    let create_new ← required input.create_new
    let process_name ← required input.process_name
    return {
      connection_id := input.connection_id
      change_type := if create_new then "create_process" else "update_process"
      target_name := process_name
      new_content := {
        prolog := draftedTab input .prolog input.prolog
        metadata := draftedTab input .metadata input.metadata
        data := draftedTab input .data input.data
        epilog := draftedTab input .epilog input.epilog
        ai_generated := true
        datasource_type := input.datasource_type
        datasource_name := input.datasource_name
        ascii_delimiter := input.ascii_delimiter
        ascii_header_records := input.ascii_header_records
        «variables» := input.«variables»
        -- what the model gives may be a list, an object or neither
        parameters := match input.parameters with
          | .list parameters => some parameters
          | _ => none
        given := match input.parameters with
          | .object given => given
          | _ => []
        rest := match input.parameters with
          | .other _ dumped => dumped
          | _ => "" } }

/-- The JSON text of the keys that `create_change` does not read. -/
def unread (fields : List (String × Json)) : String := String.ofList (Json.dumps (.object fields))

/-- `copy_content`. -/
def copy_content (source_name : String) (body : Process) : NewContent where
  rest := unread [("copy_of", .string source_name)]
  prolog := some (some body.prolog_procedure)
  metadata := some (some body.metadata_procedure)
  data := some (some body.data_procedure)
  epilog := some (some body.epilog_procedure)
  datasource_type := some (change_service.textOr (some body.datasource.datasource_type) "None")
  «variables» := some (body.«variables».map fun «variable» =>
    ⟨«variable».name, some (change_service.textOr (some «variable».type) "String")⟩)
  parameters := some (body.parameters.map fun parameter =>
    ⟨parameter.name, some (change_service.textOr (some parameter.type) "String"),
      some parameter.prompt, some (.text (change_service.Value.shown parameter.value))⟩)
  source_body := some body

/-- `copy_summary`. `len(code.splitlines())` is the number of line ends, and one more
for a last line without an end. -/
def copy_summary (body : Process) (content : NewContent) : Json :=
  let lines (code : String) : Json :=
    let text := Python.newlines code.toList
    .number (toString (text.count '\n' + if text.getLast?.any (· ≠ '\n') then 1 else 0))
  let names (named : List String) : Json := .array (named.map .string)
  .object
    [ ("datasource_type", .string (content.datasource_type.getD "")),
      ("datasource_name", .string body.datasource.data_source_name_for_server),
      ("parameters", names (body.parameters.map Parameter.name)),
      ("variables", names (body.«variables».map Variable.name)),
      ("code_lines", .object
        [ ("prolog", lines body.prolog_procedure), ("metadata", lines body.metadata_procedure),
          ("data", lines body.data_procedure), ("epilog", lines body.epilog_procedure) ]) ]

/-- `str(value).strip()`. -/
def stripped (s : String) : String := String.ofList (Python.strip s.toList)

def ProposeProcessCopyTool : DraftTool Graph where
  name := "propose_process_copy"
  propose around session input := do
    let source := stripped (← required input.source_process)
    let new_name := stripped (← required input.new_process_name)
    -- TM1 object names are case-insensitive
    refuse (new_name = "" ∨ around.analyzers.lower new_name = around.analyzers.lower source)
      (ValidationException "The copy needs a name different from the original process.")
    let connection_id ← input.connection_id
    let connection ← connection_service.get_connection around.auth around.user around.connections
      connection_id session.organization_id .use
    let server := around.servers connection.id
    around.copyClient.reply (fun _ => .ok ()) server
    let body ← around.copyBody.reply (process_service.get_process_body source) server
    let content := copy_content source body
    return {
      connection_id := .ok connection.id
      change_type := "create_process"
      target_name := new_name
      new_content := content
      added := [ ("copied_from", .string source), ("new_process_name", .string new_name),
        ("copy_summary", copy_summary body content) ]
      added_ne := by simp }

/-- The parameters of a run: an object, and none for what is false. -/
def runParameters : ParametersInput → Except AppException (List (String × Scalar))
  | .absent | .list [] | .other true _ => .ok []
  | .object given => .ok given
  | .list _ | .other false _ =>
    .error (ValidationException "parameters must be an object of name to value.")

def ProposeProcessRunTool : DraftTool Graph where
  name := "propose_process_run"
  propose _ _ input := do
    let process_name := stripped (input.process_name.getD "")
    refuse (process_name = "") (ValidationException "process_name is required.")
    let given ← runParameters input.parameters
    return {
      connection_id := input.connection_id
      change_type := "run_process"
      target_name := process_name
      new_content := { given := given }
      added := [("note", .string _RUN_REVIEW_NOTE)]
      added_ne := by simp }

/-- `str(value or "")[:2000]`. -/
def shortened (s : Option String) : String := String.ofList ((s.getD "").toList.take 2000)

def ProposeCellWriteTool : DraftTool Graph where
  name := "propose_cell_write"
  propose _ _ input := do
    let cube_name ← required input.cube_name
    return {
      connection_id := input.connection_id
      change_type := "write_cells"
      target_name := cube_name
      new_content := {
        cells := some (input.cells.getD [])
        ai_generated := true
        rest := unread [("reason", .string (shortened input.reason))] } }

def ProposeViewTool : DraftTool Graph where
  name := "propose_view"
  propose _ _ input := do
    let cube_name ← required input.cube_name
    return {
      connection_id := input.connection_id
      change_type := "create_view"
      target_name := cube_name
      new_content := {
        view_name := some (input.view_name.getD "")
        mdx := some (input.mdx.getD "")
        ai_generated := true
        rest := unread [("rationale", .string (shortened input.rationale))] } }

/-- The tools whose result is a draft. -/
def draftTools : List (DraftTool Graph) :=
  [ ProposeRuleUpdateTool, ProposeProcessUpdateTool, ProposeProcessCopyTool,
    ProposeProcessRunTool, ProposeCellWriteTool, ProposeViewTool ]

end Proposals

def DRAFT_TOOLS : List String :=
  [ "propose_rule_update", "propose_process_update", "propose_process_copy",
    "propose_process_run", "propose_cell_write", "propose_view" ]

/-! ## What they leave -/

section Left

variable {Graph : Type} {around : Surroundings Graph} {session : Session} {changes changes' : Store}

/-- Another key leaves the first one where it is. -/
theorem assign_cons {key key' : String} {value value' : Json} {rest : List (String × Json)}
    (h : key' ≠ key) :
    ∃ rest', assign ((key, value) :: rest) key' value' = (key, value) :: rest' := by
  unfold assign
  split
  · refine ⟨rest.map fun field => if field.1 = key' then (key', value') else field, ?_⟩
    rw [List.map_cons, if_neg h.symm]
  · exact ⟨rest ++ [(key', value')], rfl⟩

theorem assignAll_cons {key : String} {value : Json} {added rest : List (String × Json)}
    (h : ∀ field ∈ added, field.1 ≠ key) :
    ∃ rest', added.foldl (fun fields field => assign fields field.1 field.2) ((key, value) :: rest)
      = (key, value) :: rest' := by
  induction added generalizing rest with
  | nil => exact ⟨rest, rfl⟩
  | cons field others ih =>
    have hfirst : ∃ rest', assign ((key, value) :: rest) field.1 field.2 = (key, value) :: rest' :=
      assign_cons (h field List.mem_cons_self)
    obtain ⟨rest', hrest⟩ := hfirst
    rw [List.foldl_cons, hrest]
    exact ih fun other hother => h other (List.mem_cons_of_mem _ hother)

/-- A draft of the assistant is on a connection that is not PROD, and is what
`create_change` makes of the proposal. -/
theorem _create_draft_ok {drafting : Drafting} {change : TM1Change}
    (h : _create_draft around session drafting changes = .ok (change, changes')) :
    ∃ connection_id connection, connection_service.get_connection around.auth around.user
        around.connections connection_id session.organization_id .use = .ok connection ∧
      governance.environment_of connection ≠ "prod" ∧
      change_service.create_change around.analyzers around.tm1 (around.moment connection_id)
        (drafting.proposal session connection_id) changes = .ok (change, changes') := by
  rw [_create_draft, bind_eq_ok_iff] at h
  obtain ⟨connection_id, -, h⟩ := h
  rw [bind_eq_ok_iff] at h
  obtain ⟨connection, hconnection, h⟩ := h
  rw [bind_eq_ok_iff] at h
  obtain ⟨_, hallowed, hcreate⟩ := h
  rw [governance.check_ai_may_draft, refuse_eq_ok_iff] at hallowed
  exact ⟨connection_id, connection, hconnection, hallowed, hcreate⟩

/-- A draft that a tool made is of its proposal. -/
theorem DraftTool.create_ok {tool : DraftTool Graph} {input : ToolInput} {drafting : Drafting}
    {change : TM1Change}
    (h : tool.create around session input changes = .ok (drafting, change, changes')) :
    tool.propose around session input = .ok drafting ∧
      _create_draft around session drafting changes = .ok (change, changes') := by
  unfold DraftTool.create at h
  obtain ⟨_, h⟩ := rest_of_bind h
  obtain ⟨_, h⟩ := rest_of_bind h
  rw [bind_eq_ok_iff] at h
  obtain ⟨proposed, hpropose, h⟩ := h
  rw [bind_eq_ok_iff] at h
  obtain ⟨created, hcreate, h⟩ := h
  cases h
  exact ⟨hpropose, hcreate⟩

/-- What a draft tool returns starts with the identifier of the draft. -/
theorem DraftTool.draft_ok {tool : DraftTool Graph} {input : ToolInput}
    {fields : List (String × Json)}
    (h : tool.draft around session input changes = .ok (fields, changes')) :
    ∃ drafting change rest,
      tool.create around session input changes = .ok (drafting, change, changes') ∧
      fields = ("draft_change_id", .string (String.ofList (uuidText change.id))) :: rest := by
  rw [DraftTool.draft, bind_eq_ok_iff] at h
  obtain ⟨⟨drafting, change, stored⟩, hcreate, h⟩ := h
  have hfirst : ∃ rest, drafting.added.foldl (fun fields field => assign fields field.1 field.2)
      (draftFields around change)
        = ("draft_change_id", .string (String.ofList (uuidText change.id))) :: rest :=
    assignAll_cons drafting.added_ne
  obtain ⟨rest, hrest⟩ := hfirst
  cases h
  exact ⟨drafting, change, rest, hcreate, hrest⟩

/-- The tools that mark the content of their drafts. -/
def Marks (name : String) : Prop := name ≠ "propose_process_copy" ∧ name ≠ "propose_process_run"

instance (name : String) : Decidable (Marks name) := inferInstanceAs (Decidable (_ ∧ _))

/-- Of the six, the copy and the run leave out the mark. -/
theorem draftTools_mark {tool : DraftTool Graph} {input : ToolInput} {drafting : Drafting}
    (htool : tool ∈ draftTools) (h : tool.propose around session input = .ok drafting) :
    drafting.new_content.ai_generated = true ↔ Marks tool.name := by
  rw [draftTools] at htool
  simp only [List.mem_cons, List.not_mem_nil, or_false] at htool
  rcases htool with rfl | rfl | rfl | rfl | rfl | rfl
  -- the rules, the code, the cells and the view are marked
  · obtain ⟨_, h⟩ := rest_of_bind h
    obtain ⟨_, h⟩ := rest_of_bind h
    cases h
    exact iff_of_true rfl (show Marks "propose_rule_update" by decide)
  · obtain ⟨_, h⟩ := rest_of_bind h
    obtain ⟨_, h⟩ := rest_of_bind h
    cases h
    exact iff_of_true rfl (show Marks "propose_process_update" by decide)
  · obtain ⟨_, h⟩ := rest_of_bind h
    obtain ⟨_, h⟩ := rest_of_bind h
    obtain ⟨_, h⟩ := rest_of_bind h
    obtain ⟨_, h⟩ := rest_of_bind h
    obtain ⟨_, h⟩ := rest_of_bind h
    obtain ⟨_, h⟩ := rest_of_bind h
    obtain ⟨_, h⟩ := rest_of_bind h
    cases h
    exact iff_of_false Bool.false_ne_true (show ¬ Marks "propose_process_copy" by decide)
  · obtain ⟨_, h⟩ := rest_of_bind h
    obtain ⟨_, h⟩ := rest_of_bind h
    cases h
    exact iff_of_false Bool.false_ne_true (show ¬ Marks "propose_process_run" by decide)
  · obtain ⟨_, h⟩ := rest_of_bind h
    cases h
    exact iff_of_true rfl (show Marks "propose_cell_write" by decide)
  · obtain ⟨_, h⟩ := rest_of_bind h
    cases h
    exact iff_of_true rfl (show Marks "propose_view" by decide)

end Left

end ai

end PaCopilot
