/-
The row of a TM1 change (`database/models/tm1_change.py`) and what its JSON
columns carry.

A JSON object is a record whose fields are the keys the code reads, `none` for an
absent key. What the code never looks into (unknown keys, how a number is
spelled) is kept as one text, so that two contents are equal here exactly when
their JSON is.
-/
import PaCopilot.Tm1.Server

set_option autoImplicit false

namespace PaCopilot

/-! ## Types and states -/

/-- `VALID_CHANGE_TYPES`. -/
inductive ChangeType
  | update_rules
  | create_process
  | update_process
  | delete_process
  | run_process
  | write_cells
  | create_view
  deriving DecidableEq

/-- The change type a text names. -/
def ChangeType.ofText : String → Option ChangeType
  | "update_rules" => some .update_rules
  | "create_process" => some .create_process
  | "update_process" => some .update_process
  | "delete_process" => some .delete_process
  | "run_process" => some .run_process
  | "write_cells" => some .write_cells
  | "create_view" => some .create_view
  | _ => none

/-- The change type as the messages spell it. -/
def ChangeType.text : ChangeType → String
  | .update_rules => "update_rules"
  | .create_process => "create_process"
  | .update_process => "update_process"
  | .delete_process => "delete_process"
  | .run_process => "run_process"
  | .write_cells => "write_cells"
  | .create_view => "create_view"

inductive ChangeStatus
  | draft
  | executed
  | failed
  | unknown
  | rejected
  | superseded
  | rolled_back
  deriving DecidableEq

/-- The status as the messages spell it. -/
def ChangeStatus.text : ChangeStatus → String
  | .draft => "draft"
  | .executed => "executed"
  | .failed => "failed"
  | .unknown => "unknown"
  | .rejected => "rejected"
  | .superseded => "superseded"
  | .rolled_back => "rolled_back"

/-! ## `new_content` -/

structure VariableContent where
  name : String
  type : Option String
  deriving DecidableEq

structure ParameterContent where
  name : String
  type : Option String
  prompt : Option String
  value : Option Scalar
  deriving DecidableEq

/-- One entry of `cells`. `coordinates` is `none` when it is not a list, and
holds `none` where an entry is not a text; `value` is `none` when it is neither a
number nor a text. -/
structure CellContent where
  coordinates : Option (List (Option String))
  value : Option Value
  deriving DecidableEq

/-- The proposed content. The four code sections may be given as null. `given` is
the `parameters` object of a run. -/
structure NewContent where
  rules : Option String := none
  source_body : Option Process := none
  prolog : Option (Option String) := none
  metadata : Option (Option String) := none
  data : Option (Option String) := none
  epilog : Option (Option String) := none
  has_security_access : Option Bool := none
  datasource_type : Option String := none
  datasource_name : Option String := none
  ascii_delimiter : Option String := none
  ascii_header_records : Option ℤ := none
  «variables» : Option (List VariableContent) := none
  parameters : Option (List ParameterContent) := none
  given : List (String × Scalar) := []
  cells : Option (List CellContent) := none
  view_name : Option String := none
  mdx : Option String := none
  ai_generated : Bool := false
  rest : String := ""
  deriving DecidableEq

/-! ## `previous_content` -/

/-- The four code sections of a process, as `_code_of` keeps them. -/
structure Code where
  PrologProcedure : String
  MetadataProcedure : String
  DataProcedure : String
  EpilogProcedure : String
  deriving DecidableEq

/-- What a change left on the server, as the row remembers it: a text (rules or
MDX), a process's code, or cell values. -/
inductive Applied
  | text (s : String)
  | code (c : Code)
  | values (vs : List Value)
  deriving DecidableEq

structure SavedCell where
  coordinates : List String
  value : Option Value
  deriving DecidableEq

/-- The snapshot taken when a change is executed. `rules` may be there as
null. -/
structure PreviousContent where
  rules : Option (Option String) := none
  existed : Option Bool := none
  process : Option Process := none
  cells : Option (List SavedCell) := none
  applied : Option Applied := none
  deriving DecidableEq

/-! ## The other columns -/

/-- One entry of `impact`; `detail` is the rest of it. -/
structure ImpactEntry where
  severity : Option String
  detail : String
  deriving DecidableEq

/-- One line of the checklist an approver reads. -/
structure Check where
  name : String
  status : String
  detail : String
  items : List String
  deriving DecidableEq

/-- What TM1 said of a run. -/
structure RunResult where
  success : Bool
  status : String
  error_log_file : Option String
  api : String
  error_detail : Option String
  error_log_excerpt : Option String
  deriving DecidableEq

/-- `execution_result`: a run that TM1 answered, one it did not answer, one that
did not start, or the view that was created. -/
inductive ExecutionResult
  | run (result : RunResult)
  | noResponse
  | notStarted
  | view (view cube : String)
  deriving DecidableEq

/-- A SHA-256 digest of a JSON text. Collisions are taken not to happen, so a
digest stands for what was hashed. -/
inductive Digest
  | proposal (change_type : ChangeType) (target_name : String) (new_content : Option NewContent)
  | rules (text : String)
  | code (code : Code)
  | cells (values : List Value)
  deriving DecidableEq

/-- A row of `tm1_changes`. Identifiers and times are numbers. An empty list of
validation errors, impact entries or checks is a null column. -/
structure TM1Change where
  id : ℕ
  connection_id : ℕ
  organization_id : ℕ
  created_by : ℕ
  created_at : ℕ
  change_type : ChangeType
  target_name : String
  new_content : Option NewContent
  previous_content : Option PreviousContent := none
  validation_errors : List String := []
  impact : List ImpactEntry := []
  status : ChangeStatus := .draft
  error_message : Option String := none
  superseded_by : Option ℕ := none
  executed_by : Option ℕ := none
  executed_at : Option ℕ := none
  rolled_back_at : Option ℕ := none
  execution_result : Option ExecutionResult := none
  base_fingerprint : Option Digest := none
  checks : List Check := []
  environment : String := "dev"
  deriving DecidableEq

/-- `_check`: at most ten items are kept. -/
def _check (name status detail : String) (items : List String) : Check :=
  ⟨name, status, detail, items.take 10⟩

/-- The severities that have to be acknowledged. -/
def ImpactEntry.serious (e : ImpactEntry) : Bool :=
  e.severity = some "critical" || e.severity = some "high"

/-- `needs_acknowledgement` of `tm1/impact/analyzer.py`. -/
def needs_acknowledgement (impact : List ImpactEntry) : Bool := impact.any ImpactEntry.serious

end PaCopilot
