/-
What `create_change` of `tm1/deployment/change_service.py` finds out about a
proposal before it keeps it: the checks on its shape, the validation errors, the
checklist of the approver, and its impact.

Five analyses of other packages are called here and decide nothing of the draft's
life: the static analysis and the review of TI code, the TI parser, the
dependency map, and the regular expressions over MDX. They are the fields of
`Analyzers`, pure functions of what they are given.
-/
import PaCopilot.Change.Execute
import Mathlib.Data.List.Sort

set_option autoImplicit false

namespace PaCopilot.change_service

open Remote Python

/-! ## The analyses that are called -/

structure ReviewFinding where
  severity : String
  category : String
  evidence : String
  deriving DecidableEq

/-- `ObjectRef` of the TI parser. -/
structure ObjectRef where
  name : String
  kind : String
  access : String
  literal : Bool
  deriving DecidableEq

/-- `sorted(set(names))`. -/
def sortedSet (names : List String) : List String :=
  names.dedup.insertionSort fun a b => a ≤ b

namespace ProcessRecord

def cubes_written (objects : List ObjectRef) : List String :=
  sortedSet ((objects.filter fun o => o.kind = "cube" ∧ o.access = "write").map ObjectRef.name)

def processes_called (objects : List ObjectRef) : List String :=
  sortedSet ((objects.filter fun o => o.kind = "process" ∧ o.literal).map ObjectRef.name)

end ProcessRecord

inductive ObjectType
  | cube
  | process
  deriving DecidableEq

inductive ChangeKind
  | modify
  | delete
  deriving DecidableEq

/-- The part of `analyze_impact`'s result that a draft keeps. -/
structure ImpactAnalysis where
  in_graph : Bool
  items : List ImpactEntry
  not_covered : List String
  note : Option String
  deriving DecidableEq

/-- The analyses, over a dependency map of any kind. `lower` is `str.lower`, and
`field` the value of a key of an error that is kept as its JSON text. `cellcount`
and `table` are the size of an MDX query and the rows TM1 returns for it. -/
structure Analyzers (Graph : Type) where
  lower : String → String
  field : String → String → Option String
  analyze : NewContent → Option String → List String
  review : String → Process → String → List ReviewFinding
  parse_process_code : Process → List ObjectRef
  analyze_impact : Graph → ℕ → ℕ → ObjectType → String → ChangeKind → Bool → ImpactAnalysis
  mdx_cubes : String → List String
  cellcount : String → Server → Except DefiniteError ℕ
  table : String → Server → Except DefiniteError ℕ

/-- The calls `create_change` makes to TM1. -/
inductive DraftSite
  | client
  | target
  | body
  | compile
  | viewExists
  | cellcount
  | table
  | drift
  deriving DecidableEq

abbrev DraftAnswers := DraftSite → Answer

variable {Graph : Type}

/-! ## Runs -/

/-- `validate_run_parameters`. -/
def validate_run_parameters (a : Analyzers Graph) (definitions : List Parameter)
    (given : List (String × Scalar)) : List String :=
  given.filterMap fun (name, value) =>
    if a.lower name ∈ RESERVED_RUN_KEYWORDS then
      some (s!"A parameter named '{name}' cannot be passed to a run by "
        ++ "PA-Copilot. Rename it in the process, or run it from TM1.")
    else
      -- the dictionary of definitions keeps the last one of a name
      match definitions.reverse.find? fun d => a.lower d.name = a.lower name with
      | none =>
        let declared := ", ".intercalate (definitions.map Parameter.name)
        some (s!"The process has no parameter '{name}'. Its parameters are: "
          ++ (if declared = "" then "none" else declared) ++ ".")
      | some definition =>
        if a.lower definition.type = "numeric" ∧ value.float = none then
          some s!"Parameter '{name}' is numeric; '{value.str}' is not a number."
        else none

/-- An entry of an impact that is only a note. -/
def noteEntry (note : String) : ImpactEntry := ⟨none, s!"note: {note}"⟩

/-- `str(value)`. -/
def Value.shown : Value → String
  | .num x => format15g x
  | .text s => s

/-- `run_plan`. -/
def run_plan (a : Analyzers Graph) (definitions : List Parameter) (given : List (String × Scalar))
    (objects : List ObjectRef) : List ImpactEntry :=
  let value (d : Parameter) := given.reverse.find? fun (name, _) => a.lower name = a.lower d.name
  let unresolved := objects.filter fun o => !o.literal && (o.access = "write" || o.access = "calls")
  (definitions.map fun d =>
    match value d with
    -- null is no value
    | some (_, .other "None") | none => ⟨none, s!"parameter {d.name}: {Value.shown d.value} (default)"⟩
    | some (_, v) => ⟨none, s!"parameter {d.name}: {v.str} (given)"⟩)
  ++ (ProcessRecord.cubes_written objects).map (fun cube => ⟨none, s!"writes_cube {cube} (TI parser)"⟩)
  ++ (ProcessRecord.processes_called objects).map
    (fun process => ⟨none, s!"calls_process {process} (TI parser)"⟩)
  ++ (if unresolved = [] then []
    else [noteEntry (s!"{unresolved.length} write or call target(s) are built from "
      ++ "variables; what they touch depends on the parameter values.")])
  ++ [noteEntry ("A process run cannot be rolled back. Anything it writes stays "
      ++ "written; TM1 does not keep a before-image of a run.")]

/-! ## Views -/

def VIEW_CHECK_CELLS : ℕ := 500

def MAX_VIEW_NAME : ℕ := 100

/-- A character that a file name cannot hold. -/
def viewNameForbidden (c : Char) : Bool :=
  c ∈ ['\\', '/', ':', '*', '?', '"', '<', '>', '|'] || c.toNat < 32

/-- `repr` of such a character. -/
def charRepr (c : Char) : String :=
  if c = '\\' then "'\\\\'"
  else if c = '\n' then "'\\n'"
  else if c = '\r' then "'\\r'"
  else if c = '\t' then "'\\t'"
  else if c.toNat < 32 then
    "'\\x" ++ (if c.toNat < 16 then "0" else "") ++ String.ofList (Nat.toDigits 16 c.toNat) ++ "'"
  else "'" ++ String.singleton c ++ "'"

/-- `_view_name_problems`. -/
def _view_name_problems (view_name : String) : List String :=
  let stripped := String.ofList (strip view_name.toList)
  if stripped = "" then ["The view needs a name."]
  else
    let forbidden := (view_name.toList.filter viewNameForbidden).dedup.insertionSort fun a b => a ≤ b
    (if MAX_VIEW_NAME < view_name.length then
      [s!"A view name can be at most {MAX_VIEW_NAME} characters."] else [])
    ++ (if forbidden = [] then []
      else [s!"TM1 does not allow these characters in a view name: "
        ++ " ".intercalate (forbidden.map charRepr) ++ "."])
    ++ (if view_name.toList.head? = some '\x7d' then
      ["Names starting with '\x7d' are reserved for TM1's control objects."] else [])
    ++ (if view_name ≠ stripped then ["The view name starts or ends with a space."] else [])

/-- `_tm1_name`: TM1 names ignore case and spaces. -/
def _tm1_name (a : Analyzers Graph) (name : String) : String :=
  a.lower (String.ofList (name.toList.filter fun c => c ≠ ' '))

/-- `_mdx_cube_problem`. -/
def _mdx_cube_problem (a : Analyzers Graph) (mdx cube_name : String) : Option String :=
  let cubes := a.mdx_cubes mdx
  let others := sortedSet (cubes.filter fun c => _tm1_name a c ≠ _tm1_name a cube_name)
  if cubes = [] then some s!"The MDX has no FROM [{cube_name}] clause."
  else if others ≠ [] then
    some ("The MDX reads from " ++ ", ".intercalate others ++ s!", not from '{cube_name}'. A view "
      ++ "belongs to one cube and must select from it.")
  else none

/-- `f"{n:,}"`. -/
def thousands (n : ℕ) : String :=
  let digits := Nat.toDigits 10 n
  String.ofList (digits.zipIdx.flatMap fun (d, i) =>
    if i ≠ 0 ∧ (digits.length - i) % 3 = 0 then [',', d] else [d])

/-- What a failed check of a view's MDX makes of the draft. An unreachable server
or lost credentials are not the MDX's fault, so those still raise. -/
def mdxFailed : AppException → Except AppException (Option String × String)
  | .unknown m => .error (.unknown m)
  | .definite e =>
    if e.cls = .TM1AuthenticationError then .error (.definite e)
    else .ok (some s!"TM1 could not run the MDX: {e.message}", "failed")

/-- `_mdx_run_check`: the problem, and what happened. -/
def _mdx_run_check (a : Analyzers Graph) (answer : DraftAnswers) (mdx : String) (s : Server) :
    Except AppException (Option String × String) :=
  match (answer .cellcount).reply (a.cellcount mdx) s with
  | .error e => mdxFailed e
  | .ok total =>
    if VIEW_CHECK_CELLS < total then
      .ok (none, s!"TM1 ran it: {thousands total} cells (too many to read in a check)")
    else
      match (answer .table).reply (a.table mdx) s with
      | .error e => mdxFailed e
      | .ok rows => .ok (none, s!"TM1 ran it: {thousands total} cells, {rows} with a value")

/-! ## The analysis of a proposal -/

/-- What is found out about a proposal. -/
structure Analysed where
  validation_errors : List String
  checks : List Check
  object_type : Option ObjectType
  run_impact : List ImpactEntry
  deriving DecidableEq

def analysedRules (answer : DraftAnswers) (target : String) (content : Option NewContent)
    (s : Server) : Except AppException Analysed := do
  refuse (content.bind NewContent.rules = none)
    (ValidationException "update_rules requires new_content.rules.")
  let _cube ← (answer .target).reply (cube_service.get_cube target) s
  return ⟨[], [_check "Rule syntax" "info"
    ("TM1 has no dry run for rules: they are checked right after "
      ++ "they are applied, and the previous rules are restored "
      ++ "automatically if the check fails") []], some .cube, []⟩

/-- The three checks on a process's code. -/
def processChecks (a : Analyzers Graph) (static_errors errors : List String)
    (concerns : List ReviewFinding) : List Check :=
  [ _check "Static analysis" (if static_errors = [] then "pass" else "fail")
      (if static_errors = [] then "no undeclared or misspelled names"
        else s!"{static_errors.length} problem(s) found") static_errors,
    _check "Compiled on the server (not saved)" (if errors = [] then "pass" else "fail")
      (if errors = [] then "TM1 compiled it without errors"
        else s!"{errors.length} compile error(s)")
      (errors.map fun e => (a.field e "Procedure").getD "" ++ " line "
        ++ (a.field e "LineNumber").getD "?" ++ ": " ++ (a.field e "Message").getD ""),
    _check "Code review" (if concerns = [] then "pass" else "warn")
      (if concerns = [] then "no dangerous operations or errors found"
        else s!"{concerns.length} finding(s) to look at before approving")
      (concerns.map fun f => s!"{f.category}: {f.evidence}") ]

/-- `create_process` (`update = false`) and `update_process`. -/
def analysedProcess (a : Analyzers Graph) (tm1 : TM1) (answer : DraftAnswers) (update : Bool)
    (target : String) (content : Option NewContent) (s : Server) :
    Except AppException Analysed := do
  match content with
  | none => .error (ValidationException
      ((if update then "update_process" else "create_process") ++ " requires new_content."))
  | some content => do
    let there ← (answer .target).reply (process_service.process_exists target) s
    refuse (!update && there)
      (ConflictException s!"Process '{target}' already exists — use update_process.")
    refuse (update && !there)
      (.definite ⟨.TM1NotFoundError, s!"Process '{target}' not found."⟩)
    let base ← if update then
        ((answer .body).reply (process_service.get_process_body target) s).map some
      else .ok none
    let candidate := _build_process tm1 target content base
    let errors ← (answer .compile).reply (process_service.compile_process_dryrun tm1 candidate) s
    -- a body has no key "DataSourceType", so neither analysis is told the data source
    let static_errors := a.analyze content none
    let concerns := (a.review target candidate "None").filter fun f =>
      f.severity = "error" ∨ f.severity = "warning"
    return ⟨static_errors ++ errors, processChecks a static_errors errors concerns,
      some .process, []⟩

def analysedRun (a : Analyzers Graph) (answer : DraftAnswers)
    (target : String) (content : Option NewContent) (s : Server) :
    Except AppException Analysed := do
  let process ← (answer .target).reply (process_service.get_process_body target) s
  let given := (content.map NewContent.given).getD []
  let validation_errors := validate_run_parameters a process.parameters given
  return ⟨validation_errors,
    [ _check "Parameters" (if validation_errors = [] then "pass" else "fail")
        (if validation_errors = [] then "every value matches a parameter the process declares"
          else s!"{validation_errors.length} problem(s)") validation_errors,
      _check "No rollback" "warn"
        ("A run writes data directly; it cannot be rolled back. Check "
          ++ "the values and the cubes it writes before approving") [] ],
    none, run_plan a process.parameters given (a.parse_process_code process)⟩

/-- The problems of the cells of a draft, and how many of them change. -/
def cellProblems (seen : List (List String)) :
    List ((List String × Value) × cell_service.ReadCell) → List String × ℕ
  | [] => ([], 0)
  | ((coords, value), cell) :: rest =>
    let where_ := ", ".intercalate coords
    let twice := if coords ∈ seen then [s!"{where_}: listed more than once."] else []
    let calculated :=
      if cell.consolidated then
        [s!"{where_}: a consolidated cell. Writing it would spread the value "
          ++ "over its children; write the leaf cells instead."]
      else if cell.rule_derived then
        [s!"{where_}: calculated by a rule, so it cannot be written."]
      else []
    -- an empty cell takes either kind
    let misfit :=
      if isText cell.value ≠ isText (some value) ∧ cell.value ≠ none then
        [where_ ++ ": a " ++ (if isText cell.value then "string" else "numeric")
          ++ s!" cell; the value {repr (some value)} does not fit."]
      else []
    let (errors, changing) := cellProblems (coords :: seen) rest
    (twice ++ calculated ++ misfit ++ errors,
      changing + if _same_value cell.value (some value) then 0 else 1)

def analysedCells (tm1 : TM1) (answer : DraftAnswers) (target : String)
    (content : Option NewContent) (s : Server) : Except AppException Analysed := do
  let writes ← (_cell_writes content).mapError .definite
  let result ← (answer .target).reply
    (cell_service.read_cells tm1 target (writes.map Prod.fst)) s
  let (unread, cells) := match result with
    | .cells cells => ([], cells)
    | result => ([unreadable result], [])
  let (problems, changing) := cellProblems [] (writes.zip cells)
  let validation_errors := unread ++ problems
  return ⟨validation_errors,
    [ _check "Cells" (if validation_errors = [] then "pass" else "fail")
        (if validation_errors = [] then s!"{writes.length} leaf cell(s), {changing} with a new "
            ++ "value; none consolidated or rule-calculated"
          else s!"{validation_errors.length} problem(s)") validation_errors,
      _check "Current values" "info"
        ("Read from the server now; they are saved again when the change is "
          ++ "applied, and if they have changed by then nothing is written") [] ],
    some .cube, []⟩

def analysedView (a : Analyzers Graph) (answer : DraftAnswers) (target : String)
    (content : Option NewContent) (s : Server) : Except AppException Analysed := do
  let (view_name, mdx) ← (_view_content content).mapError .definite
  let _cube ← (answer .target).reply (cube_service.get_cube target) s
  let named := _view_name_problems view_name
  -- TM1 is asked for a name only if it can have one
  let there ← if named = [] then
      (answer .viewExists).reply (view_service.view_exists target view_name) s
    else .ok false
  let view_problems := named ++ if there then
      [s!"A public view named '{view_name}' already exists on '{target}'. "
        ++ "Choose another name; an existing view is never replaced."]
    else []
  let (mdx_problem, mdx_detail) ←
    if strip mdx.toList = [] then .ok (some "The view needs MDX.", "no MDX given")
    else match _mdx_cube_problem a mdx target with
      -- MDX that is not about this cube is not run
      | some problem => .ok (some problem, "not run: it must select from this cube")
      | none => _mdx_run_check a answer mdx s
  return ⟨view_problems ++ mdx_problem.toList,
    [ _check "View" (if view_problems = [] then "pass" else "fail")
        (if view_problems = [] then
            s!"a new public view '{view_name}' on '{target}'; no view of that name exists"
          else s!"{view_problems.length} problem(s)") view_problems,
      _check "MDX runs" (if mdx_problem = none then "pass" else "fail") mdx_detail
        mdx_problem.toList ],
    none, []⟩

def analysedDeletion (answer : DraftAnswers) (target : String) (s : Server) :
    Except AppException Analysed := do
  let there ← (answer .target).reply (process_service.process_exists target) s
  refuse (there = false) (.definite ⟨.TM1NotFoundError, s!"Process '{target}' not found."⟩)
  return ⟨[], [], some .process, []⟩

/-- The branches of `create_change`. -/
def analysed (a : Analyzers Graph) (tm1 : TM1) (answer : DraftAnswers)
    (change_type : ChangeType) (target : String) (content : Option NewContent) (s : Server) :
    Except AppException Analysed :=
  match change_type with
  | .update_rules => analysedRules answer target content s
  | .create_process => analysedProcess a tm1 answer false target content s
  | .update_process => analysedProcess a tm1 answer true target content s
  | .run_process => analysedRun a answer target content s
  | .write_cells => analysedCells tm1 answer target content s
  | .create_view => analysedView a answer target content s
  | .delete_process => analysedDeletion answer target s

/-! ## Impact -/

/-- `_impact`. -/
def _impact (a : Analyzers Graph) (graph : Graph) (connection_id organization_id : ℕ)
    (object_type : ObjectType) (name : String) (change_type : ChangeType) : List ImpactEntry :=
  let result := a.analyze_impact graph connection_id organization_id object_type name
    (if change_type = .delete_process then .delete else .modify) (change_type = .update_rules)
  if !result.in_graph then [noteEntry (result.not_covered.headD "")]
  else result.items ++ result.note.toList.map noteEntry

/-- `_impact_check`. -/
def _impact_check (impact : List ImpactEntry) : Check :=
  let count (severity : String) := (impact.filter fun e => e.severity = some severity).length
  let counts := ["critical", "high", "medium", "low"].filterMap fun severity =>
    if count severity = 0 then none else some s!"{count severity} {severity}"
  let serious := count "critical" + count "high"
  let detail := ", ".intercalate counts
  _check "Impact" (if serious = 0 then "pass" else "warn")
    ((if detail = "" then "nothing in the dependency map depends on it" else detail)
      ++ if serious = 0 then "" else " — the approver must confirm reading it") []

/-- The impact of a proposal: a run has its plan, a new view no dependents. -/
def impactOf (a : Analyzers Graph) (graph : Graph) (connection_id organization_id : ℕ)
    (change_type : ChangeType) (target : String) (found : Analysed) : List ImpactEntry :=
  match change_type, found.object_type with
  | .run_process, _ => found.run_impact
  | .create_view, _ => []
  | _, none => []
  | change_type, some object_type =>
    _impact a graph connection_id organization_id object_type target change_type

/-- The checklist of a draft. -/
def checksOf (change_type : ChangeType) (found : Analysed) (impact : List ImpactEntry) :
    List Check :=
  match change_type with
  | .create_view => found.checks ++
    [ _check "Impact" "info" "A new public view; nothing depends on it yet" [],
      _check "Snapshot and rollback" "info"
        ("Nothing existing is changed. Roll back deletes the view, and only "
          ++ "if it is unchanged since it was created") [] ]
  | .run_process => found.checks
  | _ => found.checks ++
    [ _impact_check impact,
      _check "Snapshot and rollback" "info"
        ("The current version is saved when the change is applied, and "
          ++ "can be restored with Roll back") [] ]

end PaCopilot.change_service
