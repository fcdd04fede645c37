/-
The helpers of `tm1/deployment/change_service.py` over a draft's content: the
process it builds, the cells it writes, and how two states of a target are
compared.

Comparison is where drafts and the server meet. A process is compared by its four
code sections, rules by their text, cells by their values, and a view by its MDX,
each after a normalisation of its own; what the normal forms leave out is what
the change service cannot see.
-/
import PaCopilot.Change.Row
import PaCopilot.Tm1.Services

set_option autoImplicit false

namespace PaCopilot.change_service

open Python

/-- Cells one write_cells change may set. -/
def MAX_CELL_WRITES : ℕ := 200

/-! ## Building a process -/

/-- `x or y` of Python, for a text that may be missing. -/
def textOr (x : Option String) (y : String) : String :=
  match x with
  | none => y
  | some s => if s = "" then y else s

/-- `_apply_datasource`. -/
def _apply_datasource (p : Process) (content : NewContent) : Process :=
  let datasource_type := textOr content.datasource_type ""
  if datasource_type = "" then p
  else if datasource_type = "ASCII" then
    let name := textOr content.datasource_name ""
    { p with datasource := {
        datasource_type := datasource_type
        data_source_name_for_server := name
        data_source_name_for_client := name
        ascii_delimiter_type := "Character"
        ascii_delimiter_char := textOr content.ascii_delimiter ","
        ascii_header_records := content.ascii_header_records.getD 0 } }
  else { p with datasource := { p.datasource with datasource_type := datasource_type } }

/-- The type TM1py is given: whatever is not numeric is a string. -/
def tiType (type : Option String) : String :=
  if type = some "Numeric" then "Numeric" else "String"

/-- TM1py's `add_variable`. -/
def add_variable (p : Process) (name type : String) : Process :=
  { p with
    «variables» := p.«variables» ++ [⟨name, type, p.«variables».length + 1, 0, 0⟩]
    variables_ui_data := p.variables_ui_data ++
      [(if type = "Numeric" then "VarType=33" else "VarType=32") ++ "\rColType=827\r"] }

/-- `_apply_variables`: the draft's variables replace the ones there were. -/
def _apply_variables (p : Process) (content : NewContent) : Process :=
  match content.«variables» with
  | none => p
  | some given =>
    given.foldl (fun p v => add_variable p v.name (tiType v.type))
      { p with «variables» := [], variables_ui_data := [] }

/-- The value of a parameter: what is no number becomes 0 for a numeric one. -/
def parameterValue (type : String) (raw : Option Scalar) : Value :=
  if type = "Numeric" then
    match raw with
    | none => .num 0
    | some v => if v = .text "" then .num 0 else .num (v.float.getD 0)
  else .text ((raw.map Scalar.str).getD "")

/-- `_apply_parameters`: the draft's parameters replace the ones there were. -/
def _apply_parameters (p : Process) (content : NewContent) : Process :=
  match content.parameters with
  | none => p
  | some given =>
    { p with parameters := given.map fun q =>
        let type := tiType q.type
        ⟨q.name, textOr q.prompt q.name, parameterValue type q.value, type⟩ }

/-- One code section: the draft's when it has the key. -/
def section' (tm1 : TM1) (given : Option (Option String)) (old : String) : String :=
  match given with
  | none => old
  | some text => tm1.generated (text.getD "")

/-- `_build_process`. -/
def _build_process (tm1 : TM1) (name : String) (content : NewContent) (base : Option Process) :
    Process :=
  let start := match base, content.source_body with
    | some b, _ => { b with name := name }
    | none, some b => { b with name := name }
    | none, none => tm1.newProcess name
  let coded := { start with
    prolog_procedure := section' tm1 content.prolog start.prolog_procedure
    metadata_procedure := section' tm1 content.metadata start.metadata_procedure
    data_procedure := section' tm1 content.data start.data_procedure
    epilog_procedure := section' tm1 content.epilog start.epilog_procedure
    has_security_access := content.has_security_access.getD start.has_security_access }
  -- a copy's body is already exact, so the simplified lists are not applied to it
  if content.source_body.isSome && base.isNone then coded
  else _apply_parameters (_apply_variables (_apply_datasource coded content) content) content

/-! ## Normal forms -/

/-- Line endings and blank space around a text do not count. -/
def codeText (text : String) : String := String.ofList (strip (newlines text.toList))

/-- `_code_of`. -/
def _code_of (p : Process) : Code :=
  ⟨codeText p.prolog_procedure, codeText p.metadata_procedure, codeText p.data_procedure,
    codeText p.epilog_procedure⟩

/-- `_rules_text`. -/
def _rules_text (text : Option String) : String := codeText (text.getD "")

/-- `_mdx_text`. -/
def _mdx_text (mdx : Option String) : String := squeeze (mdx.getD "")

/-- `_normal`. -/
def _normal : Option Value → Value
  | none => .num 0
  | some (.num x) => .num (round9 x)
  | some (.text s) => .text s

/-- `float(value or 0)`, `none` where Python raises. -/
def floatOr0 : Option Value → Option ℚ
  | none => some 0
  | some (.num x) => some x
  | some (.text s) => if s = "" then some 0 else floatOfText s

/-- A value that is a number. -/
def isNumber : Option Value → Bool
  | some (.num _) => true
  | _ => false

/-- A value that is a text. -/
def isText : Option Value → Bool
  | some (.text _) => true
  | _ => false

/-- `value or ""`, of values that are not numbers. -/
def textOf : Option Value → String
  | some (.text s) => s
  | _ => ""

/-- `_same_value`. -/
def _same_value (a b : Option Value) : Bool :=
  if isNumber a || isNumber b then
    match floatOr0 a, floatOr0 b with
    | some x, some y => |x - y| ≤ 1 / 10 ^ 9 * max 1 (max |x| |y|)
    | _, _ => false
  else textOf a = textOf b

/-- How a value is spelled in a message. -/
def repr : Option Value → String
  | none => "None"
  | some (.num x) => format15g x
  | some (.text s) => "'" ++ s ++ "'"

/-! ## Shapes of content -/

/-- The error of a malformed request. -/
def malformed (message : String) : DefiniteError := ⟨.ValidationException, message⟩

/-- The coordinates of one cell, when they are a list of element names. -/
def elementNames (coordinates : Option (List (Option String))) : Option (List String) := do
  let names ← (← coordinates).mapM id
  if names = [] ∨ "" ∈ names then none else some names

/-- One entry of `cells`, at a position counted from 1. -/
def cellWrite (position : ℕ) (cell : CellContent) : Except DefiniteError (List String × Value) :=
  match elementNames cell.coordinates with
  | none => .error (malformed s!"Cell {position}: coordinates must be a list of element names.")
  | some coordinates =>
    match cell.value with
    | none => .error (malformed s!"Cell {position}: value must be a number or a string.")
    | some value => .ok (coordinates, value)

/-- `_cell_writes`. -/
def _cell_writes (new_content : Option NewContent) :
    Except DefiniteError (List (List String × Value)) :=
  match new_content.bind NewContent.cells with
  | none => .error (malformed
      "write_cells requires new_content.cells: a list of \x7bcoordinates, value\x7d.")
  | some cells =>
    if cells = [] then .error (malformed
      "write_cells requires new_content.cells: a list of \x7bcoordinates, value\x7d.")
    else if MAX_CELL_WRITES < cells.length then
      .error (malformed (s!"A change can write at most {MAX_CELL_WRITES} cells; use a "
        ++ "TurboIntegrator process for a data load."))
    else cells.zipIdx.mapM fun (cell, position) => cellWrite (position + 1) cell

/-- `_view_content`: the name of the view and its MDX. -/
def _view_content (new_content : Option NewContent) : Except DefiniteError (String × String) :=
  match new_content.bind NewContent.view_name, new_content.bind NewContent.mdx with
  | some view_name, some mdx => .ok (view_name, mdx)
  | _, _ => .error (malformed "create_view requires new_content.view_name and new_content.mdx.")

/-! ## Reading the target -/

/-- The message of a failed read of cells. -/
def unreadable : cell_service.ReadCells → String
  | .error message => message
  | .invalid elements => "These elements do not exist: "
      ++ ", ".intercalate (elements.map fun (d, e) => s!"{d}:{e}")
  | .cells _ => "These elements do not exist: "

/-- `_read_values`. -/
def _read_values (tm1 : TM1) (cube : String) (coordinates : List (List String)) (s : Server) :
    Except DefiniteError (List (Option Value)) :=
  match cell_service.read_cells tm1 cube coordinates s with
  | .error e => .error e
  | .ok (.cells cells) => .ok (cells.map cell_service.ReadCell.value)
  | .ok result => .error (malformed (unreadable result))

/-- Cells that were read are cells of a cube. -/
theorem _read_values_cube {tm1 : TM1} {cube : String} {coordinates : List (List String)}
    {s : Server} {values : List (Option Value)}
    (h : _read_values tm1 cube coordinates s = .ok values) : ∃ c, s.cube cube = some c := by
  rcases hc : s.cube cube with _ | c
  · simp [_read_values, cell_service.read_cells, hc] at h
  · exact ⟨c, rfl⟩

/-- What `_server_fingerprint` hashes of the target as the server holds it, and
nothing for a change that no later edit could spoil. -/
def _server_fingerprint (tm1 : TM1) (change_type : ChangeType) (target : String)
    (content : Option NewContent) (a : Answer) (s : Server) :
    Except AppException (Option Digest) :=
  match change_type with
  | .update_rules =>
    (a.reply (cube_service.get_cube_rules target) s).map fun text =>
      some (.rules (_rules_text text))
  | .update_process | .delete_process =>
    (a.reply (process_service.get_process_body target) s).map fun p => some (.code (_code_of p))
  | .write_cells =>
    match _cell_writes content with
    | .error e => .error (.definite e)
    | .ok writes =>
      (a.reply (_read_values tm1 target (writes.map Prod.fst)) s).map fun values =>
        some (.cells (values.map _normal))
  | .create_process | .run_process | .create_view => .ok none

/-- `_fingerprint`: what makes a proposal what it is. -/
def _fingerprint (change_type : ChangeType) (target_name : String)
    (new_content : Option NewContent) : Digest :=
  .proposal change_type target_name new_content

end PaCopilot.change_service
