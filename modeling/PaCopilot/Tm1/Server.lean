/-
The TM1 server as the code relies on it.

TM1 and TM1py are not part of the repository. What the change service needs to
know of them is little: which objects there are and what they hold, that a name
is found under any spelling TM1 takes for it, that a call which TM1 carries out
leaves exactly what it was asked to leave, and how TM1 reports an empty cell.
`Server` is the first half, `TM1` collects the rest as parameters, so that every
theorem holds for any server that behaves as documented.

A process is kept under its own name (`Server.named`); the proof travels with
the server, so that a snapshot written back always lands where it came from.
-/
import PaCopilot.Errors
import PaCopilot.Python
import Mathlib.Logic.Function.Basic

set_option autoImplicit false

namespace PaCopilot

open Python

/-! ## What a server holds -/

/-- A cell value as it travels in JSON: a number or a text. -/
inductive Value
  | num (x : ℚ)
  | text (s : String)
  deriving DecidableEq

/-- A JSON value where a draft may give anything: a text, a number, or something
else. `shown` is what `str` makes of it. -/
inductive Scalar
  | text (s : String)
  | number (x : ℚ) (shown : String)
  | other (shown : String)
  deriving DecidableEq

/-- `str(value)`. -/
def Scalar.str : Scalar → String
  | .text s => s
  | .number _ shown => shown
  | .other shown => shown

/-- `float(value)`, `none` where Python raises. -/
def Scalar.float : Scalar → Option ℚ
  | .text s => Python.floatOfText s
  | .number x _ => some x
  | .other _ => none

/-- What one cell holds. Whether a cell holds a number or a text is decided by
its last element and does not change. An empty numeric cell holds zero, an empty
string cell the empty text. -/
inductive Cell
  | num (x : ℚ)
  | text (s : String)
  deriving DecidableEq

/-- A cube. `element` sends a spelling of an element of a dimension to the
element's own name, `none` when there is no such element; a cell is found by the
own names of its elements. An empty rule text is a cube without rules. -/
structure Cube where
  dimensions : List String
  rules : String
  element : String → String → Option String
  consolidated : List String → Bool
  cells : List String → Cell

/-- A process variable (`Name`, `Type`, `Position`, `StartByte`, `EndByte`). -/
structure Variable where
  name : String
  type : String
  position : ℕ
  start_byte : ℕ := 0
  end_byte : ℕ := 0
  deriving DecidableEq

/-- A process parameter (`Name`, `Prompt`, `Value`, `Type`). -/
structure Parameter where
  name : String
  prompt : String
  value : Value
  type : String
  deriving DecidableEq

/-- The data source settings that a draft can set. -/
structure Datasource where
  datasource_type : String
  data_source_name_for_server : String
  data_source_name_for_client : String
  ascii_delimiter_type : String
  ascii_delimiter_char : String
  ascii_header_records : ℤ
  deriving DecidableEq

/-- A process as TM1py reads it, and its `body_as_dict`: the two carry the same
data. `rest` is what no draft has a slot for, such as the ASCII quote
character. -/
structure Process where
  name : String
  prolog_procedure : String
  metadata_procedure : String
  data_procedure : String
  epilog_procedure : String
  has_security_access : Bool
  datasource : Datasource
  parameters : List Parameter
  «variables» : List Variable
  variables_ui_data : List String
  rest : String
  deriving DecidableEq

/-- A public view: its kind, and its MDX where TM1py can render one. -/
structure View where
  type : String
  mdx : Option String
  deriving DecidableEq

/-- A TM1 server. `key` sends every spelling of a name to one text: TM1 takes two
names for the same object exactly when their keys are equal. -/
@[ext] structure Server where
  key : String → String
  cubes : String → Option Cube
  processes : String → Option Process
  views : String → String → Option View
  named : ∀ k p, processes k = some p → key p.name = k

namespace Server

/-- The cube a name stands for. -/
def cube (s : Server) (name : String) : Option Cube := s.cubes (s.key name)

/-- The process a name stands for. -/
def process (s : Server) (name : String) : Option Process := s.processes (s.key name)

/-- The public view a name stands for. -/
def view (s : Server) (cube name : String) : Option View := s.views (s.key cube) (s.key name)

/-- The server with one cube replaced. -/
def setCube (s : Server) (name : String) (c : Option Cube) : Server :=
  { s with cubes := Function.update s.cubes (s.key name) c }

/-- The server with a process kept under its name. -/
def putProcess (s : Server) (p : Process) : Server :=
  { s with
    processes := Function.update s.processes (s.key p.name) (some p)
    named := by
      intro k q hq
      by_cases hk : k = s.key p.name
      · rw [hk, Function.update_self, Option.some.injEq] at hq
        rw [hk, hq]
      · rw [Function.update_of_ne hk] at hq
        exact s.named k q hq }

/-- The server without the process of a name. -/
def dropProcess (s : Server) (name : String) : Server :=
  { s with
    processes := Function.update s.processes (s.key name) none
    named := by
      intro k q hq
      by_cases hk : k = s.key name
      · rw [hk, Function.update_self] at hq
        cases hq
      · rw [Function.update_of_ne hk] at hq
        exact s.named k q hq }

/-- The server with one public view replaced. -/
def setView (s : Server) (cube name : String) (v : Option View) : Server :=
  { s with
    views := Function.update s.views (s.key cube)
      (Function.update (s.views (s.key cube)) (s.key name) v) }

@[simp] theorem setCube_key (s : Server) (n : String) (c : Option Cube) :
    (s.setCube n c).key = s.key := rfl

@[simp] theorem putProcess_key (s : Server) (p : Process) : (s.putProcess p).key = s.key := rfl

@[simp] theorem dropProcess_key (s : Server) (n : String) : (s.dropProcess n).key = s.key := rfl

@[simp] theorem setView_key (s : Server) (c n : String) (v : Option View) :
    (s.setView c n v).key = s.key := rfl

@[simp] theorem cube_setCube (s : Server) (n : String) (c : Option Cube) :
    (s.setCube n c).cube n = c := by
  simp [cube, setCube]

@[simp] theorem process_putProcess (s : Server) (p : Process) :
    (s.putProcess p).process p.name = some p := by
  simp [process, putProcess]

@[simp] theorem process_dropProcess (s : Server) (n : String) :
    (s.dropProcess n).process n = none := by
  simp [process, dropProcess]

@[simp] theorem view_setView (s : Server) (c n : String) (v : Option View) :
    (s.setView c n v).view c n = v := by
  simp [view, setView]

@[simp] theorem setCube_setCube (s : Server) (n : String) (c d : Option Cube) :
    (s.setCube n c).setCube n d = s.setCube n d := by
  simp [setCube]

/-- Putting back what a server holds changes nothing. -/
theorem setCube_self {s : Server} {n : String} {c : Option Cube} (h : s.cube n = c) :
    s.setCube n c = s := by
  subst h
  simp [setCube, cube]

@[simp] theorem setView_setView (s : Server) (c n : String) (v w : Option View) :
    (s.setView c n v).setView c n w = s.setView c n w := by
  simp [setView]

theorem setView_self {s : Server} {c n : String} {v : Option View} (h : s.view c n = v) :
    s.setView c n v = s := by
  subst h
  simp [setView, view]

/-- The process found under a name has a name with the same key. -/
theorem key_of_process {s : Server} {n : String} {p : Process} (h : s.process n = some p) :
    s.key p.name = s.key n :=
  s.named _ _ h

/-- Writing a process over another one of the same key, or over none, leaves the
new one. -/
theorem putProcess_putProcess {s : Server} {p q : Process} (h : s.key p.name = s.key q.name) :
    (s.putProcess p).putProcess q = s.putProcess q := by
  ext <;> simp [putProcess, h]

theorem putProcess_dropProcess {s : Server} {n : String} {p : Process}
    (h : s.key p.name = s.key n) : (s.dropProcess n).putProcess p = s.putProcess p := by
  ext <;> simp [putProcess, dropProcess, h]

theorem dropProcess_putProcess {s : Server} {n : String} {p : Process}
    (h : s.key p.name = s.key n) : (s.putProcess p).dropProcess n = s.dropProcess n := by
  ext <;> simp [putProcess, dropProcess, h]

theorem putProcess_self {s : Server} {n : String} {p : Process} (h : s.process n = some p) :
    s.putProcess p = s := by
  have hk := key_of_process h
  ext1
  · rfl
  · rfl
  · simp only [putProcess, hk]
    rw [← h]
    exact Function.update_eq_self _ _
  · rfl

theorem dropProcess_self {s : Server} {n : String} (h : s.process n = none) :
    s.dropProcess n = s := by
  ext1
  · rfl
  · rfl
  · simp only [dropProcess]
    rw [← h]
    exact Function.update_eq_self _ _
  · rfl

end Server

/-! ## How a server behaves -/

/-- What TM1 and TM1py do by themselves. `ruleDerived` says which cells a rule text
calculates and `calculate` what TM1 reports for a calculated or a consolidated
cell. `checkRules` is `none` on a server without the action (TM1 11.0).
`nullZero` and `nullText` say whether an empty numeric, an empty string cell is
reported as null. `textValues` is a server that takes every cell value as text
(TM1 11.0). `numberInText` and `readNumber` are what a string cell makes of a
number and a numeric cell of a text, `none` for a refusal: a number kept as text
is never the empty text. `savedMdx` is the MDX that TM1 keeps of a saved view.
`runProcess` is a run: the server after it, whether it completed, its status,
the name of its error log, TM1's error text, and the TM1 call that ran it.
`newProcess` is TM1py's empty process of a name, and `generated` is a code
section as TM1py keeps it once set, with the block of generated statements every
section starts with. -/
structure TM1 where
  ruleDerived : String → List String → Bool
  calculate : Cube → List String → Cell
  checkRules : Server → String → Option (List String)
  compile : Server → String → List String
  compileDryrun : Server → Process → List String
  nullZero : Bool
  nullText : Bool
  textValues : Bool
  numberInText : ℚ → Option String
  readNumber : String → Option ℚ
  savedMdx : String → String
  runProcess : Server → String → List (String × Scalar) →
    Server × Bool × String × String × Option String × String
  errorLog : Server → String → String
  newProcess : String → Process
  generated : String → String
  numberInText_ne : ∀ x s, numberInText x = some s → s ≠ ""
  newProcess_name : ∀ name, (newProcess name).name = name

namespace Cube

/-- The own names of the elements that coordinates name, or `none` when one of
them does not exist. -/
def member (c : Cube) (coordinates : List String) : Option (List String) :=
  (c.dimensions.zip coordinates).mapM fun (d, e) => c.element d e

/-- The cell coordinates stand for, when they have an element of each dimension. -/
def cellOf (c : Cube) (coordinates : List String) : Option (List String) :=
  if coordinates.length = c.dimensions.length then c.member coordinates else none

/-- The cube with other cells. -/
def withCells (c : Cube) (cells : List String → Cell) : Cube := { c with cells := cells }

end Cube

namespace TM1

/-- A cell's value as a read reports it. -/
def report (tm1 : TM1) : Cell → Option Value
  | .num x => if x = 0 && tm1.nullZero then none else some (.num x)
  | .text s => if s = "" && tm1.nullText then none else some (.text s)

/-- A cell that holds no value of its own: TM1 calculates it. -/
def calculated (tm1 : TM1) (c : Cube) (member : List String) : Bool :=
  c.consolidated member || tm1.ruleDerived c.rules member

/-- What a read of a cell reports. -/
def reported (tm1 : TM1) (c : Cube) (member : List String) : Option Value :=
  tm1.report (if tm1.calculated c member then tm1.calculate c member else c.cells member)

/-- The cell after TM1 takes a value for it, or `none` when it refuses the
value. A server that takes every value as text holds the number its text
spells. -/
def taken (tm1 : TM1) : Cell → Value → Option Cell
  | .num _, .num x => some (.num (if tm1.textValues then fifteen x else x))
  | .num _, .text s => (tm1.readNumber s).map .num
  | .text _, .text s => some (.text s)
  | .text _, .num x =>
    if tm1.textValues then some (.text (format15g x)) else (tm1.numberInText x).map .text

/-- One cell of a payload. TM1 refuses a value for a cell that does not exist or
that it calculates. -/
def put (tm1 : TM1) (c : Cube) (coordinates : List String) (value : Value) : Option Cube :=
  match c.cellOf coordinates with
  | none => none
  | some member =>
    if tm1.calculated c member then none
    else (tm1.taken (c.cells member) value).map fun cell =>
      c.withCells (Function.update c.cells member cell)

/-- A payload: all of it, or nothing. -/
def putAll (tm1 : TM1) (c : Cube) (payload : List (List String × Value)) : Option Cube :=
  payload.foldlM (fun c entry => tm1.put c entry.1 entry.2) c

end TM1

/-! ## A small server

One cube and one process, on a TM1 of the current version. The witnesses of the
conditional results use it. -/

/-- The cube `Sales`: years by measures. -/
def sales : Cube where
  dimensions := ["Year", "Measure"]
  rules := "['Net'] = ['Gross'] * 0.8;"
  element dimension name :=
    if dimension = "Year" ∧ name ∈ ["2025", "2026"] then some name
    else if dimension = "Measure" ∧ name ∈ ["Gross", "Net", "Comment"] then some name
    else none
  consolidated _ := false
  cells member := if member.getLast? = some "Comment" then .text "" else .num 100

/-- The process `Load`. -/
def load : Process where
  name := "Load"
  prolog_procedure := "sFile = 'sales.csv';"
  metadata_procedure := ""
  data_procedure := "CellPutN(vValue, 'Sales', vYear, 'Gross');"
  epilog_procedure := ""
  has_security_access := false
  datasource := ⟨"ASCII", "sales.csv", "sales.csv", "Character", ",", 1⟩
  parameters := [⟨"pYear", "Year", .text "2025", "String"⟩]
  «variables» := [⟨"vYear", "String", 1, 0, 0⟩, ⟨"vValue", "Numeric", 2, 0, 0⟩]
  variables_ui_data := ["VarType=32\rColType=827\r", "VarType=33\rColType=827\r"]
  rest := ""

/-- The server that holds the two and no view. -/
def smallServer : Server where
  key := id
  cubes name := if name = "Sales" then some sales else none
  processes name := if name = "Load" then some load else none
  views _ _ := none
  named k p h := by
    split at h
    · rw [Option.some.injEq] at h
      rw [← h, ‹k = "Load"›]
      rfl
    · cases h

/-- A TM1 of the current version: it checks rules, keeps numbers as numbers, and
reports an empty string cell as null. -/
def currentTM1 : TM1 where
  ruleDerived rules member := rules ≠ "" && member.getLast? = some "Net"
  calculate _ _ := .num 80
  checkRules _ _ := some []
  compile _ _ := []
  compileDryrun _ _ := []
  nullZero := false
  nullText := true
  textValues := false
  numberInText _ := none
  readNumber _ := none
  savedMdx mdx := mdx
  runProcess s _ _ := (s, true, "CompletedSuccessfully", "", none, "ExecuteWithReturn")
  errorLog _ _ := ""
  newProcess name := ⟨name, "", "", "", "", false, ⟨"None", "", "", "", "", 0⟩, [], [], [], ""⟩
  generated code := code
  numberInText_ne _ _ h := by cases h
  newProcess_name _ := rfl

end PaCopilot
