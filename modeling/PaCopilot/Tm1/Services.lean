/-
The services under `tm1/services/`, each as TM1 carries it out: what it returns
or leaves on the server, or the error it is refused with.

Whether TM1 answers at all is not their matter. A call made by the change service
is one of these functions under an `Answer` (`Remote.ask` for a read,
`Remote.send` for a write).
-/
import PaCopilot.Tm1.Server

set_option autoImplicit false

namespace PaCopilot

/-- TM1 has no such object. -/
def notFound : DefiniteError := ⟨.TM1NotFoundError, "TM1 returned HTTP 404 (Not Found)."⟩

/-- TM1 does not accept the request. -/
def badRequest : DefiniteError := ⟨.TM1ConnectionError, "TM1 returned HTTP 400 (Bad Request)."⟩

/-! ## Cubes -/

namespace cube_service

def get_cube (name : String) (s : Server) : Except DefiniteError Cube :=
  match s.cube name with
  | some c => .ok c
  | none => .error notFound

/-- The rule text, or nothing for a cube without rules. -/
def get_cube_rules (name : String) (s : Server) : Except DefiniteError (Option String) :=
  match s.cube name with
  | some c => .ok (if c.rules = "" then none else some c.rules)
  | none => .error notFound

def update_cube_rules (name rules_text : String) (s : Server) : Except DefiniteError Server :=
  match s.cube name with
  | some c => .ok (s.setCube name (some { c with rules := rules_text }))
  | none => .error notFound

/-- The errors in the cube's saved rules, or nothing where TM1 has no rule
check. -/
def check_cube_rules (tm1 : TM1) (name : String) (s : Server) :
    Except DefiniteError (Option (List String)) :=
  match s.cube name with
  | some _ => .ok (tm1.checkRules s name)
  | none => .error notFound

end cube_service

/-! ## Processes -/

namespace process_service

/-- `get_process` and `get_process_body`. -/
def get_process_body (name : String) (s : Server) : Except DefiniteError Process :=
  match s.process name with
  | some p => .ok p
  | none => .error notFound

theorem get_process_body_ok {name : String} {s : Server} {p : Process}
    (h : get_process_body name s = .ok p) : s.process name = some p := by
  rcases hp : s.process name with _ | q
  · simp [get_process_body, hp] at h
  · simp only [get_process_body, hp, Except.ok.injEq] at h
    rw [h]

def process_exists (name : String) (s : Server) : Except DefiniteError Bool :=
  .ok (s.process name).isSome

theorem process_exists_ok {name : String} {s : Server} {there : Bool}
    (h : process_exists name s = .ok there) : (s.process name).isSome = there :=
  Except.ok.inj h

def compile_process_dryrun (tm1 : TM1) (p : Process) (s : Server) :
    Except DefiniteError (List String) :=
  .ok (tm1.compileDryrun s p)

def compile_process_on_server (tm1 : TM1) (name : String) (s : Server) :
    Except DefiniteError (List String) :=
  match s.process name with
  | some _ => .ok (tm1.compile s name)
  | none => .error notFound

def update_or_create_process (p : Process) (s : Server) : Except DefiniteError Server :=
  .ok (s.putProcess p)

def delete_process (name : String) (s : Server) : Except DefiniteError Server :=
  match s.process name with
  | some _ => .ok (s.dropProcess name)
  | none => .error notFound

theorem delete_process_ok {name : String} {s s' : Server} (h : delete_process name s = .ok s') :
    s' = s.dropProcess name := by
  rcases hp : s.process name with _ | p
  · simp [delete_process, hp] at h
  · simp only [delete_process, hp, Except.ok.injEq] at h
    exact h.symm

end process_service

/-! ## Views -/

namespace view_service

def view_exists (cube_name view_name : String) (s : Server) : Except DefiniteError Bool :=
  .ok (s.view cube_name view_name).isSome

theorem view_exists_ok {cube_name view_name : String} {s : Server} {there : Bool}
    (h : view_exists cube_name view_name s = .ok there) :
    (s.view cube_name view_name).isSome = there :=
  Except.ok.inj h

/-- A public MDX view. Its cube has to exist, and its name has to be free. -/
def create_mdx_view (tm1 : TM1) (cube_name view_name mdx : String) (s : Server) :
    Except DefiniteError Server :=
  match s.cube cube_name with
  | none => .error notFound
  | some _ =>
    match s.view cube_name view_name with
    | some _ => .error badRequest
    | none => .ok (s.setView cube_name view_name (some ⟨"mdx", some (tm1.savedMdx mdx)⟩))

def delete_view (cube_name view_name : String) (s : Server) : Except DefiniteError Server :=
  match s.view cube_name view_name with
  | some _ => .ok (s.setView cube_name view_name none)
  | none => .error notFound

end view_service

namespace structure_service

def get_view (cube_name view_name : String) (s : Server) : Except DefiniteError View :=
  match s.view cube_name view_name with
  | some v => .ok v
  | none => .error notFound

theorem get_view_ok {cube_name view_name : String} {s : Server} {v : View}
    (h : get_view cube_name view_name s = .ok v) : s.view cube_name view_name = some v := by
  rcases hv : s.view cube_name view_name with _ | w
  · simp [get_view, hv] at h
  · simp only [get_view, hv, Except.ok.injEq] at h
    rw [h]

end structure_service

/-! ## Cells -/

namespace cell_service

/-- Element-existence checks made to explain a failed read. -/
def MAX_EXISTENCE_CHECKS : ℕ := 60

structure ReadCell where
  coordinates : List String
  value : Option Value
  rule_derived : Bool
  consolidated : Bool
  deriving DecidableEq

/-- What `read_cells` returns: the cells, the reason the coordinates do not fit
the cube, or the elements that do not exist. -/
inductive ReadCells
  | cells (cells : List ReadCell)
  | error (message : String)
  | invalid (elements : List (String × String))
  deriving DecidableEq

/-- A list of positions as Python prints it. -/
def showPositions (positions : List ℕ) : String :=
  "[" ++ ", ".intercalate (positions.map toString) ++ "]"

/-- What the cellset holds of the cell at `position`: it is looked up under the
names of the request, and otherwise (an alias was given) taken by its position
among the cells of the cellset, which are there once each under their own
names. -/
def cellsetGet (key : String → String) (cellset : List (List String)) (position : ℕ)
    (coordinates : List String) : Option (List String) :=
  match cellset.find? fun m => m.map key = coordinates.map key with
  | some m => some m
  | none => cellset[position]?

/-- One cell of the answer. -/
def readCell (tm1 : TM1) (c : Cube) (coordinates : List String) :
    Option (List String) → ReadCell
  | some m => ⟨coordinates, tm1.reported c m, tm1.ruleDerived c.rules m, c.consolidated m⟩
  | none => ⟨coordinates, none, false, false⟩

/-- `read_cells`. -/
def read_cells (tm1 : TM1) (cube_name : String) (coordinates : List (List String)) (s : Server) :
    Except DefiniteError ReadCells :=
  match s.cube cube_name with
  | none => .error notFound
  | some c =>
    let wrong_length := (coordinates.zipIdx.filter fun (coordinate, _) =>
      coordinate.length ≠ c.dimensions.length).map Prod.snd
    if wrong_length ≠ [] then
      .ok (.error (s!"Coordinates {showPositions wrong_length} do not name one element per "
        ++ s!"dimension. {cube_name} has {c.dimensions.length} dimensions, " ++ "in this order."))
    else
      match coordinates.mapM c.member with
      | none =>
        -- an element that does not exist is looked for, but not without end
        let named := (coordinates.flatMap fun coordinate => c.dimensions.zip coordinate).reverse.dedup
        let checked := named.reverse.take MAX_EXISTENCE_CHECKS
        let invalid := checked.filter fun (d, e) => (c.element d e).isNone
        if invalid ≠ [] then .ok (.invalid invalid) else .error badRequest
      | some members =>
        -- a cell that is named twice is read once
        let cellset := members.reverse.dedup.reverse
        .ok (.cells (coordinates.zipIdx.map fun (coordinate, position) =>
          readCell tm1 c coordinate (cellsetGet s.key cellset position coordinate)))

/-- `{tuple(coordinates): value for ...}`: a coordinate keeps the place of its
first entry and the value of its last one. -/
def asDict (values : List (List String × Value)) : List (List String × Value) :=
  values.foldl
    (fun dict entry =>
      if entry.1 ∈ dict.map Prod.fst then
        dict.map fun old => if old.1 = entry.1 then entry else old
      else dict ++ [entry])
    []

/-- `write_cells`: the whole payload, or nothing. -/
def write_cells (tm1 : TM1) (cube_name : String) (values : List (List String × Value))
    (s : Server) : Except DefiniteError Server :=
  match s.cube cube_name with
  | none => .error notFound
  | some c =>
    match tm1.putAll c (asDict values) with
    | some c' => .ok (s.setCube cube_name (some c'))
    | none => .error badRequest

end cell_service

end PaCopilot
