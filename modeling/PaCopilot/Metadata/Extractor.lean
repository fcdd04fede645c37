/-
`extract_metadata` and `refresh_process` (`tm1/metadata/extractor.py`): the graph of a TM1
model from scratch, and what is done to it when one process has changed.

What TM1 holds is a [`Model`]. Its names ignore case, and more ([`Reader.key`]); the graph
finds them by exact or lower-case name. The parsers of TI and of rules are parameters.
-/
import PaCopilot.Metadata.Writer
import PaCopilot.Change.Draft

set_option autoImplicit false
set_option linter.dupNamespace false

namespace PaCopilot.metadata

/-! ## The model -/

/-- What the extraction reads of a process. -/
structure ProcessInfo where
  name : String
  prolog : String := ""
  metadata : String := ""
  data : String := ""
  epilog : String := ""
  datasource_type : String := "None"
  datasource_name : String := ""
  datasource_view : String := ""
  deriving DecidableEq

/-- `ObjectRef`, with the TI function that made the reference. -/
structure ObjectRef extends change_service.ObjectRef where
  function : String
  deriving DecidableEq

structure CubeInfo where
  name : String
  dimensions : List String
  has_rules : Bool
  rules : String

structure ChoreInfo where
  name : String
  process_names : List String

/-- How names are compared, and the parsers. TM1 takes two names for the same exactly when
their keys are equal; names that differ in case only are the same. `control` tells the
processes that TM1 does not list. -/
structure Reader where
  lower : String → String
  key : String → String
  key_of_lower : ∀ a b, lower a = lower b → key a = key b
  control : String → Bool
  parse_process_code : ProcessInfo → List ObjectRef
  extract_rule_cube_references : String → List String

/-- What a model has besides processes and chores. The views of a cube and the subsets of a
dimension are the public ones, `none` where TM1 does not list them. -/
structure Structures where
  cubes : List CubeInfo
  hierarchy_names : String → List String
  views : String → Option (List String)
  subsets : String → Option (List String)

/-- A TM1 model: no two objects of one type have the same name. -/
structure Model (rd : Reader) extends Structures where
  processes : List ProcessInfo
  chores : List ChoreInfo
  cube_names : ∀ c ∈ cubes, ∀ c' ∈ cubes, rd.key c.name = rd.key c'.name → c.name = c'.name
  dimension_names : ∀ c ∈ cubes, ∀ c' ∈ cubes, ∀ d ∈ c.dimensions, ∀ d' ∈ c'.dimensions,
    rd.key d = rd.key d' → d = d'
  process_names : (processes.map fun p => rd.key p.name).Nodup

namespace Model

variable {rd : Reader} (m : Model rd)

/-- `list_processes`. -/
def listed : List ProcessInfo := m.processes.filter fun p => !rd.control p.name

/-- `get_process`. -/
def get_process (name : String) : Option ProcessInfo :=
  m.processes.find? fun p => rd.key p.name = rd.key name

end Model

/-! ## Finding objects the way TI names them -/

namespace _GraphIndex

variable (rd : Reader) (index : List Key)

def get (kind name : String) : Option Key := if (kind, name) ∈ index then some (kind, name) else none

/-- By exact name, or else by lower-case name, the last one of several. -/
def lookup (kind name : String) : Option Key :=
  (get index kind name).or
    (index.reverse.find? fun k => k.1 = kind ∧ rd.lower k.2 = rd.lower name)

/-- `name.partition(":")[2]`. -/
def short (name : String) : String := String.ofList ((name.toList.dropWhile (· ≠ ':')).drop 1)

def by_short_name (kind name : String) : Option Key :=
  match index.filter fun k => k.1 = kind ∧ rd.lower (short k.2) = rd.lower name with
  | [k] => some k
  | _ => none

end _GraphIndex

/-- TI functions that change a dimension. -/
def DIMENSION_WRITE_FUNCTIONS : List String :=
  [ "DIMENSIONCREATE",
    "DIMENSIONDESTROY",
    "DIMENSIONDELETEALLELEMENTS",
    "DIMENSIONELEMENTINSERT",
    "DIMENSIONELEMENTDELETE",
    "DIMENSIONELEMENTCOMPONENTADD",
    "DIMENSIONELEMENTCOMPONENTDELETE",
    "ATTRPUTS",
    "ATTRPUTN",
    "ATTRINSERT",
    "ATTRDELETE" ]

section Edges

open _GraphIndex

variable (rd : Reader) (index : List Key)

/-- The edges of the data source. -/
def datasource_edges (info : ProcessInfo) : List (Key × String) :=
  if info.datasource_type = "TM1CubeView" then
    match lookup rd index "cube" info.datasource_name with
    | none => []
    | some source_cube =>
      (source_cube, "reads_cube") ::
        (if info.datasource_view = "" then []
        else ((get index "view" (source_cube.2 ++ ":" ++ info.datasource_view)).map
          fun source_view => (source_view, "reads_view")).toList)
  else []

/-- The edge of a reference, if it is by a literal name that is found. -/
def reference_edge (ref : ObjectRef) : Option (Key × String) :=
  if ref.literal = false then none
  else if ref.kind = "cube" ∧ (ref.access = "write" ∨ ref.access = "read") then
    (lookup rd index "cube" ref.name).map fun target =>
      (target, if ref.access = "write" then "updates_cube" else "reads_cube")
  else if ref.kind = "process" ∧ ref.access = "calls" then
    (lookup rd index "process" ref.name).map fun target => (target, "calls_process")
  else if ref.kind = "dimension" then
    (lookup rd index "dimension" ref.name).map fun target =>
      (target, if ref.function ∈ DIMENSION_WRITE_FUNCTIONS then "updates_dimension"
        else "references_dimension")
  -- these are stored under cube and name, and looked up by the name alone
  else if ref.kind = "view" ∨ ref.kind = "subset" then
    (by_short_name rd index ref.kind ref.name).map fun target => (target, "uses_" ++ ref.kind)
  else none

/-- The edges of a process, and how many of its references are not literal. -/
def process_edges (info : ProcessInfo) : List (Key × String) × ℕ :=
  let objects := rd.parse_process_code info
  (datasource_edges rd index info ++ objects.filterMap (reference_edge rd index),
    objects.countP fun ref => !ref.literal && ref.kind ∈ ["cube", "dimension", "process"])

end Edges

/-! ## Extraction -/

def MAX_VIEWS_PER_CUBE : ℕ := 50

def MAX_SUBSETS_PER_DIMENSION : ℕ := 50

structure ExtractionSummary where
  objects_created : ℕ
  relationships_created : ℕ
  unresolved_references : ℕ
  deriving DecidableEq

/-- `list_names`. -/
def Graph.list_names (g : Graph) (object_type : String) : List String :=
  (g.keys.filter fun k => k.1 = object_type).map Prod.snd

section Extract

variable (rd : Reader) (organization_id : ℕ)

/-- An object is added, then an edge. -/
def attach (k a b : Key) (relationship_type : String) (g : Graph) : Graph :=
  (g.add_object organization_id k).add_relationship a b relationship_type

def extract_cube (g : Graph) (cube : CubeInfo) : Graph :=
  cube.dimensions.foldl
    (fun g name => attach organization_id ("dimension", name) ("cube", cube.name)
      ("dimension", name) "uses_dimension" g)
    (g.add_object organization_id ("cube", cube.name))

def extract_hierarchies (s : Structures) (g : Graph) (dimension : String) : Graph :=
  (s.hierarchy_names dimension).foldl
    (fun g name => attach organization_id ("hierarchy", dimension ++ ":" ++ name)
      ("dimension", dimension) ("hierarchy", dimension ++ ":" ++ name) "contains_hierarchy" g) g

/-- References to the cube itself and to cubes that are not in the model are skipped. -/
def extract_rules (g : Graph) (cube : CubeInfo) : Graph :=
  (rd.extract_rule_cube_references cube.rules).foldl
    (fun g referenced =>
      if referenced = cube.name then g
      else if ("cube", referenced) ∈ g.keys then
        g.add_relationship ("cube", cube.name) ("cube", referenced) "references_cube"
      else g) g

def extract_views (s : Structures) (g : Graph) (cube : String) : Graph :=
  (((s.views cube).getD []).take MAX_VIEWS_PER_CUBE).foldl
    (fun g name => attach organization_id ("view", cube ++ ":" ++ name)
      ("view", cube ++ ":" ++ name) ("cube", cube) "view_of_cube" g) g

def extract_subsets (s : Structures) (g : Graph) (dimension : String) : Graph :=
  (((s.subsets dimension).getD []).take MAX_SUBSETS_PER_DIMENSION).foldl
    (fun g name => attach organization_id ("subset", dimension ++ ":" ++ name)
      ("subset", dimension ++ ":" ++ name) ("dimension", dimension) "subset_of_dimension" g) g

/-- The cubes, dimensions, hierarchies, rules, views and subsets. -/
def extract_structures (s : Structures) : Graph :=
  let g := s.cubes.foldl (extract_cube organization_id) Graph.empty
  let g := (g.list_names "dimension").foldl (extract_hierarchies organization_id s) g
  let g := (s.cubes.filter CubeInfo.has_rules).foldl (extract_rules rd) g
  let g := (g.list_names "cube").foldl (extract_views organization_id s) g
  (g.list_names "dimension").foldl (extract_subsets organization_id s) g

/-- The edges of a process, except one to itself. No edge is added twice. -/
def add_process_edges (process : Key) (edges : List (Key × String)) (g : Graph) : Graph :=
  edges.foldl
    (fun g (target, relationship) =>
      if target = process then g else g.add_relationship process target relationship) g

def extract_chore (g : Graph) (chore : ChoreInfo) : Graph :=
  chore.process_names.foldl
    (fun g name =>
      if ("process", name) ∈ g.keys then
        g.add_relationship ("chore", chore.name) ("process", name) "runs_process"
      else g)
    (g.add_object organization_id ("chore", chore.name))

/-- Every process is an object before the first edge is drawn. -/
def extract_nodes (m : Model rd) : Graph :=
  m.listed.foldl (fun g p => g.add_object organization_id ("process", p.name))
    (extract_structures rd organization_id m.toStructures)

def extract_processes (m : Model rd) : Graph :=
  let nodes := extract_nodes rd organization_id m
  m.listed.foldl
    (fun g p => add_process_edges ("process", p.name) (process_edges rd nodes.keys p).1 g) nodes

def extract_metadata (m : Model rd) : Graph × ExtractionSummary :=
  let index := (extract_nodes rd organization_id m).keys
  let unresolved := (m.listed.map fun p => (process_edges rd index p).2).sum
  let g := m.chores.foldl (extract_chore organization_id) (extract_processes rd organization_id m)
  (g, ⟨g.objects.length, g.relationships.length, unresolved⟩)

/-! ## Refresh -/

/-- `refresh_process`: the graph, and whether it was touched. The process that is read is
what `get_process` returns, under the name that TM1 has for it. -/
def refresh_process (get_process : String → Option ProcessInfo) (g : Graph) (process_name : String)
    (deleted : Bool) : Except AppException (Graph × Bool) :=
  -- nothing was extracted yet, and a refresh is no extraction
  if g.objects = [] then .ok (g, false)
  else
    let index := g.keys
    let existing := (_GraphIndex.lookup rd index "process" process_name).bind fun k =>
      g.get_by_name k.1 k.2
    if deleted then
      match existing with
      | none => .ok (g, true)
      | some o => .ok (g.drop_object o.id, true)
    else
      match get_process process_name with
      | none => .error (.definite notFound)
      | some info => do
        let (process, g) ← match existing with
          -- found under the name it has in the graph, and that name stays
          | some o => pure (o.key, g.drop_outgoing o.id)
          | none => do
            -- TM1's name for it may be taken although the lookup of the given one found nothing
            refuse (("process", info.name) ∈ g.keys) IntegrityError
            pure (("process", info.name), g.add_object organization_id ("process", info.name))
        return (add_process_edges process (process_edges rd index info).1 g, true)

/-- `_refresh_graph`: only for changes to the code of a process, in a savepoint. -/
def _refresh_graph (get_process : String → Option ProcessInfo) (change_type : ChangeType)
    (target_name : String) (deleted : Bool) (g : Graph) : Graph :=
  match change_type with
  | .create_process | .update_process | .delete_process =>
    match refresh_process rd organization_id get_process g target_name deleted with
    | .ok (refreshed, _) => refreshed
    | .error _ => g
  | _ => g

end Extract

end PaCopilot.metadata
