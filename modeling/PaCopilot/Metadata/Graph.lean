/-
The dependency graph of a connection, as `tm1_objects` and `tm1_relationships` store
it, and the traversals of `tm1/metadata/dependency_analyzer.py`.

A query for the edges of an object names no order, so the order is what the database
gives: a graph may be read in any [`RowOrder`].
-/
import PaCopilot.Errors
import PaCopilot.Python
import PaCopilot.Lib.Bfs
import PaCopilot.Lib.Table

set_option autoImplicit false

namespace PaCopilot.metadata

open Bfs Table

/-! ## The tables -/

structure TM1Object where
  id : ℕ
  organization_id : ℕ
  object_type : String
  name : String
  deriving DecidableEq

structure TM1Relationship where
  from_object_id : ℕ
  to_object_id : ℕ
  relationship_type : String
  deriving DecidableEq

/-- The rows of one connection. An edge goes with its objects (`ON DELETE CASCADE`). -/
structure Graph where
  objects : List TM1Object
  relationships : List TM1Relationship
  ids : Unique everyRow TM1Object.id objects
  uq_tm1_objects_connection_type_name :
    Unique everyRow (fun o => (o.object_type, o.name)) objects
  from_object : ∀ r ∈ relationships, ∃ o ∈ objects, o.id = r.from_object_id
  to_object : ∀ r ∈ relationships, ∃ o ∈ objects, o.id = r.to_object_id

namespace Graph

variable (g : Graph)

def get_by_id (object_id : ℕ) : Option TM1Object := g.objects.find? fun o => o.id = object_id

def get_by_name (object_type name : String) : Option TM1Object :=
  g.objects.find? fun o => o.object_type = object_type ∧ o.name = name

end Graph

/-- The way a traversal takes the edges. -/
inductive Direction
  | incoming
  | outgoing
  deriving DecidableEq

namespace Direction

/-- The end of an edge that its query names. -/
def current : Direction → TM1Relationship → ℕ
  | incoming, r => r.to_object_id
  | outgoing, r => r.from_object_id

/-- `neighbor_id`. -/
def neighbor : Direction → TM1Relationship → ℕ
  | incoming, r => r.from_object_id
  | outgoing, r => r.to_object_id

end Direction

/-- The order in which the database returns the edges of an object: `list_by_to_object`
for the incoming ones, `list_by_from_object` for the outgoing ones. -/
structure RowOrder (g : Graph) where
  list_by : Direction → ℕ → List TM1Relationship
  perm : ∀ direction object_id, (list_by direction object_id).Perm
    (g.relationships.filter fun r => direction.current r = object_id)

/-- The order of the table. -/
def Graph.stored (g : Graph) : RowOrder g where
  list_by direction object_id := g.relationships.filter fun r => direction.current r = object_id
  perm _ _ := List.Perm.refl _

/-! ## Traversal -/

def MAX_TRAVERSAL_NODES : ℕ := 1000

/-- One object that a traversal reached. -/
structure Entry where
  object_type : String
  name : String
  relationship_type : String
  via : String
  depth : ℕ
  deriving DecidableEq

section Traverse

variable {g : Graph} (order : RowOrder g) (direction : Direction)

/-- The edges of an object with the neighbours that there are. -/
def neighbors (object_id : ℕ) : List (ℕ × TM1Relationship) :=
  ((order.list_by direction object_id).filter fun r =>
    (g.get_by_id (direction.neighbor r)).isSome).map fun r => (direction.neighbor r, r)

/-- What is kept of an object that was found. -/
def entryOf (g : Graph) (found : Found ℕ TM1Relationship) : Option Entry := do
  let neighbor ← g.get_by_id found.node
  let current ← g.get_by_id found.parent
  some ⟨neighbor.object_type, neighbor.name, found.edge.relationship_type, current.name,
    found.depth⟩

def _traverse (start : TM1Object) (max_depth : ℕ) : List Entry :=
  (bfs (neighbors order direction) MAX_TRAVERSAL_NODES max_depth g.objects.length
    start.id).filterMap (entryOf g)

def notInGraph (object_type name : String) : AppException :=
  NotFoundException (Python.capitalize object_type ++ " '" ++ name ++ "' not found in the metadata "
    ++ "graph. Run metadata extraction for this connection first.")

def _resolve_object (g : Graph) (organization_id : ℕ) (object_type name : String) :
    Except AppException TM1Object :=
  match g.get_by_name object_type name with
  | none => .error (notInGraph object_type name)
  | some found => do
    refuse (found.organization_id ≠ organization_id) (notInGraph object_type name)
    return found

def find_dependents (organization_id : ℕ) (object_type name : String) (max_depth : ℕ) :
    Except AppException (List Entry) := do
  let start ← _resolve_object g organization_id object_type name
  return _traverse order .incoming start max_depth

def find_dependencies (organization_id : ℕ) (object_type name : String) (max_depth : ℕ) :
    Except AppException (List Entry) := do
  let start ← _resolve_object g organization_id object_type name
  return _traverse order .outgoing start max_depth

end Traverse

/-! ## What is stored -/

section Stored

variable {g : Graph} {order : RowOrder g} {direction : Direction} {object_id : ℕ}
  {o : TM1Object} {r : TM1Relationship}

/-- An object stands for its identifier. -/
theorem get_by_id_iff : g.get_by_id object_id = some o ↔ o ∈ g.objects ∧ o.id = object_id := by
  constructor
  · intro h
    have hid := List.find?_some h
    exact ⟨List.mem_of_find?_eq_some h, of_decide_eq_true hid⟩
  · rintro ⟨hmem, rfl⟩
    rcases hfind : g.get_by_id o.id with _ | found
    · exact absurd (decide_eq_true rfl) (List.find?_eq_none.mp hfind o hmem)
    · have hid := List.find?_some hfind
      have hsame := g.ids.eq (List.mem_of_find?_eq_some hfind) hmem rfl rfl (of_decide_eq_true hid)
      rw [hsame]

theorem resolve_object_ok {organization_id : ℕ} {object_type name : String}
    (h : _resolve_object g organization_id object_type name = .ok o) :
    o ∈ g.objects ∧ o.object_type = object_type ∧ o.name = name := by
  unfold _resolve_object at h
  rcases hfind : g.get_by_name object_type name with _ | found
  · rw [hfind] at h
    cases h
  · rw [hfind] at h
    obtain ⟨_, h⟩ := rest_of_bind h
    cases h
    have hnamed := List.find?_some hfind
    exact ⟨List.mem_of_find?_eq_some hfind, of_decide_eq_true hnamed⟩

/-- The neighbour of an edge is there. -/
theorem neighbor_mem (direction : Direction) (hr : r ∈ g.relationships) :
    ∃ o ∈ g.objects, o.id = direction.neighbor r := by
  cases direction with
  | incoming => exact g.from_object r hr
  | outgoing => exact g.to_object r hr

theorem current_mem (direction : Direction) (hr : r ∈ g.relationships) :
    ∃ o ∈ g.objects, o.id = direction.current r := by
  cases direction with
  | incoming => exact g.to_object r hr
  | outgoing => exact g.from_object r hr

theorem mem_list_by : r ∈ order.list_by direction object_id ↔
    r ∈ g.relationships ∧ direction.current r = object_id := by
  rw [(order.perm direction object_id).mem_iff, List.mem_filter, decide_eq_true_eq]

/-- No edge is left out for a missing neighbour. -/
theorem neighbors_eq (order : RowOrder g) (direction : Direction) (object_id : ℕ) :
    neighbors order direction object_id
      = (order.list_by direction object_id).map fun r => (direction.neighbor r, r) := by
  rw [neighbors, List.filter_eq_self.mpr]
  intro r hr
  obtain ⟨o, ho, hid⟩ := neighbor_mem direction (mem_list_by.mp hr).1
  rw [get_by_id_iff.mpr ⟨ho, hid⟩]
  rfl

theorem mem_neighbors {n : ℕ} : (n, r) ∈ neighbors order direction object_id ↔
    r ∈ g.relationships ∧ direction.current r = object_id ∧ direction.neighbor r = n := by
  rw [neighbors_eq, List.mem_map]
  constructor
  · rintro ⟨q, hq, hsame⟩
    cases hsame
    exact ⟨(mem_list_by.mp hq).1, (mem_list_by.mp hq).2, rfl⟩
  · rintro ⟨hr, hcurrent, hneighbor⟩
    exact ⟨r, mem_list_by.mpr ⟨hr, hcurrent⟩, by rw [hneighbor]⟩

/-- Two orders give the same edges. -/
theorem neighbors_perm (order order' : RowOrder g) (direction : Direction) (object_id : ℕ) :
    (neighbors order direction object_id).Perm (neighbors order' direction object_id) := by
  rw [neighbors_eq, neighbors_eq]
  exact ((order.perm direction object_id).trans (order'.perm direction object_id).symm).map _

/-- Any order of the edges of each direction is one the database may return. -/
theorem exists_order {rows : Direction → ℕ → List (ℕ × TM1Relationship)}
    (h : ∀ direction object_id,
      (neighbors g.stored direction object_id).Perm (rows direction object_id)) :
    ∃ order : RowOrder g, ∀ direction, neighbors order direction = rows direction := by
  have hmap : ∀ direction object_id,
      (neighbors g.stored direction object_id).map Prod.snd
        = g.stored.list_by direction object_id := by
    intro direction object_id
    rw [neighbors_eq, List.map_map]
    exact List.map_id _
  refine ⟨⟨fun direction object_id => (rows direction object_id).map Prod.snd,
    fun direction object_id => ?_⟩, fun direction => ?_⟩
  · have hperm := (h direction object_id).symm.map Prod.snd
    rw [hmap] at hperm
    exact hperm
  · funext object_id
    rw [neighbors_eq]
    show ((rows direction object_id).map Prod.snd).map _ = _
    rw [List.map_map]
    refine (List.map_congr_left fun row hrow => ?_).trans (List.map_id _)
    have hmem := (h direction object_id).mem_iff.mpr hrow
    have hneighbor := (mem_neighbors.mp hmem).2.2
    exact Prod.ext hneighbor rfl

end Stored

/-! ## What a traversal reaches -/

section Reached

variable {g : Graph} {order : RowOrder g} {direction : Direction} {start : TM1Object}
  {max_depth : ℕ} {e : Entry}

/-- The nodes of a search are objects. -/
theorem neighbors_mem_objects (order : RowOrder g) (direction : Direction) (v n : ℕ)
    (r : TM1Relationship) (hrow : (n, r) ∈ neighbors order direction v) :
    n ∈ g.objects.map TM1Object.id := by
  obtain ⟨hr, -, hneighbor⟩ := mem_neighbors.mp hrow
  obtain ⟨o, ho, hid⟩ := neighbor_mem direction hr
  exact List.mem_map.mpr ⟨o, ho, hid.trans hneighbor⟩

theorem reached_length_le_objects (order : RowOrder g) (direction : Direction)
    (hstart : start ∈ g.objects) (d : ℕ) :
    (reached (neighbors order direction) start.id d).1.length ≤ g.objects.length := by
  rw [← List.length_map TM1Object.id]
  exact reached_length_le_nodes (List.mem_map_of_mem hstart)
    (neighbors_mem_objects order direction) d

/-- With no more objects within the bound than the cap, a traversal reaches what the layers
within the bound hold. -/
theorem traverse_eq (hstart : start ∈ g.objects)
    (hcap : (reached (neighbors order direction) start.id max_depth).1.length
      ≤ MAX_TRAVERSAL_NODES) :
    _traverse order direction start max_depth
      = ((List.range max_depth).flatMap (layer (neighbors order direction) start.id)).filterMap
        (entryOf g) := by
  rw [_traverse, bfs_within hcap (reached_length_le_objects order direction hstart max_depth)]

theorem mem_traverse (hstart : start ∈ g.objects)
    (hcap : (reached (neighbors order direction) start.id max_depth).1.length
      ≤ MAX_TRAVERSAL_NODES) :
    e ∈ _traverse order direction start max_depth ↔
      ∃ d < max_depth, ∃ f ∈ layer (neighbors order direction) start.id d,
        entryOf g f = some e := by
  rw [traverse_eq hstart hcap, List.mem_filterMap]
  constructor
  · rintro ⟨f, hf, hentry⟩
    obtain ⟨d, hd, hlayer⟩ := List.mem_flatMap.mp hf
    exact ⟨d, List.mem_range.mp hd, f, hlayer, hentry⟩
  · rintro ⟨d, hd, f, hlayer, hentry⟩
    exact ⟨f, List.mem_flatMap.mpr ⟨d, List.mem_range.mpr hd, hlayer⟩, hentry⟩

end Reached

end PaCopilot.metadata
