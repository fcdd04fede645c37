/-
What the traversals and the search for a path return.

`_traverse` and `dependency_path` (`tm1/metadata/dependency_analyzer.py`) are two loops over
the same edges. Both are read against the distance of the objects from the start, so that
they agree with one another whatever the order of the rows.
-/
import Mathlib.Data.Set.Card
import PaCopilot.Lib.BfsPath
import PaCopilot.Metadata.ShortestPath

set_option autoImplicit false

namespace PaCopilot.metadata

open Bfs Table

def _as_entry (obj : TM1Object) : String × String := (obj.object_type, obj.name)

/-- The loop of `dependency_path`, from one object to another. -/
def path_loop {g : Graph} (order : RowOrder g) (start target : TM1Object) (max_depth : ℕ) :
    Option (List ℕ) :=
  pathSearch (neighbors order .outgoing) MAX_TRAVERSAL_NODES max_depth target.id g.objects.length
    [(start.id, none)] [(start.id, 0)]

def dependency_path {g : Graph} (order : RowOrder g) (organization_id : ℕ)
    (from_type from_name to_type to_name : String) (max_depth : ℕ) :
    Except AppException (Option (List (String × String))) := do
  let start ← _resolve_object g organization_id from_type from_name
  let target ← _resolve_object g organization_id to_type to_name
  if start.id = target.id then return some [_as_entry start]
  else
    return (path_loop order start target max_depth).map
      fun path => (path.filterMap g.get_by_id).map _as_entry

/-! ## What is asked of them -/

section Asked

variable (g : Graph) (direction : Direction) (start : TM1Object) (max_depth : ℕ)

/-- The identifiers of the objects within the bound. -/
def Reachable : Set ℕ := {n | ∃ d, 0 < d ∧ d ≤ max_depth ∧ Distance g direction start d n}

/-- Fewer objects than the cap are reachable. -/
def Few : Prop := (Reachable g direction start max_depth).ncard < MAX_TRAVERSAL_NODES

/-- An entry is for an object at a depth. -/
structure Entry.For (e : Entry) (x : TM1Object) (depth : ℕ) : Prop where
  object_type : e.object_type = x.object_type
  name : e.name = x.name
  depth : e.depth = depth

/-- The entries are the objects at distance `1` to `max_depth`, each once, with its distance
and with an edge from an object one level nearer. -/
structure Traversed (entries : List Entry) : Prop where
  sound : ∀ e ∈ entries, ∃ d x r via, d < max_depth ∧ LastEdge g direction start d x r ∧
    e.For x (d + 1) ∧ e.relationship_type = r.relationship_type ∧ via ∈ g.objects ∧
    via.id = direction.current r ∧ e.via = via.name
  complete : ∀ d < max_depth, ∀ x ∈ g.objects, Distance g direction start (d + 1) x.id →
    ∃ e ∈ entries, e.For x (d + 1)
  once : (entries.map fun e => (e.object_type, e.name)).Nodup

/-- A path of existing edges from one object to another. -/
structure ObjectPath (target : TM1Object) (path : List TM1Object) : Prop where
  first : path.head? = some start
  last : path.getLast? = some target
  there : ∀ x ∈ path, x ∈ g.objects
  edges : path.IsChain fun x y =>
    ∃ r ∈ g.relationships, r.from_object_id = x.id ∧ r.to_object_id = y.id

end Asked

section Traverse

variable {g : Graph} {order : RowOrder g} {direction : Direction} {start : TM1Object}
  {max_depth : ℕ}

theorem reachable_finite : (Reachable g direction start max_depth).Finite := by
  refine (g.objects.map TM1Object.id).finite_toSet.insert start.id |>.subset ?_
  rintro n ⟨d, hd, -, hdistance⟩
  obtain ⟨d, rfl⟩ := Nat.exists_eq_add_one_of_ne_zero (Nat.ne_of_gt hd)
  obtain ⟨v, r, -, hrow⟩ := AtDepth.pred hdistance
  obtain ⟨hr, -, hneighbor⟩ := mem_neighbors.mp hrow
  obtain ⟨x, hx, hid⟩ := neighbor_mem direction hr
  exact .inr (List.mem_map.mpr ⟨x, hx, hid.trans hneighbor⟩)

/-- With few objects in reach, a search never comes to the cap before it has found them all. -/
theorem Few.reached_le (h : Few g direction start max_depth) (order : RowOrder g) :
    (reached (neighbors order direction) start.id max_depth).1.length ≤ MAX_TRAVERSAL_NODES := by
  let visited := (reached (neighbors order direction) start.id max_depth).1
  have hnodup : (visited.erase start.id).Nodup := (reached_nodup max_depth).erase _
  have hsub : ((visited.erase start.id).toFinset : Set ℕ) ⊆
      Reachable g direction start max_depth := by
    intro n hn
    rw [List.coe_toFinset, Set.mem_ofPred_eq, (reached_nodup max_depth).mem_erase_iff] at hn
    obtain ⟨hne, hvisited⟩ := hn
    obtain ⟨k, hk, hwalk⟩ := ((mem_reached max_depth).1 n).mp hvisited
    obtain ⟨d, hd, hdepth⟩ := hwalk.atDepth
    have hpos : 0 < d := by
      refine Nat.pos_of_ne_zero ?_
      rintro rfl
      exact hne (atDepth_zero.mp hdepth)
    exact ⟨d, hpos, hd.trans hk, hdepth.congr (neighbors_perm order g.stored direction)⟩
  have hcard := Set.ncard_le_ncard hsub reachable_finite
  rw [Set.ncard_coe_finset, List.toFinset_card_of_nodup hnodup] at hcard
  have hlength : visited.length ≤ (visited.erase start.id).length + 1 := by
    rw [List.length_erase]
    split <;> omega
  have hfew : (Reachable g direction start max_depth).ncard < MAX_TRAVERSAL_NODES := h
  show visited.length ≤ MAX_TRAVERSAL_NODES
  omega

/-- A traversal of a graph ends. -/
theorem traverse_ends (order : RowOrder g) (direction : Direction) (max_depth : ℕ)
    (hstart : start ∈ g.objects) :
    ∃ found, Ends (neighbors order direction) MAX_TRAVERSAL_NODES max_depth [start.id]
      [(start.id, 0)] found ∧
        _traverse order direction start max_depth = found.filterMap (entryOf g) := by
  have hends : Ends (neighbors order direction) MAX_TRAVERSAL_NODES max_depth [start.id]
      [(start.id, 0)] (bfs (neighbors order direction) MAX_TRAVERSAL_NODES max_depth
        (g.objects.map TM1Object.id).length start.id) :=
    bfs_ends (List.mem_map_of_mem hstart) (neighbors_mem_objects order direction)
  rw [List.length_map] at hends
  exact ⟨_, hends, rfl⟩

/-- What an entry says of the two ends of its edge. -/
theorem entryOf_some {f : Found ℕ TM1Relationship} {e : Entry} (h : entryOf g f = some e) :
    (∃ x ∈ g.objects, x.id = f.node ∧ e.object_type = x.object_type ∧ e.name = x.name) ∧
      ∃ via ∈ g.objects, via.id = f.parent ∧ e.via = via.name := by
  unfold entryOf at h
  cases hnode : g.get_by_id f.node with
  | none =>
    rw [hnode] at h
    cases h
  | some x =>
    cases hparent : g.get_by_id f.parent with
    | none =>
      rw [hnode, hparent] at h
      cases h
    | some via =>
      rw [hnode, hparent] at h
      cases h
      obtain ⟨hx, hxid⟩ := get_by_id_iff.mp hnode
      obtain ⟨hvia, hviaid⟩ := get_by_id_iff.mp hparent
      exact ⟨⟨x, hx, hxid, rfl, rfl⟩, via, hvia, hviaid, rfl⟩

/-- A node is visited once, and stands for one object. -/
theorem traverse_once (hstart : start ∈ g.objects) (h : Few g direction start max_depth) :
    ((_traverse order direction start max_depth).map
      fun e => (e.object_type, e.name)).Nodup := by
  rw [traverse_eq hstart (h.reached_le order), List.Nodup, List.pairwise_map,
    List.pairwise_filterMap]
  have hvisited : (reached (neighbors order direction) start.id max_depth).1.Nodup :=
    reached_nodup max_depth
  rw [reached_eq_layers, List.nodup_cons, List.Nodup, List.pairwise_map] at hvisited
  refine hvisited.2.imp fun hne e he e' he' heq => hne ?_
  obtain ⟨⟨x, hx, hxid, htype, hname⟩, -⟩ := entryOf_some he
  obtain ⟨⟨y, hy, hyid, htype', hname'⟩, -⟩ := entryOf_some he'
  rw [Prod.mk.injEq, htype, hname, htype', hname'] at heq
  have hsame := g.uq_tm1_objects_connection_type_name.eq hx hy rfl rfl (Prod.ext heq.1 heq.2)
  rw [← hxid, ← hyid, hsame]

theorem traverse_traversed (order : RowOrder g) (hstart : start ∈ g.objects)
    (h : Few g direction start max_depth) :
    Traversed g direction start max_depth (_traverse order direction start max_depth) := by
  refine ⟨fun e he => ?_, fun d hd x hx hdistance => ?_, traverse_once hstart h⟩
  · obtain ⟨d, hd, f, hf, hentry⟩ := (mem_traverse hstart (h.reached_le order)).mp he
    obtain ⟨x, e', hid, hlast, hentry', hreports⟩ := entryOf_found hf
    rw [hentry] at hentry'
    cases hentry'
    obtain ⟨-, via, hvia, hviaid, hname⟩ := entryOf_some hentry
    have hcurrent : direction.current f.edge = f.parent :=
      (mem_neighbors.mp (layer_spec hf).2.2.1).2.1
    exact ⟨d, x, f.edge, via, hd, hlast, ⟨hreports.object_type, hreports.name, hreports.depth⟩,
      hreports.relationship_type, hvia, hviaid.trans hcurrent.symm, hname⟩
  · obtain ⟨e, he, r, -, hreports⟩ :=
      traverse_complete order hstart (h.reached_le order) hx hd hdistance
    exact ⟨e, he, hreports.object_type, hreports.name, hreports.depth⟩

/-- The entries of a traversal are the objects within the bound. -/
theorem Traversed.entry_iff {entries : List Entry}
    (h : Traversed g direction start max_depth entries) {x : TM1Object} (hx : x ∈ g.objects)
    (depth : ℕ) :
    (∃ e ∈ entries, e.For x depth) ↔
      0 < depth ∧ depth ≤ max_depth ∧ Distance g direction start depth x.id := by
  constructor
  · rintro ⟨e, he, hfor⟩
    obtain ⟨d, y, r, via, hd, hlast, hfor', -, -, -, -⟩ := h.sound e he
    have hsame : y = x := by
      refine g.uq_tm1_objects_connection_type_name.eq hlast.object hx rfl rfl ?_
      rw [← hfor'.object_type, ← hfor'.name, hfor.object_type, hfor.name]
    have hdepth : depth = d + 1 := hfor.depth.symm.trans hfor'.depth
    rw [hdepth, ← hsame]
    exact ⟨Nat.succ_pos d, hd, hlast.depth⟩
  · rintro ⟨hpos, hbound, hdistance⟩
    obtain ⟨d, rfl⟩ := Nat.exists_eq_add_one_of_ne_zero (Nat.ne_of_gt hpos)
    exact h.complete d hbound x hx hdistance

/-- The edges out of an object are those into the other. -/
theorem distance_flip {a b : TM1Object} {d : ℕ} :
    Distance g .outgoing a d b.id ↔ Distance g .incoming b d a.id := by
  have hflip : ∀ v n, (∃ r, (n, r) ∈ neighbors g.stored .outgoing v) ↔
      ∃ r, (v, r) ∈ neighbors g.stored .incoming n := by
    intro v n
    refine exists_congr fun r => ?_
    rw [mem_neighbors, mem_neighbors]
    exact and_congr_right fun _ => and_comm
  exact ⟨fun h => AtDepth.flip hflip h, fun h => AtDepth.flip (fun v n => (hflip n v).symm) h⟩

end Traverse

section Path

variable {g : Graph} {order : RowOrder g} {organization_id : ℕ} {start target : TM1Object}
  {max_depth : ℕ}

theorem resolve_object_of_mem (hstart : start ∈ g.objects)
    (horg : start.organization_id = organization_id) :
    _resolve_object g organization_id start.object_type start.name = .ok start := by
  have hfind : g.get_by_name start.object_type start.name = some start := by
    rw [Graph.get_by_name]
    cases hfound : g.objects.find? fun o =>
      o.object_type = start.object_type ∧ o.name = start.name with
    | none => exact absurd (decide_eq_true ⟨rfl, rfl⟩) (List.find?_eq_none.mp hfound start hstart)
    | some found =>
      have hdecided := List.find?_some hfound
      have hnamed := of_decide_eq_true hdecided
      have hsame := g.uq_tm1_objects_connection_type_name.eq (List.mem_of_find?_eq_some hfound)
        hstart rfl rfl (Prod.ext hnamed.1 hnamed.2)
      rw [hsame]
  rw [_resolve_object, hfind]
  simp [refuse, horg]

theorem path_loop_ends (order : RowOrder g) (hstart : start ∈ g.objects) (target : TM1Object)
    (max_depth : ℕ) :
    PathEnds (neighbors order .outgoing) MAX_TRAVERSAL_NODES max_depth target.id
      [(start.id, none)] [(start.id, 0)] (path_loop order start target max_depth) := by
  refine pathSearch_ends (List.nodup_singleton start.id) ?_
    (neighbors_mem_objects order .outgoing) ?_
  · intro v hv
    rw [List.mem_singleton.mp hv]
    exact List.mem_map_of_mem hstart
  · rw [List.length_map, List.length_singleton, List.length_singleton]
    omega

/-- The loop answers with a shortest path to an object within the bound, and with none if the
object is further away. -/
theorem path_loop_spec (order : RowOrder g) (hstart : start ∈ g.objects) (hne : start.id ≠ target.id)
    (hfew : Few g .outgoing start max_depth) :
    (path_loop order start target max_depth = none ↔
      ¬ ∃ d ≤ max_depth, Distance g .outgoing start d target.id) ∧
    ∀ path, path_loop order start target max_depth = some path →
      ∃ d ≤ max_depth, Distance g .outgoing start d target.id ∧ path.length = d + 1 ∧
        IsPath (neighbors order .outgoing) target.id start.id path := by
  have hperm := neighbors_perm order g.stored .outgoing
  have hleading : Leading (neighbors order .outgoing) start.id target.id [(start.id, none)]
      [(start.id, 0)] := by
    refine ⟨fun h => hne (List.mem_singleton.mp h).symm, fun v d hv => ?_⟩
    cases List.mem_singleton.mp hv
    exact ⟨Nat.zero_lt_one, _, .root List.lookup_cons_self⟩
  obtain ⟨hnone, hsome⟩ := pathSearch_spec MAX_TRAVERSAL_NODES max_depth g.objects.length
    hleading
  -- few enough nodes: the search goes through all layers within the bound
  have hfound : search (neighbors order .outgoing) MAX_TRAVERSAL_NODES max_depth g.objects.length
      (([(start.id, none)] : List (ℕ × Option ℕ)).map Prod.fst) [(start.id, 0)]
        = (List.range max_depth).flatMap (layer (neighbors order .outgoing) start.id) :=
    bfs_within (hfew.reached_le order) (reached_length_le_objects order .outgoing hstart max_depth)
  rw [hfound] at hnone hsome
  have hlayers : ∀ f ∈ (List.range max_depth).flatMap (layer (neighbors order .outgoing) start.id),
      f.depth ≤ max_depth ∧ Distance g .outgoing start f.depth f.node := by
    intro f hf
    obtain ⟨d, hd, hlayer⟩ := List.mem_flatMap.mp hf
    obtain ⟨hnode, -, -, hdepth⟩ := layer_spec hlayer
    rw [hdepth]
    exact ⟨List.mem_range.mp hd, hnode.congr hperm⟩
  constructor
  · rw [path_loop, hnone]
    constructor
    · rintro hall ⟨d, hd, hdistance⟩
      cases d with
      | zero => exact hne (atDepth_zero.mp hdistance).symm
      | succ d =>
        obtain ⟨f, hf, hnode⟩ := layer_complete
          (hdistance.congr (neighbors_perm g.stored order .outgoing))
        exact hall f (List.mem_flatMap.mpr ⟨d, List.mem_range.mpr hd, hf⟩) hnode
    · intro hfar f hf hnode
      obtain ⟨hdepth, hdistance⟩ := hlayers f hf
      rw [hnode] at hdistance
      exact hfar ⟨f.depth, hdepth, hdistance⟩
  · intro path hpath
    obtain ⟨f, hf, hnode, hispath, hlength⟩ := hsome path hpath
    obtain ⟨hdepth, hdistance⟩ := hlayers f hf
    rw [hnode] at hdistance
    exact ⟨f.depth, hdepth, hdistance, hlength, hispath⟩

/-- The objects of the identifiers that there are. -/
theorem map_id_objects {path : List ℕ} (h : ∀ v ∈ path, v ∈ g.objects.map TM1Object.id) :
    (path.filterMap g.get_by_id).map TM1Object.id = path := by
  induction path with
  | nil => rfl
  | cons v rest ih =>
    obtain ⟨x, hx, hid⟩ := List.mem_map.mp (h v List.mem_cons_self)
    rw [List.filterMap_cons_some (get_by_id_iff.mpr ⟨hx, hid⟩), List.map_cons, hid,
      ih fun u hu => h u (List.mem_cons_of_mem _ hu)]

/-- A path of identifiers is one of objects. -/
theorem objectPath_of_isPath (hstart : start ∈ g.objects) (htarget : target ∈ g.objects)
    {path : List ℕ} (h : IsPath (neighbors order .outgoing) target.id start.id path) :
    ObjectPath g start target (path.filterMap g.get_by_id) := by
  have hids := map_id_objects (h.mem_nodes (List.mem_map_of_mem hstart)
    (neighbors_mem_objects order .outgoing))
  have hthere : ∀ x ∈ path.filterMap g.get_by_id, x ∈ g.objects := by
    intro x hx
    obtain ⟨v, -, hget⟩ := List.mem_filterMap.mp hx
    exact (get_by_id_iff.mp hget).1
  refine ⟨?_, ?_, hthere, ?_⟩
  · have hfirst := h.first
    rw [← hids, List.head?_map, Option.map_eq_some_iff] at hfirst
    obtain ⟨x, hx, hid⟩ := hfirst
    rw [hx, g.ids.eq (hthere x (List.mem_of_head? hx)) hstart rfl rfl hid]
  · have hlast := h.last
    rw [← hids, List.getLast?_map, Option.map_eq_some_iff] at hlast
    obtain ⟨x, hx, hid⟩ := hlast
    rw [hx, g.ids.eq (hthere x (List.mem_of_getLast? hx)) htarget rfl rfl hid]
  · have hedges := h.edges
    rw [← hids, List.isChain_map] at hedges
    refine hedges.imp fun x y hxy => ?_
    obtain ⟨r, hrow⟩ := hxy
    exact ⟨r, mem_neighbors.mp hrow⟩

end Path

/-! ## The two searches -/

/-- **The traversals and the search for a path** end on every graph, and return what they should
wherever fewer objects than the cap are in reach. -/
structure SearchesRight (g : Graph) (order : RowOrder g) (organization_id max_depth : ℕ) :
    Prop where
  ends : ∀ direction, ∀ start ∈ g.objects, ∃ found,
    Ends (neighbors order direction) MAX_TRAVERSAL_NODES max_depth [start.id] [(start.id, 0)]
      found ∧ _traverse order direction start max_depth = found.filterMap (entryOf g)
  path_ends : ∀ start ∈ g.objects, ∀ target,
    PathEnds (neighbors order .outgoing) MAX_TRAVERSAL_NODES max_depth target.id
      [(start.id, none)] [(start.id, 0)] (path_loop order start target max_depth)
  traversed : ∀ direction, ∀ start ∈ g.objects, Few g direction start max_depth →
    Traversed g direction start max_depth (_traverse order direction start max_depth)
  mirrored : ∀ a ∈ g.objects, ∀ b ∈ g.objects, Few g .outgoing a max_depth →
    Few g .incoming b max_depth → ∀ order' : RowOrder g, ∀ depth,
      (∃ e ∈ _traverse order .outgoing a max_depth, e.For b depth) ↔
        ∃ e ∈ _traverse order' .incoming b max_depth, e.For a depth
  path : ∀ start ∈ g.objects, ∀ target ∈ g.objects,
    start.organization_id = organization_id → target.organization_id = organization_id →
    Few g .outgoing start max_depth → ∃ answer,
      dependency_path order organization_id start.object_type start.name target.object_type
        target.name max_depth = .ok answer ∧
      (answer = none ↔ ¬ ∃ d ≤ max_depth, Distance g .outgoing start d target.id) ∧
      ∀ entries, answer = some entries → ∃ d path, d ≤ max_depth ∧
        Distance g .outgoing start d target.id ∧ ObjectPath g start target path ∧
        path.length = d + 1 ∧ entries = path.map _as_entry

section Right

variable {g : Graph} {order : RowOrder g} {organization_id : ℕ} {start target : TM1Object}
  {max_depth : ℕ}

theorem path_right (hstart : start ∈ g.objects) (htarget : target ∈ g.objects)
    (horg : start.organization_id = organization_id)
    (horg' : target.organization_id = organization_id) (hfew : Few g .outgoing start max_depth) :
    ∃ answer,
      dependency_path order organization_id start.object_type start.name target.object_type
        target.name max_depth = .ok answer ∧
      (answer = none ↔ ¬ ∃ d ≤ max_depth, Distance g .outgoing start d target.id) ∧
      ∀ entries, answer = some entries → ∃ d path, d ≤ max_depth ∧
        Distance g .outgoing start d target.id ∧ ObjectPath g start target path ∧
        path.length = d + 1 ∧ entries = path.map _as_entry := by
  have hresolve := resolve_object_of_mem hstart horg
  have hresolve' := resolve_object_of_mem htarget horg'
  by_cases hsame : start.id = target.id
  -- an object is its own path, without a search
  · obtain rfl : start = target := g.ids.eq hstart htarget rfl rfl hsame
    have hzero : Distance g .outgoing start 0 start.id := atDepth_zero.mpr rfl
    refine ⟨some [_as_entry start], ?_, ⟨(fun h => by cases h), fun h => ?_⟩, ?_⟩
    · rw [dependency_path, hresolve]
      simp [bind, Except.bind]
      rfl
    · exact absurd ⟨0, Nat.zero_le _, hzero⟩ h
    · intro entries hentries
      cases hentries
      refine ⟨0, [start], Nat.zero_le _, hzero, ⟨rfl, rfl, fun x hx => ?_, List.isChain_singleton _⟩,
        rfl, rfl⟩
      rw [List.mem_singleton.mp hx]
      exact hstart
  · obtain ⟨hnone, hsome⟩ := path_loop_spec order hstart hsame hfew
    refine ⟨(path_loop order start target max_depth).map
      fun path => (path.filterMap g.get_by_id).map _as_entry, ?_, ?_, ?_⟩
    · rw [dependency_path, hresolve, hresolve']
      simp [bind, Except.bind, hsame]
      rfl
    · rw [Option.map_eq_none_iff, hnone]
    · intro entries hentries
      obtain ⟨path, hpath, rfl⟩ := Option.map_eq_some_iff.mp hentries
      obtain ⟨d, hd, hdistance, hlength, hispath⟩ := hsome path hpath
      -- every identifier on the path is of an object, so none is lost on the way out
      have hids := map_id_objects (hispath.mem_nodes (List.mem_map_of_mem hstart)
        (neighbors_mem_objects order .outgoing))
      refine ⟨d, _, hd, hdistance, objectPath_of_isPath hstart htarget hispath, ?_, rfl⟩
      rw [← hlength, ← List.length_map TM1Object.id, hids]

theorem searches_right (g : Graph) (order : RowOrder g) (organization_id max_depth : ℕ) :
    SearchesRight g order organization_id max_depth where
  ends direction start hstart := traverse_ends order direction max_depth hstart
  path_ends start hstart target := path_loop_ends order hstart target max_depth
  traversed direction start hstart hfew := traverse_traversed order hstart hfew
  mirrored a ha b hb hfew hfew' order' depth := by
    rw [(traverse_traversed order ha hfew).entry_iff hb,
      (traverse_traversed order' hb hfew').entry_iff ha, distance_flip]
  path start hstart target htarget horg horg' hfew := path_right hstart htarget horg horg' hfew

end Right

/-- Two cubes whose rules refer to one another, and to themselves, over a dimension. -/
def twoCubes : Graph where
  objects := [⟨1, 1, "cube", "Sales"⟩, ⟨2, 1, "cube", "Costs"⟩, ⟨3, 1, "dimension", "Unit"⟩]
  relationships := [⟨1, 1, "references_cube"⟩, ⟨1, 2, "references_cube"⟩,
    ⟨2, 1, "references_cube"⟩, ⟨2, 3, "uses_dimension"⟩]
  ids := by decide
  uq_tm1_objects_connection_type_name := by decide
  from_object := by decide
  to_object := by decide

example : dependency_path twoCubes.stored 1 "cube" "Sales" "dimension" "Unit" 2
    = .ok (some [("cube", "Sales"), ("cube", "Costs"), ("dimension", "Unit")]) := by
  decide +kernel

end PaCopilot.metadata
