/-
Which edge a traversal reports for an object.

An object is reported once, by the last edge of a shortest path to it ([`LastEdge`]).
Where there are several such edges the order of the rows decides, so what holds of the
reported edge in every order holds of each of them ([`exists_avoiding`]).
-/
import PaCopilot.Metadata.Graph

set_option autoImplicit false

namespace PaCopilot.metadata

open Bfs Table

section LastEdge

variable (g : Graph) (direction : Direction) (start : TM1Object)

/-- The distance of an object from the start, along the edges of a direction. -/
def Distance (d object_id : ℕ) : Prop := AtDepth (neighbors g.stored direction) start.id d object_id

/-- The last edge of a shortest path from the start to an object. -/
structure LastEdge (d : ℕ) (x : TM1Object) (r : TM1Relationship) : Prop where
  object : x ∈ g.objects
  edge : r ∈ g.relationships
  neighbor : direction.neighbor r = x.id
  depth : Distance g direction start (d + 1) x.id
  closer : Distance g direction start d (direction.current r)

variable {κ : Type} (key : String → String → κ) (max_depth : ℕ) (k : κ) (P : String → ℕ → Prop)

/-- Some last edge of a shortest path to an object under the key, within the bound, is of a
kind and at a depth with `P`. -/
def CanReach : Prop :=
  ∃ d < max_depth, ∃ x r, LastEdge g direction start d x r ∧ key x.object_type x.name = k ∧
    P r.relationship_type (d + 1)

/-- There is an object under the key within the bound, and all last edges of the shortest
paths to it are of a kind and at a depth with `P`. -/
def MustReach : Prop :=
  ∃ d < max_depth, ∃ x ∈ g.objects, key x.object_type x.name = k ∧
    Distance g direction start (d + 1) x.id ∧
      ∀ r, LastEdge g direction start d x r → P r.relationship_type (d + 1)

/-- No two objects have one key. -/
def Distinct : Prop :=
  ∀ x ∈ g.objects, ∀ y ∈ g.objects, key x.object_type x.name = key y.object_type y.name → x = y

end LastEdge

/-- What an entry says of an object and of the edge it was reached by. -/
structure Entry.Reports (e : Entry) (d : ℕ) (x : TM1Object) (r : TM1Relationship) : Prop where
  object_type : e.object_type = x.object_type
  name : e.name = x.name
  relationship_type : e.relationship_type = r.relationship_type
  depth : e.depth = d + 1

section Traversal

variable {g : Graph} {order : RowOrder g} {direction : Direction} {start x : TM1Object}
  {r : TM1Relationship} {max_depth d : ℕ} {e : Entry} {κ : Type} {key : String → String → κ}
  {k : κ} {P : String → ℕ → Prop}

theorem LastEdge.row (h : LastEdge g direction start d x r) :
    (x.id, r) ∈ neighbors g.stored direction (direction.current r) :=
  mem_neighbors.mpr ⟨h.edge, rfl, h.neighbor⟩

/-- A shortest path has a last edge. -/
theorem Distance.lastEdge (hx : x ∈ g.objects) (h : Distance g direction start (d + 1) x.id) :
    ∃ r, LastEdge g direction start d x r := by
  obtain ⟨v, r, hv, hrow⟩ := AtDepth.pred h
  obtain ⟨hr, hcurrent, hneighbor⟩ := mem_neighbors.mp hrow
  refine ⟨r, hx, hr, hneighbor, h, ?_⟩
  rw [hcurrent]
  exact hv

/-- What is found in a layer is reported, and its edge is a last edge. -/
theorem entryOf_found {f : Found ℕ TM1Relationship}
    (hf : f ∈ layer (neighbors order direction) start.id d) :
    ∃ x e, x.id = f.node ∧ LastEdge g direction start d x f.edge ∧ entryOf g f = some e ∧
      e.Reports d x f.edge := by
  obtain ⟨hnode, hparent, hrow, hdepth⟩ := layer_spec hf
  obtain ⟨hr, hcurrent, hneighbor⟩ := mem_neighbors.mp hrow
  obtain ⟨x, hx, hxid⟩ := neighbor_mem direction hr
  obtain ⟨y, hy, hyid⟩ := current_mem direction hr
  have hperm := neighbors_perm order g.stored direction
  have hgetx : g.get_by_id f.node = some x := get_by_id_iff.mpr ⟨hx, hxid.trans hneighbor⟩
  have hgety : g.get_by_id f.parent = some y := get_by_id_iff.mpr ⟨hy, hyid.trans hcurrent⟩
  refine ⟨x, ⟨x.object_type, x.name, f.edge.relationship_type, y.name, f.depth⟩,
    hxid.trans hneighbor, ⟨hx, hr, hxid.symm, ?_, ?_⟩, ?_, ⟨rfl, rfl, rfl, hdepth⟩⟩
  · rw [Distance, hxid, hneighbor]
    exact hnode.congr hperm
  · rw [Distance, hcurrent]
    exact hparent.congr hperm
  · rw [entryOf, hgetx, hgety]
    rfl

theorem reached_of_objects (order : RowOrder g) (direction : Direction)
    (hstart : start ∈ g.objects) (hcap : g.objects.length < MAX_TRAVERSAL_NODES) (d : ℕ) :
    (reached (neighbors order direction) start.id d).1.length ≤ MAX_TRAVERSAL_NODES :=
  (reached_length_le_objects order direction hstart d).trans hcap.le

/-- An entry reports an object within the bound, by a last edge. -/
theorem traverse_spec (hstart : start ∈ g.objects)
    (hcap : (reached (neighbors order direction) start.id max_depth).1.length
      ≤ MAX_TRAVERSAL_NODES)
    (h : e ∈ _traverse order direction start max_depth) :
    ∃ d < max_depth, ∃ x, ∃ f ∈ layer (neighbors order direction) start.id d, x.id = f.node ∧
      LastEdge g direction start d x f.edge ∧ e.Reports d x f.edge := by
  obtain ⟨d, hd, f, hf, hentry⟩ := (mem_traverse hstart hcap).mp h
  obtain ⟨x, e', hid, hlast, hentry', hreports⟩ := entryOf_found hf
  rw [hentry] at hentry'
  cases hentry'
  exact ⟨d, hd, x, f, hf, hid, hlast, hreports⟩

/-- Every object within the bound is reported. -/
theorem traverse_complete (order : RowOrder g) (hstart : start ∈ g.objects)
    (hcap : (reached (neighbors order direction) start.id max_depth).1.length
      ≤ MAX_TRAVERSAL_NODES) (hx : x ∈ g.objects) (hd : d < max_depth)
    (h : Distance g direction start (d + 1) x.id) :
    ∃ e ∈ _traverse order direction start max_depth, ∃ r,
      LastEdge g direction start d x r ∧ e.Reports d x r := by
  obtain ⟨f, hf, hnode⟩ := layer_complete (h.congr (neighbors_perm g.stored order direction))
  obtain ⟨y, e, hid, hlast, hentry, hreports⟩ := entryOf_found hf
  have hsame : y = x := g.ids.eq hlast.object hx rfl rfl (hid.trans hnode)
  subst hsame
  exact ⟨e, (mem_traverse hstart hcap).mpr ⟨d, hd, f, hf, hentry⟩, f.edge, hlast, hreports⟩

theorem canReach_of_mem (hstart : start ∈ g.objects)
    (hcap : g.objects.length < MAX_TRAVERSAL_NODES)
    (h : e ∈ _traverse order direction start max_depth) (hk : key e.object_type e.name = k)
    (hP : P e.relationship_type e.depth) : CanReach g direction start key max_depth k P := by
  obtain ⟨d, hd, x, f, _, _, hlast, hreports⟩ :=
    traverse_spec hstart (reached_of_objects order direction hstart hcap _) h
  refine ⟨d, hd, x, f.edge, hlast, ?_, ?_⟩
  · rw [← hreports.object_type, ← hreports.name]
    exact hk
  · rw [← hreports.relationship_type, ← hreports.depth]
    exact hP

theorem MustReach.mem (h : MustReach g direction start key max_depth k P)
    (hstart : start ∈ g.objects) (hcap : g.objects.length < MAX_TRAVERSAL_NODES) :
    ∃ e ∈ _traverse order direction start max_depth, key e.object_type e.name = k ∧
      P e.relationship_type e.depth := by
  obtain ⟨d, hd, x, hx, hk, hdistance, hall⟩ := h
  obtain ⟨e, he, r, hlast, hreports⟩ :=
    traverse_complete order hstart (reached_of_objects order direction hstart hcap _) hx hd
      hdistance
  refine ⟨e, he, ?_, ?_⟩
  · rw [hreports.object_type, hreports.name]
    exact hk
  · rw [hreports.relationship_type, hreports.depth]
    exact hall r hlast

/-- In some order of the rows, an object is reported by a given last edge only. -/
theorem LastEdge.reported (max_depth : ℕ) (h : LastEdge g direction start d x r)
    (hstart : start ∈ g.objects) (hcap : g.objects.length < MAX_TRAVERSAL_NODES) :
    ∃ rows : ℕ → List (ℕ × TM1Relationship),
      (∀ v, (neighbors g.stored direction v).Perm (rows v)) ∧
        ∀ (order : RowOrder g), neighbors order direction = rows →
          ∀ e ∈ _traverse order direction start max_depth,
            e.object_type = x.object_type → e.name = x.name → e.Reports d x r := by
  obtain ⟨rows, hperm, hfound⟩ := found_by h.closer h.depth h.row
  refine ⟨rows, hperm, ?_⟩
  rintro order rfl e he htype hname
  obtain ⟨d', _, y, f, hf, hid, hlast, hreports⟩ := traverse_spec hstart
    (reached_of_objects order direction hstart hcap _) he
  have hsame : y = x := by
    refine g.uq_tm1_objects_connection_type_name.eq hlast.object h.object rfl rfl ?_
    rw [← hreports.object_type, ← hreports.name, htype, hname]
  subst hsame
  have hd : d' = d := Nat.succ.inj (hlast.depth.unique h.depth)
  subst hd
  have hedge := List.inj_on_of_nodup_map layer_nodup hf hfound hid.symm
  rw [hedge] at hreports
  exact hreports

/-- **What does not hold of every last edge fails in some order**, in both directions at
once. -/
theorem exists_avoiding (hstart : start ∈ g.objects)
    (hcap : g.objects.length < MAX_TRAVERSAL_NODES) (hdistinct : Distinct g key)
    {bound : Direction → ℕ} {P : Direction → String → ℕ → Prop}
    (h : ∀ direction, ¬ MustReach g direction start key (bound direction) k (P direction)) :
    ∃ order : RowOrder g, ∀ direction, ∀ e ∈ _traverse order direction start (bound direction),
      key e.object_type e.name = k → ¬ P direction e.relationship_type e.depth := by
  have hrows : ∀ direction, ∃ rows : ℕ → List (ℕ × TM1Relationship),
      (∀ v, (neighbors g.stored direction v).Perm (rows v)) ∧
        ∀ (order : RowOrder g), neighbors order direction = rows →
          ∀ e ∈ _traverse order direction start (bound direction),
            key e.object_type e.name = k → ¬ P direction e.relationship_type e.depth := by
    intro direction
    by_cases hreach : ∃ d < bound direction, ∃ x ∈ g.objects, key x.object_type x.name = k ∧
        Distance g direction start (d + 1) x.id
    · obtain ⟨d, hd, x, hx, hk, hdistance⟩ := hreach
      obtain ⟨r, hlast, hP⟩ : ∃ r, LastEdge g direction start d x r ∧
          ¬ P direction r.relationship_type (d + 1) := by
        by_contra hnone
        refine h direction ⟨d, hd, x, hx, hk, hdistance, fun r hlast => ?_⟩
        by_contra hP
        exact hnone ⟨r, hlast, hP⟩
      -- rows in an order in which this last edge is the one that is found first
      obtain ⟨rows, hperm, hreported⟩ := hlast.reported (bound direction) hstart hcap
      refine ⟨rows, hperm, fun order horder e he hke => ?_⟩
      obtain ⟨d', _, y, f, _, _, hlast', hreports⟩ := traverse_spec hstart
        (reached_of_objects order direction hstart hcap _) he
      have hsame : y = x := by
        refine hdistinct y hlast'.object x hx ?_
        rw [hk, ← hke, hreports.object_type, hreports.name]
      rw [hsame] at hreports
      have hexact := hreported order horder e he hreports.object_type hreports.name
      rw [hexact.relationship_type, hexact.depth]
      exact hP
    -- the object is not reached at all, in whatever order
    · refine ⟨neighbors g.stored direction, fun v => List.Perm.refl _, fun order _ e he hke => ?_⟩
      obtain ⟨d, hd, x, f, _, _, hlast, hreports⟩ := traverse_spec hstart
        (reached_of_objects order direction hstart hcap _) he
      refine absurd ⟨d, hd, x, hlast.object, ?_, hlast.depth⟩ hreach
      rw [← hke, hreports.object_type, hreports.name]
  -- the two directions read different rows, so one order can serve both
  choose rows hperm havoid using hrows
  obtain ⟨order, horder⟩ := exists_order hperm
  exact ⟨order, fun direction => havoid direction order (horder direction)⟩

end Traversal

end PaCopilot.metadata
