/-
Breadth-first search over labelled edges, with a bound on the depth and one on the
number of nodes.

A node is found once, by the first edge that leads to it, and the rows of a node come in
some order. The search takes one node after the other from a queue; read a layer at a
time ([`bfs_within`]) it is the sequence of the nodes at distance 1, 2, 3 and so on. What it
finds is then the nodes within the bound, each at its distance ([`layer_complete`],
[`layer_spec`]). By which edge, depends on the order of the rows: any edge of a shortest
path to a node is the one it is found by in some order ([`found_by`]).
-/
import Mathlib.Data.List.Nodup
import Mathlib.Data.List.Perm.Subperm
import Mathlib.Logic.Function.Basic
import Mathlib.Tactic.Common

set_option autoImplicit false

namespace PaCopilot.Bfs

variable {ν ε : Type} [DecidableEq ν]

/-! ## The search -/

/-- A node that was found, the label of the edge it was found by, and the node that edge
leads from. -/
structure Found (ν ε : Type) where
  node : ν
  edge : ε
  parent : ν
  depth : ℕ

/-- What is found among the rows of a node. -/
def scan (parent : ν) (depth : ℕ) : List (ν × ε) → List ν → List (Found ν ε)
  | [], _ => []
  | (node, edge) :: rest, visited =>
    if node ∈ visited then scan parent depth rest visited
    else ⟨node, edge, parent, depth⟩ :: scan parent depth rest (visited ++ [node])

section Search

variable (rows : ν → List (ν × ε))

def search (cap max_depth : ℕ) : ℕ → List ν → List (ν × ℕ) → List (Found ν ε)
  | 0, _, _ => []
  | _ + 1, _, [] => []
  | fuel + 1, visited, (current, depth) :: queue =>
    if cap ≤ visited.length then []
    else if max_depth ≤ depth then search cap max_depth fuel visited queue
    else
      let found := scan current (depth + 1) (rows current) visited
      found ++ search cap max_depth fuel (visited ++ found.map Found.node)
        (queue ++ found.map fun f => (f.node, f.depth))

/-- The search from a node, of a graph of that many nodes: each enters the queue once. -/
def bfs (cap max_depth nodes : ℕ) (start : ν) : List (Found ν ε) :=
  search rows cap max_depth nodes [start] [(start, 0)]

/-! ## Layers -/

/-- What is found among the rows of the nodes of a layer. -/
def expand (depth : ℕ) : List ν → List ν → List (Found ν ε)
  | [], _ => []
  | current :: layer, visited =>
    let found := scan current depth (rows current) visited
    found ++ expand depth layer (visited ++ found.map Found.node)

/-- The nodes that are visited when the layer of a depth is complete, and that layer. -/
def reached (start : ν) : ℕ → List ν × List ν
  | 0 => ([start], [start])
  | d + 1 =>
    let found := expand rows (d + 1) (reached start d).2 (reached start d).1
    ((reached start d).1 ++ found.map Found.node, found.map Found.node)

/-- What is found at depth `d + 1`. -/
def layer (start : ν) (d : ℕ) : List (Found ν ε) :=
  expand rows (d + 1) (reached rows start d).2 (reached rows start d).1

/-! ## Distance -/

/-- There is a walk of that length to the node. -/
inductive Walk (start : ν) : ℕ → ν → Prop
  | zero : Walk start 0 start
  | step {k : ℕ} {v n : ν} {e : ε} : Walk start k v → (n, e) ∈ rows v → Walk start (k + 1) n

/-- The shortest walk to the node has that length. -/
def AtDepth (start : ν) (k : ℕ) (v : ν) : Prop :=
  Walk rows start k v ∧ ∀ j < k, ¬ Walk rows start j v

end Search

variable {rows rows' : ν → List (ν × ε)} {start v n : ν} {e : ε} {d k : ℕ}

omit [DecidableEq ν] in
theorem AtDepth.unique {j : ℕ} (h : AtDepth rows start k v) (h' : AtDepth rows start j v) :
    k = j := by
  rcases Nat.lt_trichotomy k j with hlt | heq | hgt
  · exact absurd h.1 (h'.2 k hlt)
  · exact heq
  · exact absurd h'.1 (h.2 j hgt)

omit [DecidableEq ν] in
theorem atDepth_zero : AtDepth rows start 0 v ↔ v = start := by
  constructor
  · rintro ⟨hwalk, -⟩
    cases hwalk
    rfl
  · rintro rfl
    exact ⟨.zero, fun j hj => absurd hj (Nat.not_lt_zero j)⟩

omit [DecidableEq ν] in
/-- A shortest walk ends with an edge from a node that is one step closer. -/
theorem AtDepth.pred (h : AtDepth rows start (d + 1) n) :
    ∃ v e, AtDepth rows start d v ∧ (n, e) ∈ rows v := by
  obtain ⟨hwalk, hshortest⟩ := h
  cases hwalk with
  | step hv hedge =>
    refine ⟨_, _, ⟨hv, fun j hj hshorter => ?_⟩, hedge⟩
    exact hshortest (j + 1) (Nat.succ_lt_succ hj) (hshorter.step hedge)

omit [DecidableEq ν] in
/-- Walks do not depend on the order of the rows. -/
theorem Walk.congr (h : ∀ v, (rows v).Perm (rows' v)) (hwalk : Walk rows start k v) :
    Walk rows' start k v := by
  induction hwalk with
  | zero => exact .zero
  | step _ hedge ih => exact ih.step ((h _).mem_iff.mp hedge)

omit [DecidableEq ν] in
theorem AtDepth.congr (h : ∀ v, (rows v).Perm (rows' v)) (hv : AtDepth rows start k v) :
    AtDepth rows' start k v :=
  ⟨hv.1.congr h, fun j hj hwalk => hv.2 j hj (hwalk.congr fun u => (h u).symm)⟩

/-! ## One node, one layer -/

section Scan

variable {parent : ν} {depth : ℕ} {edges : List (ν × ε)} {visited level : List ν} {f : Found ν ε}

theorem scan_spec (h : f ∈ scan parent depth edges visited) :
    f.node ∉ visited ∧ f.parent = parent ∧ f.depth = depth ∧ (f.node, f.edge) ∈ edges := by
  induction edges generalizing visited with
  | nil => exact absurd h List.not_mem_nil
  | cons row rest ih =>
    obtain ⟨node, edge⟩ := row
    rw [scan] at h
    by_cases hnode : node ∈ visited
    · rw [if_pos hnode] at h
      obtain ⟨hnew, hparent, hdepth, hrow⟩ := ih h
      exact ⟨hnew, hparent, hdepth, List.mem_cons_of_mem _ hrow⟩
    · rw [if_neg hnode] at h
      rcases List.mem_cons.mp h with rfl | h
      · exact ⟨hnode, rfl, rfl, List.mem_cons_self⟩
      · obtain ⟨hnew, hparent, hdepth, hrow⟩ := ih h
        exact ⟨fun hold => hnew (List.mem_append_left _ hold), hparent, hdepth,
          List.mem_cons_of_mem _ hrow⟩

theorem mem_scan_nodes : n ∈ (scan parent depth edges visited).map Found.node ↔
    n ∉ visited ∧ ∃ e, (n, e) ∈ edges := by
  constructor
  · intro h
    obtain ⟨f, hf, rfl⟩ := List.mem_map.mp h
    obtain ⟨hnew, -, -, hrow⟩ := scan_spec hf
    exact ⟨hnew, f.edge, hrow⟩
  · rintro ⟨hnew, e, hrow⟩
    induction edges generalizing visited with
    | nil => exact absurd hrow List.not_mem_nil
    | cons row rest ih =>
      obtain ⟨node, edge⟩ := row
      rw [scan]
      by_cases hsame : n = node
      · subst hsame
        rw [if_neg hnew]
        exact List.mem_cons_self
      · have hrest : (n, e) ∈ rest := by
          rcases List.mem_cons.mp hrow with heq | hrest
          · exact absurd (congrArg Prod.fst heq) hsame
          · exact hrest
        by_cases hnode : node ∈ visited
        · rw [if_pos hnode]
          exact ih hnew hrest
        · rw [if_neg hnode, List.map_cons]
          refine List.mem_cons_of_mem _ (ih ?_ hrest)
          rw [List.mem_append, List.mem_singleton]
          exact fun h => h.elim hnew hsame

theorem scan_nodup : ((scan parent depth edges visited).map Found.node).Nodup := by
  induction edges generalizing visited with
  | nil => exact List.nodup_nil
  | cons row rest ih =>
    obtain ⟨node, edge⟩ := row
    rw [scan]
    by_cases hnode : node ∈ visited
    · rw [if_pos hnode]
      exact ih
    · rw [if_neg hnode, List.map_cons, List.nodup_cons]
      refine ⟨fun h => ?_, ih⟩
      exact (mem_scan_nodes.mp h).1 (List.mem_append_right _ List.mem_cons_self)

theorem expand_spec (h : f ∈ expand rows depth level visited) :
    f.node ∉ visited ∧ f.parent ∈ level ∧ f.depth = depth ∧
      (f.node, f.edge) ∈ rows f.parent := by
  induction level generalizing visited with
  | nil => exact absurd h List.not_mem_nil
  | cons current rest ih =>
    rw [expand, List.mem_append] at h
    rcases h with h | h
    · obtain ⟨hnew, hparent, hdepth, hrow⟩ := scan_spec h
      refine ⟨hnew, ?_, hdepth, ?_⟩
      · rw [hparent]
        exact List.mem_cons_self
      · rw [hparent]
        exact hrow
    · obtain ⟨hnew, hparent, hdepth, hrow⟩ := ih h
      exact ⟨fun hold => hnew (List.mem_append_left _ hold), List.mem_cons_of_mem _ hparent,
        hdepth, hrow⟩

theorem mem_expand_nodes : n ∈ (expand rows depth level visited).map Found.node ↔
    n ∉ visited ∧ ∃ v ∈ level, ∃ e, (n, e) ∈ rows v := by
  constructor
  · intro h
    obtain ⟨f, hf, rfl⟩ := List.mem_map.mp h
    obtain ⟨hnew, hparent, -, hrow⟩ := expand_spec hf
    exact ⟨hnew, f.parent, hparent, f.edge, hrow⟩
  · rintro ⟨hnew, v, hv, e, hrow⟩
    induction level generalizing visited with
    | nil => exact absurd hv List.not_mem_nil
    | cons current rest ih =>
      rw [expand, List.map_append, List.mem_append]
      by_cases hfound : n ∈ (scan current depth (rows current) visited).map Found.node
      · exact .inl hfound
      · refine .inr (ih ?_ ?_)
        · rw [List.mem_append]
          exact fun h => h.elim hnew hfound
        · rcases List.mem_cons.mp hv with rfl | hv
          · exact absurd (mem_scan_nodes.mpr ⟨hnew, e, hrow⟩) hfound
          · exact hv

theorem expand_nodup : ((expand rows depth level visited).map Found.node).Nodup := by
  induction level generalizing visited with
  | nil => exact List.nodup_nil
  | cons current rest ih =>
    rw [expand, List.map_append, List.nodup_append]
    refine ⟨scan_nodup, ih, fun a ha b hb heq => ?_⟩
    rw [heq] at ha
    exact (mem_expand_nodes.mp hb).1 (List.mem_append_right _ ha)

theorem expand_congr (h : ∀ v ∈ level, rows v = rows' v) :
    expand rows depth level visited = expand rows' depth level visited := by
  induction level generalizing visited with
  | nil => rfl
  | cons current rest ih =>
    rw [expand, expand, h current List.mem_cons_self,
      ih fun v hv => h v (List.mem_cons_of_mem _ hv)]

end Scan

/-! ## What the layers hold -/

/-- A layer holds the nodes at its depth; the visited ones are those up to it. -/
theorem mem_reached (d : ℕ) :
    (∀ n, n ∈ (reached rows start d).1 ↔ ∃ k ≤ d, Walk rows start k n) ∧
      ∀ n, n ∈ (reached rows start d).2 ↔ AtDepth rows start d n := by
  induction d with
  | zero =>
    refine ⟨fun n => ?_, fun n => ?_⟩
    · have hzero : AtDepth rows start 0 n ↔ n = start := atDepth_zero
      rw [reached, List.mem_singleton, ← hzero]
      constructor
      · intro h
        exact ⟨0, Nat.le_refl 0, h.1⟩
      · rintro ⟨k, hk, hwalk⟩
        obtain rfl := Nat.le_zero.mp hk
        exact ⟨hwalk, fun j hj => absurd hj (Nat.not_lt_zero j)⟩
    · rw [reached, List.mem_singleton]
      exact atDepth_zero.symm
  | succ d ih =>
    obtain ⟨hseen, hlevel⟩ := ih
    have hnew : ∀ n, n ∈ (reached rows start (d + 1)).2 ↔ AtDepth rows start (d + 1) n := by
      intro n
      rw [reached, mem_expand_nodes, hseen]
      constructor
      -- a node that is new has no shorter walk, or it would have been seen
      · rintro ⟨hnone, v, hv, e, hedge⟩
        refine ⟨((hlevel v).mp hv).1.step hedge, fun j hj hwalk => ?_⟩
        exact hnone ⟨j, Nat.le_of_lt_succ hj, hwalk⟩
      · intro h
        -- the node before it on a shortest walk is one layer up
        obtain ⟨v, e, hv, hedge⟩ := h.pred
        refine ⟨?_, v, (hlevel v).mpr hv, e, hedge⟩
        rintro ⟨k, hk, hwalk⟩
        exact h.2 k (Nat.lt_succ_of_le hk) hwalk
    refine ⟨fun n => ?_, hnew⟩
    have hsplit : n ∈ (reached rows start (d + 1)).1 ↔
        n ∈ (reached rows start d).1 ∨ n ∈ (reached rows start (d + 1)).2 := by
      rw [reached, List.mem_append]
    rw [hsplit, hseen, hnew]
    constructor
    · rintro (⟨k, hk, hwalk⟩ | h)
      · exact ⟨k, Nat.le_succ_of_le hk, hwalk⟩
      · exact ⟨d + 1, Nat.le_refl _, h.1⟩
    · rintro ⟨k, hk, hwalk⟩
      -- seen before, or only now
      by_cases hbefore : ∃ j ≤ d, Walk rows start j n
      · exact .inl hbefore
      · right
        have hlast : k = d + 1 := by
          by_contra hne
          exact hbefore ⟨k, by omega, hwalk⟩
        subst hlast
        exact ⟨hwalk, fun j hj hshorter => hbefore ⟨j, Nat.le_of_lt_succ hj, hshorter⟩⟩

/-- What is found at a depth is at that depth, by an edge from the layer before. -/
theorem layer_spec {f : Found ν ε} (h : f ∈ layer rows start d) :
    AtDepth rows start (d + 1) f.node ∧ AtDepth rows start d f.parent ∧
      (f.node, f.edge) ∈ rows f.parent ∧ f.depth = d + 1 := by
  obtain ⟨-, hparent, hdepth, hedge⟩ := expand_spec h
  refine ⟨?_, ((mem_reached d).2 f.parent).mp hparent, hedge, hdepth⟩
  rw [← (mem_reached (d + 1)).2, reached]
  exact List.mem_map_of_mem h

/-- Every node at a depth is found there. -/
theorem layer_complete (h : AtDepth rows start (d + 1) n) :
    ∃ f ∈ layer rows start d, f.node = n := by
  rw [← (mem_reached (d + 1)).2, reached] at h
  exact List.mem_map.mp h

/-- And once. -/
theorem layer_nodup : ((layer rows start d).map Found.node).Nodup := expand_nodup

theorem reached_nodup (d : ℕ) : (reached rows start d).1.Nodup := by
  induction d with
  | zero => exact List.nodup_singleton start
  | succ d ih =>
    rw [reached, List.nodup_append]
    refine ⟨ih, expand_nodup, fun a ha b hb heq => ?_⟩
    rw [heq] at ha
    exact (mem_expand_nodes.mp hb).1 ha

/-! ## The queue, a layer at a time -/

section Queue

variable {cap max_depth fuel : ℕ} {visited level : List ν} {queue : List (ν × ℕ)}

/-- Nodes at the bound are taken from the queue and left. -/
theorem search_bound (h : max_depth ≤ d) :
    search rows cap max_depth fuel visited (level.map fun v => (v, d)) = [] := by
  induction fuel generalizing level with
  | zero => rfl
  | succ fuel ih =>
    cases level with
    | nil => rfl
    | cons current rest =>
      rw [List.map_cons, search, if_pos h]
      by_cases hcap : cap ≤ visited.length
      · rw [if_pos hcap]
      · rw [if_neg hcap]
        exact ih

/-- Nothing is found once there are as many nodes as the bound on them. -/
theorem search_capped (h : cap ≤ visited.length) :
    search rows cap max_depth fuel visited queue = [] := by
  cases fuel with
  | zero => rfl
  | succ fuel =>
    cases queue with
    | nil => rfl
    | cons first queue => rw [search, if_pos h]

/-- A layer is taken from the queue node by node, and the next one is queued. -/
theorem search_layer (hdepth : d < max_depth)
    (hcap : (visited ++ (expand rows (d + 1) level visited).map Found.node).length ≤ cap) :
    search rows cap max_depth (level.length + fuel) visited
        (level.map (fun v => (v, d)) ++ queue)
      = expand rows (d + 1) level visited
        ++ search rows cap max_depth fuel
          (visited ++ (expand rows (d + 1) level visited).map Found.node)
          (queue ++ (expand rows (d + 1) level visited).map fun f => (f.node, f.depth)) := by
  induction level generalizing visited queue with
  | nil =>
    rw [expand, List.map_nil, List.map_nil, List.map_nil, List.append_nil, List.append_nil,
      List.length_nil, Nat.zero_add]
    rfl
  | cons current rest ih =>
    by_cases hfull : cap ≤ visited.length
    · -- there is no room for a find, and there is none
      have hnone : expand rows (d + 1) (current :: rest) visited = [] := by
        rw [List.length_append, List.length_map] at hcap
        exact List.eq_nil_of_length_eq_zero (by omega)
      rw [hnone, List.map_nil, List.map_nil, List.append_nil, search_capped hfull,
        search_capped hfull]
      rfl
    · rw [expand, List.map_append, ← List.append_assoc] at hcap
      have hfuel : (current :: rest).length + fuel = rest.length + fuel + 1 := by
        rw [List.length_cons]
        omega
      rw [hfuel, List.map_cons, List.cons_append, search, if_neg hfull,
        if_neg (Nat.not_le.mpr hdepth)]
      dsimp only
      rw [List.append_assoc, ih hcap, expand]
      simp only [List.map_append, List.append_assoc]

theorem reached_length_le {j : ℕ} (h : k ≤ j) :
    (reached rows start k).1.length ≤ (reached rows start j).1.length := by
  induction h with
  | refl => exact Nat.le_refl _
  | step _ ih =>
    rw [reached, List.length_append]
    omega

/-- The layers from a depth on, with room for all of them. -/
theorem search_layers (hcap : (reached rows start max_depth).1.length ≤ cap) (k d : ℕ)
    (hbound : d + k = max_depth)
    (hfuel : (reached rows start max_depth).1.length + (reached rows start d).2.length
      ≤ fuel + (reached rows start d).1.length) :
    search rows cap max_depth fuel (reached rows start d).1
        ((reached rows start d).2.map fun v => (v, d))
      = (List.range' d k).flatMap (layer rows start) := by
  induction k generalizing d fuel with
  | zero =>
    rw [List.range'_zero, List.flatMap_nil]
    exact search_bound (by omega)
  | succ k ih =>
    have hsucc : (reached rows start (d + 1)).1.length ≤ (reached rows start max_depth).1.length :=
      reached_length_le (by omega)
    have hhere : (reached rows start d).1.length ≤ (reached rows start max_depth).1.length :=
      reached_length_le (by omega)
    have hnext : reached rows start (d + 1)
        = ((reached rows start d).1 ++ (layer rows start d).map Found.node,
          (layer rows start d).map Found.node) := rfl
    rw [hnext] at hsucc
    -- this layer takes as many rounds as it has nodes
    obtain ⟨left, rfl⟩ : ∃ left, fuel = (reached rows start d).2.length + left :=
      ⟨fuel - (reached rows start d).2.length, by omega⟩
    have hstep : search rows cap max_depth ((reached rows start d).2.length + left)
        (reached rows start d).1 ((reached rows start d).2.map (fun v => (v, d)) ++ [])
          = layer rows start d ++ search rows cap max_depth left
            ((reached rows start d).1 ++ (layer rows start d).map Found.node)
            ([] ++ (layer rows start d).map fun f => (f.node, f.depth)) :=
      search_layer (by omega) (Nat.le_trans hsucc hcap)
    rw [List.append_nil, List.nil_append] at hstep
    rw [hstep, List.range'_succ, List.flatMap_cons]
    congr 1
    -- the queue after it is the next layer, each node with its depth
    have hdepths : (layer rows start d).map (fun f => (f.node, f.depth))
        = ((layer rows start d).map Found.node).map fun v => (v, d + 1) := by
      rw [List.map_map]
      apply List.map_congr_left
      intro f hf
      rw [(layer_spec hf).2.2.2]
      rfl
    have hfuel' : (reached rows start max_depth).1.length + (reached rows start (d + 1)).2.length
        ≤ left + (reached rows start (d + 1)).1.length := by
      rw [hnext]
      dsimp only
      rw [List.length_append]
      omega
    have hrest := ih (d + 1) (by omega) hfuel'
    rw [hnext, ← hdepths] at hrest
    exact hrest

/-- The nodes that are visited are of the graph. -/
theorem reached_length_le_nodes {nodes : List ν} (hstart : start ∈ nodes)
    (hrows : ∀ v n e, (n, e) ∈ rows v → n ∈ nodes) (d : ℕ) :
    (reached rows start d).1.length ≤ nodes.length := by
  refine ((reached_nodup d).subperm fun v hv => ?_).length_le
  obtain ⟨j, -, hwalk⟩ := ((mem_reached d).1 v).mp hv
  cases hwalk with
  | zero => exact hstart
  | step _ hedge => exact hrows _ _ _ hedge

/-- The nodes that are visited are the start and what the layers hold. -/
theorem reached_eq_layers (d : ℕ) : (reached rows start d).1
    = start :: ((List.range d).flatMap (layer rows start)).map Found.node := by
  induction d with
  | zero => rfl
  | succ d ih =>
    rw [List.range_succ, List.flatMap_append, List.map_append, ← List.cons_append, ← ih,
      List.flatMap_singleton]
    rfl

/-- **The search finds the layers one after the other**, of a graph where no more nodes are
within the bound on the depth than the bound on the nodes. -/
theorem bfs_within {nodes : ℕ} (hcap : (reached rows start max_depth).1.length ≤ cap)
    (hnodes : (reached rows start max_depth).1.length ≤ nodes) :
    bfs rows cap max_depth nodes start = (List.range max_depth).flatMap (layer rows start) := by
  rw [List.range_eq_range']
  exact search_layers hcap max_depth 0 (Nat.zero_add _) (Nat.add_le_add_right hnodes 1)

end Queue

/-! ## By which edge a node is found -/

/-- The layers up to that of a node do not depend on its rows. -/
theorem reached_update {edges : List (ν × ε)} (hv : AtDepth rows start d v) (hk : k ≤ d) :
    reached (Function.update rows v edges) start k = reached rows start k := by
  induction k with
  | zero => rfl
  | succ k ih =>
    have hbefore := ih (Nat.le_of_succ_le hk)
    rw [reached, reached, hbefore]
    have hsame : expand (Function.update rows v edges) (k + 1) (reached rows start k).2
        (reached rows start k).1
          = expand rows (k + 1) (reached rows start k).2 (reached rows start k).1 := by
      apply expand_congr
      intro u hu
      refine Function.update_of_ne ?_ _ _
      rintro rfl
      have hdepth := hv.unique (((mem_reached k).2 u).mp hu)
      omega
    rw [hsame]

/-- In some order of the rows, a node is found first of its layer, by a given edge of a
shortest path. -/
theorem found_first (hv : AtDepth rows start d v) (hn : AtDepth rows start (d + 1) n)
    (hedge : (n, e) ∈ rows v) (hfirst : (reached rows start d).2.head? = some v) :
    ∃ rows', (∀ u, (rows u).Perm (rows' u)) ∧
      (layer rows' start d).head? = some ⟨n, e, v, d + 1⟩ := by
  obtain ⟨before, rest, hsplit⟩ := List.append_of_mem hedge
  refine ⟨Function.update rows v ((n, e) :: (before ++ rest)), fun u => ?_, ?_⟩
  · by_cases hu : u = v
    · subst hu
      rw [Function.update_self, hsplit]
      exact List.perm_middle
    · rw [Function.update_of_ne hu]
  · have hnew : n ∉ (reached rows start d).1 := by
      rw [(mem_reached d).1]
      rintro ⟨k, hk, hwalk⟩
      exact hn.2 k (Nat.lt_succ_of_le hk) hwalk
    obtain ⟨others, hlevel⟩ : ∃ others, (reached rows start d).2 = v :: others :=
      List.head?_eq_some_iff.mp hfirst
    rw [layer, reached_update hv (Nat.le_refl d), hlevel, expand, Function.update_self, scan,
      if_neg hnew]
    rfl

/-- In some order of the rows, a node is the first of its layer. -/
theorem first_of_layer (hv : AtDepth rows start d v) :
    ∃ rows', (∀ u, (rows u).Perm (rows' u)) ∧ (reached rows' start d).2.head? = some v := by
  induction d generalizing v with
  | zero =>
    rw [atDepth_zero.mp hv]
    exact ⟨rows, fun u => List.Perm.refl _, rfl⟩
  | succ d ih =>
    obtain ⟨u, e, hu, hedge⟩ := hv.pred
    obtain ⟨rows₁, hperm₁, hfirst⟩ := ih hu
    obtain ⟨rows₂, hperm₂, hfound⟩ := found_first (hu.congr hperm₁) (hv.congr hperm₁)
      ((hperm₁ u).mem_iff.mp hedge) hfirst
    refine ⟨rows₂, fun w => (hperm₁ w).trans (hperm₂ w), ?_⟩
    show ((layer rows₂ start d).map Found.node).head? = some v
    rw [List.head?_map, hfound]
    rfl

/-- **Any edge of a shortest path is the one that its node is found by**, in some order
of the rows. -/
theorem found_by (hv : AtDepth rows start d v) (hn : AtDepth rows start (d + 1) n)
    (hedge : (n, e) ∈ rows v) :
    ∃ rows', (∀ u, (rows u).Perm (rows' u)) ∧ ⟨n, e, v, d + 1⟩ ∈ layer rows' start d := by
  obtain ⟨rows₁, hperm₁, hfirst⟩ := first_of_layer hv
  obtain ⟨rows₂, hperm₂, hfound⟩ := found_first (hv.congr hperm₁) (hn.congr hperm₁)
    ((hperm₁ v).mem_iff.mp hedge) hfirst
  exact ⟨rows₂, fun w => (hperm₁ w).trans (hperm₂ w), List.mem_of_head? hfound⟩

end PaCopilot.Bfs
