/-
The search of `Lib/Bfs` as a loop that ends, and the search for one node by its parents.

A loop of a program has no fuel. [`Ends`] says what it finds when it ends, and
[`search_ends`] that the fuel of a search lasts that long, on any graph: a node enters the
queue once.

The search for one node keeps a dictionary of parents in place of the visited nodes and
stops at the node it looks for. It meets it exactly if the search of `Lib/Bfs` finds it,
and the parents lead back along a path of its depth ([`pathSearch_spec`]).
-/
import Mathlib.Data.List.Chain
import PaCopilot.Lib.Bfs

set_option autoImplicit false

namespace PaCopilot.Bfs

variable {ν ε : Type} [DecidableEq ν]

/-! ## The end of the loop -/

/-- The loop of a search, from the nodes visited and the queue on, ends with these finds. -/
inductive Ends (rows : ν → List (ν × ε)) (cap max_depth : ℕ) :
    List ν → List (ν × ℕ) → List (Found ν ε) → Prop
  | empty {visited : List ν} : Ends rows cap max_depth visited [] []
  | capped {visited : List ν} {queue : List (ν × ℕ)} :
    cap ≤ visited.length → Ends rows cap max_depth visited queue []
  | bound {visited : List ν} {queue : List (ν × ℕ)} {current : ν} {depth : ℕ}
    {found : List (Found ν ε)} : visited.length < cap → max_depth ≤ depth →
    Ends rows cap max_depth visited queue found →
      Ends rows cap max_depth visited ((current, depth) :: queue) found
  | round {visited : List ν} {queue : List (ν × ℕ)} {current : ν} {depth : ℕ}
    {found : List (Found ν ε)} : visited.length < cap → depth < max_depth →
    Ends rows cap max_depth
      (visited ++ (scan current (depth + 1) (rows current) visited).map Found.node)
      (queue ++ (scan current (depth + 1) (rows current) visited).map fun f => (f.node, f.depth))
      found →
      Ends rows cap max_depth visited ((current, depth) :: queue)
        (scan current (depth + 1) (rows current) visited ++ found)

section Ends

variable {rows : ν → List (ν × ε)} {cap max_depth fuel : ℕ} {visited nodes : List ν}
  {queue : List (ν × ℕ)} {start : ν}

/-- What is found in a round is new and of the graph. -/
theorem scan_keeps (current : ν) (depth : ℕ) (hnodup : visited.Nodup)
    (hsub : ∀ v ∈ visited, v ∈ nodes) (hrows : ∀ v n e, (n, e) ∈ rows v → n ∈ nodes) :
    (visited ++ (scan current depth (rows current) visited).map Found.node).Nodup ∧
      ∀ v ∈ visited ++ (scan current depth (rows current) visited).map Found.node, v ∈ nodes := by
  constructor
  · rw [List.nodup_append]
    refine ⟨hnodup, scan_nodup, fun a ha b hb heq => ?_⟩
    rw [heq] at ha
    exact (mem_scan_nodes.mp hb).1 ha
  · intro v hv
    rcases List.mem_append.mp hv with hold | hnew
    · exact hsub v hold
    · obtain ⟨-, e, hrow⟩ := mem_scan_nodes.mp hnew
      exact hrows current v e hrow

theorem search_ends (hnodup : visited.Nodup) (hsub : ∀ v ∈ visited, v ∈ nodes)
    (hrows : ∀ v n e, (n, e) ∈ rows v → n ∈ nodes)
    (hfuel : queue.length + nodes.length ≤ fuel + visited.length) :
    Ends rows cap max_depth visited queue (search rows cap max_depth fuel visited queue) := by
  induction fuel generalizing visited queue with
  | zero =>
    have hfew : visited.length ≤ nodes.length := (hnodup.subperm hsub).length_le
    have hempty : queue = [] := List.eq_nil_of_length_eq_zero (by omega)
    rw [hempty]
    exact .empty
  | succ fuel ih =>
    cases queue with
    | nil => exact .empty
    | cons first queue =>
      obtain ⟨current, depth⟩ := first
      rw [List.length_cons] at hfuel
      rw [search]
      by_cases hcap : cap ≤ visited.length
      · rw [if_pos hcap]
        exact .capped hcap
      · rw [if_neg hcap]
        by_cases hdepth : max_depth ≤ depth
        · rw [if_pos hdepth]
          exact .bound (Nat.lt_of_not_le hcap) hdepth (ih hnodup hsub (by omega))
        · rw [if_neg hdepth]
          obtain ⟨hnodup', hsub'⟩ := scan_keeps current (depth + 1) hnodup hsub hrows
          refine .round (Nat.lt_of_not_le hcap) (Nat.lt_of_not_le hdepth) (ih hnodup' hsub' ?_)
          rw [List.length_append, List.length_append, List.length_map, List.length_map]
          omega

/-- **A search of a graph ends**, and its fuel lasts until it does. -/
theorem bfs_ends (hstart : start ∈ nodes) (hrows : ∀ v n e, (n, e) ∈ rows v → n ∈ nodes) :
    Ends rows cap max_depth [start] [(start, 0)] (bfs rows cap max_depth nodes.length start) := by
  refine search_ends (List.nodup_singleton start) ?_ hrows ?_
  · intro v hv
    rw [List.mem_singleton.mp hv]
    exact hstart
  · rw [List.length_singleton, List.length_singleton]
    omega

end Ends

/-! ## The search for one node -/

/-- From a node back through a dictionary of parents. -/
def trace (parents : List (ν × Option ν)) : ℕ → ν → List ν
  | 0, _ => []
  | fuel + 1, node =>
    node :: match parents.lookup node with
      | some (some parent) => trace parents fuel parent
      | _ => []

/-- The rows of a node: the path, if the target is among them, and else the parents and the
queue after them. -/
def scanTo (target current : ν) (depth : ℕ) : List (ν × ε) → List (ν × Option ν) →
    List (ν × ℕ) → List ν ⊕ (List (ν × Option ν) × List (ν × ℕ))
  | [], parents, queue => .inr (parents, queue)
  | (node, _) :: rest, parents, queue =>
    if node ∈ parents.map Prod.fst then scanTo target current depth rest parents queue
    else
      let parents := parents ++ [(node, some current)]
      if node = target then .inl (trace parents parents.length node).reverse
      else scanTo target current depth rest parents (queue ++ [(node, depth)])

section PathSearch

variable (rows : ν → List (ν × ε)) (cap max_depth : ℕ) (target : ν)

def pathSearch : ℕ → List (ν × Option ν) → List (ν × ℕ) → Option (List ν)
  | 0, _, _ => none
  | _ + 1, _, [] => none
  | fuel + 1, parents, (current, depth) :: queue =>
    if cap ≤ parents.length then none
    else if max_depth ≤ depth then pathSearch fuel parents queue
    else
      match scanTo target current (depth + 1) (rows current) parents queue with
      | .inl path => some path
      | .inr (parents, queue) => pathSearch fuel parents queue

/-- The loop of the search, from the parents and the queue on, ends with this answer. -/
inductive PathEnds : List (ν × Option ν) → List (ν × ℕ) → Option (List ν) → Prop
  | empty {parents : List (ν × Option ν)} : PathEnds parents [] none
  | capped {parents : List (ν × Option ν)} {queue : List (ν × ℕ)} :
    cap ≤ parents.length → PathEnds parents queue none
  | bound {parents : List (ν × Option ν)} {queue : List (ν × ℕ)} {current : ν} {depth : ℕ}
    {answer : Option (List ν)} : parents.length < cap → max_depth ≤ depth →
    PathEnds parents queue answer → PathEnds parents ((current, depth) :: queue) answer
  | met {parents : List (ν × Option ν)} {queue : List (ν × ℕ)} {current : ν} {depth : ℕ}
    {path : List ν} : parents.length < cap → depth < max_depth →
    scanTo target current (depth + 1) (rows current) parents queue = .inl path →
    PathEnds parents ((current, depth) :: queue) (some path)
  | round {parents parents' : List (ν × Option ν)} {queue queue' : List (ν × ℕ)} {current : ν}
    {depth : ℕ} {answer : Option (List ν)} : parents.length < cap → depth < max_depth →
    scanTo target current (depth + 1) (rows current) parents queue = .inr (parents', queue') →
    PathEnds parents' queue' answer → PathEnds parents ((current, depth) :: queue) answer

/-- A path along the edges from one node to another. -/
structure IsPath (start : ν) (path : List ν) : Prop where
  first : path.head? = some start
  last : path.getLast? = some target
  edges : path.IsChain fun v n => ∃ e, (n, e) ∈ rows v

/-- The parents lead from a node back to the start, along edges. -/
inductive Trail (start : ν) (parents : List (ν × Option ν)) : ℕ → ν → List ν → Prop
  | root : parents.lookup start = some none → Trail start parents 0 start [start]
  | step {d : ℕ} {v n : ν} {e : ε} {path : List ν} : Trail start parents d v path →
    (n, e) ∈ rows v → parents.lookup n = some (some v) →
      Trail start parents (d + 1) n (n :: path)

end PathSearch

section Trail

variable {rows : ν → List (ν × ε)} {start v n target : ν} {d fuel : ℕ} {path : List ν}
  {parents more : List (ν × Option ν)}

theorem Trail.trace_eq (h : Trail rows start parents d n path) (hfuel : d < fuel) :
    trace parents fuel n = path := by
  induction h generalizing fuel with
  | root hroot =>
    obtain ⟨fuel, rfl⟩ := Nat.exists_eq_add_one_of_ne_zero (Nat.ne_of_gt hfuel)
    rw [trace, hroot]
  | step _ _ hparent ih =>
    obtain ⟨fuel, rfl⟩ := Nat.exists_eq_add_one_of_ne_zero (Nat.ne_of_gt (Nat.zero_lt_of_lt hfuel))
    rw [trace, hparent]
    dsimp only
    rw [ih (Nat.lt_of_succ_lt_succ hfuel)]

/-- More parents leave a trail as it is. -/
theorem Trail.append (h : Trail rows start parents d n path) (more : List (ν × Option ν)) :
    Trail rows start (parents ++ more) d n path := by
  induction h with
  | root hroot => exact .root (by rw [List.lookup_append, hroot, Option.some_or])
  | step _ hedge hparent ih =>
    exact .step ih hedge (by rw [List.lookup_append, hparent, Option.some_or])

theorem Trail.length_eq (h : Trail rows start parents d n path) : path.length = d + 1 := by
  induction h with
  | root _ => rfl
  | step _ _ _ ih => rw [List.length_cons, ih]

theorem Trail.head_eq (h : Trail rows start parents d n path) : path.head? = some n := by
  cases h <;> rfl

/-- Read from the start, a trail is a path. -/
theorem Trail.isPath (h : Trail rows start parents d n path) :
    IsPath rows n start path.reverse := by
  induction h with
  | root _ => exact ⟨rfl, rfl, List.isChain_singleton _⟩
  | @step d v n e path htrail hedge _ ih =>
    refine ⟨?_, ?_, ?_⟩
    · rw [List.head?_reverse, List.getLast?_cons, ← List.head?_reverse, ih.first]
      rfl
    · rw [List.getLast?_reverse]
      rfl
    · rw [List.isChain_reverse, List.isChain_cons]
      refine ⟨fun u hu => ?_, List.isChain_reverse.mp ih.edges⟩
      rw [htrail.head_eq] at hu
      cases hu
      exact ⟨e, hedge⟩

theorem lookup_eq_none (h : n ∉ parents.map Prod.fst) : parents.lookup n = none := by
  rw [List.lookup_eq_none_iff]
  intro p hp
  rw [bne_iff_ne]
  rintro rfl
  exact h (List.mem_map_of_mem hp)

end Trail

section Parents

variable {rows : ν → List (ν × ε)} {cap max_depth fuel depth : ℕ} {start target current : ν}
  {parents : List (ν × Option ν)} {queue : List (ν × ℕ)} {edges : List (ν × ε)}

/-- Where the target is not among the rows, the parents and the queue take what a scan finds. -/
theorem scanTo_new
    (h : target ∉ (scan current depth edges (parents.map Prod.fst)).map Found.node) :
    scanTo target current depth edges parents queue
      = .inr (parents ++ (scan current depth edges (parents.map Prod.fst)).map
          (fun f => (f.node, some current)),
        queue ++ (scan current depth edges (parents.map Prod.fst)).map
          fun f => (f.node, f.depth)) := by
  induction edges generalizing parents queue with
  | nil => simp [scanTo, scan]
  | cons row rest ih =>
    obtain ⟨node, edge⟩ := row
    rw [scanTo, scan]
    rw [scan] at h
    by_cases hold : node ∈ parents.map Prod.fst
    · rw [if_pos hold] at h
      rw [if_pos hold, if_pos hold]
      exact ih h
    · rw [if_neg hold] at h
      rw [if_neg hold, if_neg hold]
      rw [List.map_cons, List.mem_cons, not_or] at h
      have hkeys : (parents ++ [(node, some current)]).map Prod.fst
          = parents.map Prod.fst ++ [node] := by
        rw [List.map_append]
        rfl
      have hrest : target ∉ (scan current depth rest
          ((parents ++ [(node, some current)]).map Prod.fst)).map Found.node := by
        rw [hkeys]
        exact h.2
      dsimp only
      rw [if_neg (Ne.symm h.1), ih hrest, hkeys]
      simp only [List.append_assoc, List.map_cons, List.cons_append, List.nil_append]

/-- Where it is among them, the answer is the trace from it. -/
theorem scanTo_target (queue : List (ν × ℕ)) (hnew : target ∉ parents.map Prod.fst)
    (h : target ∈ (scan current depth edges (parents.map Prod.fst)).map Found.node) :
    ∃ more, target ∉ more.map Prod.fst ∧
      scanTo target current depth edges parents queue
        = .inl (trace (parents ++ more ++ [(target, some current)])
          (parents ++ more ++ [(target, some current)]).length target).reverse := by
  induction edges generalizing parents queue with
  | nil => exact absurd h List.not_mem_nil
  | cons row rest ih =>
    obtain ⟨node, edge⟩ := row
    rw [scan] at h
    rw [scanTo]
    by_cases hold : node ∈ parents.map Prod.fst
    · rw [if_pos hold] at h
      rw [if_pos hold]
      exact ih queue hnew h
    · rw [if_neg hold] at h
      rw [if_neg hold]
      -- the scan stops at the target; before it, new nodes are appended to both lists
      by_cases hhere : node = target
      · subst hhere
        refine ⟨[], List.not_mem_nil, ?_⟩
        dsimp only
        rw [if_pos rfl, List.append_nil]
      · dsimp only
        rw [if_neg hhere]
        have hkeys : (parents ++ [(node, some current)]).map Prod.fst
            = parents.map Prod.fst ++ [node] := by
          rw [List.map_append]
          rfl
        have hlater : target ∈
            (scan current depth rest ((parents ++ [(node, some current)]).map Prod.fst)).map
              Found.node := by
          rw [hkeys]
          exact (List.mem_cons.mp h).resolve_left (Ne.symm hhere)
        have hnew' : target ∉ (parents ++ [(node, some current)]).map Prod.fst := by
          rw [hkeys, List.mem_append, List.mem_singleton, not_or]
          exact ⟨hnew, Ne.symm hhere⟩
        obtain ⟨more, hmore, heq⟩ := ih (queue ++ [(node, depth)]) hnew' hlater
        refine ⟨(node, some current) :: more, ?_, ?_⟩
        · rw [List.map_cons, List.mem_cons, not_or]
          exact ⟨Ne.symm hhere, hmore⟩
        · rw [heq]
          simp only [List.append_assoc, List.cons_append, List.nil_append]

omit [DecidableEq ν] in
theorem map_fst_append (found : List (Found ν ε)) :
    (parents ++ found.map fun f => (f.node, some current)).map Prod.fst
      = parents.map Prod.fst ++ found.map Found.node := by
  rw [List.map_append, List.map_map]
  rfl

theorem scanTo_next {parents' : List (ν × Option ν)} {queue' : List (ν × ℕ)}
    (h : scanTo target current depth edges parents queue = .inr (parents', queue')) :
    target ∉ (scan current depth edges (parents.map Prod.fst)).map Found.node ∧
      parents'.map Prod.fst = parents.map Prod.fst
        ++ (scan current depth edges (parents.map Prod.fst)).map Found.node ∧
      parents' = parents ++ (scan current depth edges (parents.map Prod.fst)).map
        (fun f => (f.node, some current)) ∧
      queue' = queue ++ (scan current depth edges (parents.map Prod.fst)).map
        fun f => (f.node, f.depth) := by
  by_cases htarget :
      target ∈ (scan current depth edges (parents.map Prod.fst)).map Found.node
  · obtain ⟨more, -, heq⟩ := scanTo_target queue (mem_scan_nodes.mp htarget).1 htarget
    rw [heq] at h
    cases h
  · rw [scanTo_new htarget] at h
    cases h
    exact ⟨htarget, map_fst_append _, rfl, rfl⟩

theorem pathSearch_ends {nodes : List ν} (hnodup : (parents.map Prod.fst).Nodup)
    (hsub : ∀ v ∈ parents.map Prod.fst, v ∈ nodes)
    (hrows : ∀ v n e, (n, e) ∈ rows v → n ∈ nodes)
    (hfuel : queue.length + nodes.length ≤ fuel + parents.length) :
    PathEnds rows cap max_depth target parents queue
      (pathSearch rows cap max_depth target fuel parents queue) := by
  induction fuel generalizing parents queue with
  | zero =>
    -- every round takes from the queue, and what enters it is a node that was never seen
    have hfew : (parents.map Prod.fst).length ≤ nodes.length := (hnodup.subperm hsub).length_le
    rw [List.length_map] at hfew
    have hempty : queue = [] := List.eq_nil_of_length_eq_zero (by omega)
    rw [hempty]
    exact .empty
  | succ fuel ih =>
    cases queue with
    | nil => exact .empty
    | cons first queue =>
      obtain ⟨current, depth⟩ := first
      rw [List.length_cons] at hfuel
      rw [pathSearch]
      by_cases hcap : cap ≤ parents.length
      · rw [if_pos hcap]
        exact .capped hcap
      · rw [if_neg hcap]
        by_cases hdepth : max_depth ≤ depth
        · rw [if_pos hdepth]
          exact .bound (Nat.lt_of_not_le hcap) hdepth (ih hnodup hsub (by omega))
        · rw [if_neg hdepth]
          cases hscan : scanTo target current (depth + 1) (rows current) parents queue with
          | inl path => exact .met (Nat.lt_of_not_le hcap) (Nat.lt_of_not_le hdepth) hscan
          | inr next =>
            obtain ⟨parents', queue'⟩ := next
            obtain ⟨-, hkeys, rfl, rfl⟩ := scanTo_next hscan
            obtain ⟨hnodup', hsub'⟩ := scan_keeps current (depth + 1) hnodup hsub hrows
            rw [← hkeys] at hnodup' hsub'
            refine .round (Nat.lt_of_not_le hcap) (Nat.lt_of_not_le hdepth) hscan
              (ih hnodup' hsub' ?_)
            rw [List.length_append, List.length_append, List.length_map, List.length_map]
            omega

theorem lookup_found {f : Found ν ε} {found : List (Found ν ε)} (hf : f ∈ found) :
    (found.map fun f => (f.node, some current)).lookup f.node = some (some current) := by
  induction found with
  | nil => exact absurd hf List.not_mem_nil
  | cons first rest ih =>
    rw [List.map_cons, List.lookup_cons]
    split
    · rfl
    · rename_i hne
      refine ih ((List.mem_cons.mp hf).resolve_left fun heq => ?_)
      rw [heq, beq_self_eq_true] at hne
      cases hne

/-- What the queue is for: the target is not yet met, and the parents lead back from every node
of the queue along as many edges as its depth. -/
structure Leading (rows : ν → List (ν × ε)) (start target : ν) (parents : List (ν × Option ν))
    (queue : List (ν × ℕ)) : Prop where
  unmet : target ∉ parents.map Prod.fst
  trails : ∀ v d, (v, d) ∈ queue → d < parents.length ∧ ∃ path, Trail rows start parents d v path

theorem Leading.rest {first : ν × ℕ} (h : Leading rows start target parents (first :: queue)) :
    Leading rows start target parents queue :=
  ⟨h.unmet, fun v d hv => h.trails v d (List.mem_cons_of_mem _ hv)⟩

/-- A round leaves trails to what it has found. -/
theorem Leading.round (h : Leading rows start target parents ((current, depth) :: queue))
    {found : List (Found ν ε)} (hfound : found = scan current (depth + 1) (rows current)
      (parents.map Prod.fst)) (htarget : target ∉ found.map Found.node) :
    Leading rows start target (parents ++ found.map fun f => (f.node, some current))
      (queue ++ found.map fun f => (f.node, f.depth)) := by
  constructor
  · rw [map_fst_append, List.mem_append, not_or]
    exact ⟨h.unmet, htarget⟩
  · intro v d hv
    rw [List.length_append, List.length_map]
    rcases List.mem_append.mp hv with hold | hnew
    · obtain ⟨hlt, path, hpath⟩ := h.trails v d (List.mem_cons_of_mem _ hold)
      exact ⟨by omega, path, hpath.append _⟩
    · obtain ⟨f, hf, heq⟩ := List.mem_map.mp hnew
      cases heq
      have hspec := hf
      rw [hfound] at hspec
      obtain ⟨hnode, -, hdepth, hedge⟩ := scan_spec hspec
      obtain ⟨hlt, path, hpath⟩ := h.trails current depth List.mem_cons_self
      have hpos : 0 < found.length := List.length_pos_of_mem hf
      have hparent : (parents ++ found.map fun f => (f.node, some current)).lookup f.node
          = some (some current) := by
        rw [List.lookup_append, lookup_eq_none hnode, Option.none_or]
        exact lookup_found hf
      rw [hdepth]
      exact ⟨by omega, _, (hpath.append _).step hedge hparent⟩

theorem pathSearch_spec (cap max_depth fuel : ℕ) (h : Leading rows start target parents queue) :
    (pathSearch rows cap max_depth target fuel parents queue = none ↔
      ∀ f ∈ search rows cap max_depth fuel (parents.map Prod.fst) queue, f.node ≠ target) ∧
    ∀ path, pathSearch rows cap max_depth target fuel parents queue = some path →
      ∃ f ∈ search rows cap max_depth fuel (parents.map Prod.fst) queue, f.node = target ∧
        IsPath rows target start path ∧ path.length = f.depth + 1 := by
  -- both searches stop at the same rounds, so the two are taken apart side by side
  induction fuel generalizing parents queue with
  | zero =>
    refine ⟨⟨fun _ f hf => absurd hf List.not_mem_nil, fun _ => rfl⟩, fun path hpath => ?_⟩
    cases hpath
  | succ fuel ih =>
    cases queue with
    | nil =>
      refine ⟨⟨fun _ f hf => absurd hf List.not_mem_nil, fun _ => rfl⟩, fun path hpath => ?_⟩
      cases hpath
    | cons first queue =>
      obtain ⟨current, depth⟩ := first
      rw [pathSearch, search, List.length_map]
      by_cases hcap : cap ≤ parents.length
      · rw [if_pos hcap, if_pos hcap]
        refine ⟨⟨fun _ f hf => absurd hf List.not_mem_nil, fun _ => rfl⟩, fun path hpath => ?_⟩
        cases hpath
      · rw [if_neg hcap, if_neg hcap]
        by_cases hdepth : max_depth ≤ depth
        · rw [if_pos hdepth, if_pos hdepth]
          -- a node at the depth limit is passed over by both
          exact ih h.rest
        · rw [if_neg hdepth, if_neg hdepth]
          dsimp only
          by_cases htarget : target ∈
              (scan current (depth + 1) (rows current) (parents.map Prod.fst)).map Found.node
          -- the target is found in this round: the path is the trail of `current` and one step more
          · obtain ⟨more, hmore, hscan⟩ := scanTo_target queue h.unmet htarget
            obtain ⟨f, hf, hnode⟩ := List.mem_map.mp htarget
            obtain ⟨-, -, hfdepth, hedge⟩ := scan_spec hf
            obtain ⟨hlt, back, hback⟩ := h.trails current depth List.mem_cons_self
            rw [hnode] at hedge
            have hparent : (parents ++ more ++ [(target, some current)]).lookup target
                = some (some current) := by
              rw [List.lookup_append, List.lookup_append, lookup_eq_none h.unmet,
                lookup_eq_none hmore]
              simp
            have htrail := ((hback.append more).append _).step hedge hparent
            have hfuel : depth + 1 < (parents ++ more ++ [(target, some current)]).length := by
              rw [List.length_append, List.length_append, List.length_singleton]
              omega
            have htrace := htrail.trace_eq hfuel
            rw [hscan]
            dsimp only
            refine ⟨⟨(fun hnone => by cases hnone), fun hall => ?_⟩, fun path hpath => ?_⟩
            · exact absurd hnode (hall f (List.mem_append_left _ hf))
            · cases hpath
              refine ⟨f, List.mem_append_left _ hf, hnode, ?_, ?_⟩
              · rw [htrace]
                exact htrail.isPath
              · rw [htrace, List.length_reverse, htrail.length_eq, hfdepth]
          -- the target is not here, and what is found is found by a later round
          · have hround := h.round rfl htarget
            obtain ⟨hnone, hsome⟩ := ih hround
            rw [map_fst_append] at hnone hsome
            rw [scanTo_new htarget]
            dsimp only
            constructor
            · rw [hnone]
              constructor
              · intro hall f hf
                rcases List.mem_append.mp hf with hhere | hlater
                · intro heq
                  exact htarget (heq ▸ List.mem_map_of_mem hhere)
                · exact hall f hlater
              · exact fun hall f hf => hall f (List.mem_append_right _ hf)
            · intro path hpath
              obtain ⟨f, hf, hrest⟩ := hsome path hpath
              exact ⟨f, List.mem_append_right _ hf, hrest⟩

end Parents

omit [DecidableEq ν] in
/-- The nodes of a path are of the graph. -/
theorem IsPath.mem_nodes {rows : ν → List (ν × ε)} {start target : ν} {path nodes : List ν}
    (h : IsPath rows target start path) (hstart : start ∈ nodes)
    (hrows : ∀ v n e, (n, e) ∈ rows v → n ∈ nodes) : ∀ v ∈ path, v ∈ nodes := by
  obtain ⟨rest, hpath⟩ := List.head?_eq_some_iff.mp h.first
  have hedges := h.edges
  rw [hpath] at hedges ⊢
  clear hpath h
  induction rest generalizing start with
  | nil =>
    intro v hv
    rw [List.mem_singleton.mp hv]
    exact hstart
  | cons next rest ih =>
    obtain ⟨⟨e, hedge⟩, hrest⟩ := List.isChain_cons_cons.mp hedges
    intro v hv
    rcases List.mem_cons.mp hv with rfl | hv
    · exact hstart
    · exact ih (hrows _ _ _ hedge) hrest v hv

/-! ## Walks -/

section Flip

variable {rows rows' : ν → List (ν × ε)} {a b v n : ν} {e : ε} {k : ℕ}

omit [DecidableEq ν] in
/-- What there is a walk to has a distance. -/
theorem Walk.atDepth (h : Walk rows a k b) : ∃ j ≤ k, AtDepth rows a j b := by
  induction k using Nat.strong_induction_on with
  | _ k ih =>
    by_cases hshorter : ∃ j < k, Walk rows a j b
    · obtain ⟨j, hj, hwalk⟩ := hshorter
      obtain ⟨i, hi, hdepth⟩ := ih j hj hwalk
      exact ⟨i, hi.trans hj.le, hdepth⟩
    · exact ⟨k, le_rfl, h, fun j hj hwalk => hshorter ⟨j, hj, hwalk⟩⟩

omit [DecidableEq ν] in
theorem Walk.cons (hedge : (n, e) ∈ rows v) (h : Walk rows n k b) : Walk rows v (k + 1) b := by
  induction h with
  | zero => exact .step .zero hedge
  | step _ hlast ih => exact .step ih hlast

omit [DecidableEq ν] in
theorem Walk.flip (hflip : ∀ v n, (∃ e, (n, e) ∈ rows v) → ∃ e, (v, e) ∈ rows' n)
    (h : Walk rows a k b) : Walk rows' b k a := by
  induction h with
  | zero => exact .zero
  | step _ hedge ih =>
    obtain ⟨e, hback⟩ := hflip _ _ ⟨_, hedge⟩
    exact ih.cons hback

omit [DecidableEq ν] in
/-- Distances are the same along the edges and against them. -/
theorem AtDepth.flip (hflip : ∀ v n, (∃ e, (n, e) ∈ rows v) ↔ ∃ e, (v, e) ∈ rows' n)
    (h : AtDepth rows a k b) : AtDepth rows' b k a :=
  ⟨h.1.flip fun v n => (hflip v n).mp,
    fun j hj hwalk => h.2 j hj (hwalk.flip fun v n => (hflip n v).mpr)⟩

end Flip

end PaCopilot.Bfs
