/-
What an extraction writes, and what a refresh changes, by name.

The loops of the extraction only add, so each is the union of what its rounds add
([`foldl_collects`]).
-/
import PaCopilot.Metadata.Index

set_option autoImplicit false

namespace PaCopilot.metadata

/-- A loop whose rounds add to what holds: after it holds what held before and what any
round adds. -/
theorem foldl_collects {σ α ι : Type} (f : σ → α → σ) (I : σ → Prop) (holds : σ → ι → Prop)
    (adds : α → ι → Prop) {xs : List α} (hI : ∀ s, ∀ x ∈ xs, I s → I (f s x))
    (hadd : ∀ s, ∀ x ∈ xs, I s → ∀ i, holds (f s x) i ↔ holds s i ∨ adds x i) {s : σ} (hs : I s) :
    I (xs.foldl f s) ∧ ∀ i, holds (xs.foldl f s) i ↔ holds s i ∨ ∃ x ∈ xs, adds x i := by
  induction xs generalizing s with
  | nil =>
    refine ⟨hs, fun i => ⟨.inl, fun h => h.elim id ?_⟩⟩
    rintro ⟨x, hx, _⟩
    exact absurd hx List.not_mem_nil
  | cons x xs ih =>
    have hx : x ∈ x :: xs := List.mem_cons_self
    obtain ⟨hlast, hiff⟩ := ih (fun s y hy => hI s y (List.mem_cons_of_mem _ hy))
      (fun s y hy => hadd s y (List.mem_cons_of_mem _ hy)) (hI s x hx hs)
    refine ⟨hlast, fun i => ?_⟩
    rw [List.foldl_cons, hiff, hadd s x hx hs]
    constructor
    · rintro ((hold | hnew) | ⟨y, hy, hadds⟩)
      · exact .inl hold
      · exact .inr ⟨x, hx, hnew⟩
      · exact .inr ⟨y, List.mem_cons_of_mem _ hy, hadds⟩
    · rintro (hold | ⟨y, hy, hadds⟩)
      · exact .inl (.inl hold)
      · rcases List.mem_cons.mp hy with rfl | hy
        · exact .inl (.inr hadds)
        · exact .inr ⟨y, hy, hadds⟩

section Structures

variable {rd : Reader} {organization_id : ℕ} {s : Structures} {g : Graph}

/-- The names of cubes and dimensions, and of what belongs to them. -/
def InStructures (s : Structures) (k : Key) : Prop :=
  (k.1 = "cube" ∧ ∃ c ∈ s.cubes, c.name = k.2) ∨
    (k.1 = "dimension" ∧ ∃ c ∈ s.cubes, k.2 ∈ c.dimensions) ∨ k.1 ∈ ["hierarchy", "view", "subset"]

def Within (s : Structures) (g : Graph) : Prop := ∀ k ∈ g.keys, InStructures s k

theorem Within.add_object {k : Key} (h : Within s g) (hk : InStructures s k) :
    Within s (g.add_object organization_id k) := by
  intro x hx
  rcases Graph.mem_keys_add_object.mp hx with hold | rfl
  · exact h x hold
  · exact hk

theorem Within.attach {k a b : Key} {t : String} (h : Within s g) (hk : InStructures s k) :
    Within s (attach organization_id k a b t g) := by
  intro x hx
  rw [metadata.attach, Graph.keys_add_relationship] at hx
  exact h.add_object hk x hx

/-- An extraction of structures adds nothing but their names. -/
theorem extract_structures_within (rd : Reader) (organization_id : ℕ) (s : Structures) :
    Within s (extract_structures rd organization_id s) := by
  -- one fact for each loop, over its own kind of name
  have hempty : Within s Graph.empty := fun k hk => absurd hk List.not_mem_nil
  have hcubes : Within s (s.cubes.foldl (extract_cube organization_id) Graph.empty) := by
    refine List.foldlRecOn _ _ hempty fun g hg c hc => ?_
    refine List.foldlRecOn _ _ (hg.add_object (.inl ⟨rfl, c, hc, rfl⟩)) fun g hg d hd => ?_
    exact hg.attach (.inr (.inl ⟨rfl, c, hc, hd⟩))
  have hhierarchies : ∀ {g : Graph} {names : List String}, Within s g →
      Within s (names.foldl (extract_hierarchies organization_id s) g) := by
    intro g names hg
    refine List.foldlRecOn _ _ hg fun g hg dimension _ => ?_
    exact List.foldlRecOn _ _ hg fun g hg name _ => hg.attach (.inr (.inr List.mem_cons_self))
  have hrules : ∀ {g : Graph} {cubes : List CubeInfo}, Within s g →
      Within s (cubes.foldl (extract_rules rd) g) := by
    intro g cubes hg
    refine List.foldlRecOn _ _ hg fun g hg cube _ => ?_
    refine List.foldlRecOn _ _ hg fun g hg referenced _ => ?_
    split
    · exact hg
    · split
      · intro k hk
        rw [Graph.keys_add_relationship] at hk
        exact hg k hk
      · exact hg
  have hviews : ∀ {g : Graph} {names : List String}, Within s g →
      Within s (names.foldl (extract_views organization_id s) g) := by
    intro g names hg
    refine List.foldlRecOn _ _ hg fun g hg cube _ => ?_
    exact List.foldlRecOn _ _ hg fun g hg name _ =>
      hg.attach (.inr (.inr (List.mem_cons_of_mem _ List.mem_cons_self)))
  have hsubsets : ∀ {g : Graph} {names : List String}, Within s g →
      Within s (names.foldl (extract_subsets organization_id s) g) := by
    intro g names hg
    refine List.foldlRecOn _ _ hg fun g hg dimension _ => ?_
    exact List.foldlRecOn _ _ hg fun g hg name _ =>
      hg.attach (.inr (.inr (List.mem_cons_of_mem _ (List.mem_cons_of_mem _ List.mem_cons_self))))
  exact hsubsets (hviews (hrules (hhierarchies hcubes)))

end Structures

/-- There is the edge from one object to another, of a type. -/
def Graph.Has (g : Graph) (edge : Key × Key × String) : Prop := g.Named edge.1 edge.2.1 edge.2.2

section Processes

variable {rd : Reader} {organization_id : ℕ} {m : Model rd} {g : Graph} {k a b p : Key}
  {t : String} {edges : List (Key × String)}

theorem add_process_edges_spec (hp : p ∈ g.keys) (hedges : ∀ e ∈ edges, e.1 ∈ g.keys) :
    (add_process_edges p edges g).keys = g.keys ∧
      ∀ a b t, (add_process_edges p edges g).Named a b t ↔
        g.Named a b t ∨ (a = p ∧ b ≠ p ∧ (b, t) ∈ edges) := by
  -- the loop over the edges, and what one round adds
  let f : Graph → Key × String → Graph := fun g e =>
    if e.1 = p then g else g.add_relationship p e.1 e.2
  have hkeys : ∀ g', ∀ e ∈ edges, g'.keys = g.keys → (f g' e).keys = g.keys := by
    intro g' e _ hg'
    by_cases hself : e.1 = p
    · rw [show f g' e = g' from if_pos hself]
      exact hg'
    · rw [show f g' e = g'.add_relationship p e.1 e.2 from if_neg hself,
        Graph.keys_add_relationship]
      exact hg'
  let adds : Key × String → Key × Key × String → Prop := fun e i =>
    e.1 ≠ p ∧ i.1 = p ∧ i.2.1 = e.1 ∧ i.2.2 = e.2
  have hnamed : ∀ g', ∀ e ∈ edges, g'.keys = g.keys →
      ∀ i, (f g' e).Has i ↔ g'.Has i ∨ adds e i := by
    intro g' e he hg' i
    by_cases hself : e.1 = p
    · rw [show f g' e = g' from if_pos hself]
      exact ⟨.inl, fun h => h.elim id fun h => absurd hself h.1⟩
    · rw [show f g' e = g'.add_relationship p e.1 e.2 from if_neg hself, Graph.Has,
        Graph.named_add_relationship (hg' ▸ hp) (hg' ▸ hedges e he)]
      exact or_congr Iff.rfl ⟨fun h => ⟨hself, h⟩, fun h => h.2⟩
  obtain ⟨hlast, hiff⟩ :=
    foldl_collects f (fun g' => g'.keys = g.keys) Graph.Has adds hkeys hnamed rfl
  refine ⟨hlast, fun a b t => (hiff (a, b, t)).trans (or_congr Iff.rfl ?_)⟩
  constructor
  · rintro ⟨e, he, hself, rfl, rfl, rfl⟩
    exact ⟨rfl, hself, he⟩
  · rintro ⟨rfl, hself, he⟩
    exact ⟨(b, t), he, hself, rfl, rfl, rfl⟩

/-- The edges of a chore lead to the processes that there are. -/
theorem extract_chore_spec (chore : ChoreInfo) :
    (∀ x, x ∈ (extract_chore organization_id g chore).keys ↔
      x ∈ g.keys ∨ x = ("chore", chore.name)) ∧
      ∀ a b t, (extract_chore organization_id g chore).Named a b t ↔
        g.Named a b t ∨ ∃ name ∈ chore.process_names, ("process", name) ∈ g.keys ∧
          a = ("chore", chore.name) ∧ b = ("process", name) ∧ t = "runs_process" := by
  let start := g.add_object organization_id ("chore", chore.name)
  have hstart : ∀ x, x ∈ start.keys ↔ x ∈ g.keys ∨ x = ("chore", chore.name) :=
    fun x => Graph.mem_keys_add_object
  have hprocess : ∀ name, ("process", name) ∈ start.keys ↔ ("process", name) ∈ g.keys := by
    intro name
    rw [hstart]
    refine ⟨fun h => h.elim id fun heq => ?_, .inl⟩
    exact absurd heq (by simp)
  -- the loop over the processes of the chore, and what one round adds
  let f : Graph → String → Graph := fun g name =>
    if ("process", name) ∈ g.keys then
      g.add_relationship ("chore", chore.name) ("process", name) "runs_process"
    else g
  have hkeys : ∀ g', ∀ name ∈ chore.process_names, g'.keys = start.keys →
      (f g' name).keys = start.keys := by
    intro g' name _ hg'
    by_cases hthere : ("process", name) ∈ g'.keys
    · rw [show f g' name = _ from if_pos hthere, Graph.keys_add_relationship]
      exact hg'
    · rw [show f g' name = g' from if_neg hthere]
      exact hg'
  let adds : String → Key × Key × String → Prop := fun name i =>
    ("process", name) ∈ g.keys ∧ i.1 = ("chore", chore.name) ∧ i.2.1 = ("process", name) ∧
      i.2.2 = "runs_process"
  have hnamed : ∀ g', ∀ name ∈ chore.process_names, g'.keys = start.keys →
      ∀ i, (f g' name).Has i ↔ g'.Has i ∨ adds name i := by
    intro g' name _ hg' i
    by_cases hthere : ("process", name) ∈ g'.keys
    · have hchore : ("chore", chore.name) ∈ g'.keys := by
        rw [hg', hstart]
        exact .inr rfl
      rw [show f g' name = _ from if_pos hthere, Graph.Has,
        Graph.named_add_relationship hchore hthere]
      rw [hg', hprocess] at hthere
      exact or_congr Iff.rfl ⟨fun h => ⟨hthere, h⟩, fun h => h.2⟩
    · rw [show f g' name = g' from if_neg hthere]
      rw [hg', hprocess] at hthere
      exact ⟨.inl, fun h => h.elim id fun h => absurd h.1 hthere⟩
  obtain ⟨hlast, hiff⟩ :=
    foldl_collects f (fun g' => g'.keys = start.keys) Graph.Has adds hkeys hnamed rfl
  have hfold : extract_chore organization_id g chore = chore.process_names.foldl f start := rfl
  rw [hfold, hlast]
  exact ⟨hstart, fun a b t => (hiff (a, b, t)).trans (or_congr Graph.named_add_object Iff.rfl)⟩

/-! ## The whole extraction -/

theorem mem_listed {q : ProcessInfo} :
    q ∈ m.listed ↔ q ∈ m.processes ∧ rd.control q.name = false := by
  rw [Model.listed, List.mem_filter, Bool.not_eq_true']

/-- The objects of the structures, and the processes that are listed. -/
theorem mem_nodes : k ∈ (extract_nodes rd organization_id m).keys ↔
    k ∈ (extract_structures rd organization_id m.toStructures).keys ∨
      ∃ q ∈ m.listed, k = ("process", q.name) := by
  have hadd : ∀ g : Graph, ∀ q ∈ m.listed, True → ∀ x : Key,
      x ∈ (g.add_object organization_id ("process", q.name)).keys ↔
        x ∈ g.keys ∨ x = ("process", q.name) :=
    fun g q _ _ x => Graph.mem_keys_add_object
  exact (foldl_collects _ (fun _ => True) (fun (g : Graph) x => x ∈ g.keys) _
    (fun _ _ _ _ => trivial) hadd
    trivial).2 k

theorem named_nodes : (extract_nodes rd organization_id m).Named a b t ↔
    (extract_structures rd organization_id m.toStructures).Named a b t := by
  let f : Graph → ProcessInfo → Graph := fun g q => g.add_object organization_id ("process", q.name)
  have hfold : ∀ (processes : List ProcessInfo) (g : Graph),
      (processes.foldl f g).Named a b t ↔ g.Named a b t := by
    intro processes
    induction processes with
    | nil => exact fun g => Iff.rfl
    | cons q rest ih => exact fun g => (ih (f g q)).trans Graph.named_add_object
  exact hfold m.listed _

/-- The names of one model differ by more than case. -/
theorem spelled_of_names {index : List Key}
    (hnames : ∀ x ∈ index, x.1 ≠ "chore" → InStructures m.toStructures x ∨
      ∃ q ∈ m.listed, x = ("process", q.name)) : Spelled rd index := by
  rintro ⟨kind, n⟩ ha ⟨kind', n'⟩ hb hkind heq hlower
  cases heq
  have hkey := rd.key_of_lower _ _ hlower
  have hplain : kind ≠ "chore" := by
    rintro rfl
    exact absurd hkind (by simp [resolved])
  have hstructure : ∀ x ∈ ["hierarchy", "view", "subset"], x ∉ resolved := by decide
  -- both keys are of one kind, and in each kind the model's names differ by key
  rcases hnames _ ha hplain with (⟨hcube, c, hc, hcn⟩ | ⟨hdim, c, hc, hd⟩ | hother) | ⟨q, hq, hqn⟩
  · obtain rfl : kind = "cube" := hcube
    rcases hnames _ hb (by simp) with (⟨_, c', hc', hcn'⟩ | ⟨hno, _⟩ | hno) | ⟨_, _, hno⟩
    · have hname := m.cube_names c hc c' hc' (by rw [hcn, hcn']; exact hkey)
      exact congrArg _ (hcn.symm.trans (hname.trans hcn'))
    · exact absurd hno (by simp)
    · exact absurd hno (by simp)
    · exact absurd hno (by simp)
  · obtain rfl : kind = "dimension" := hdim
    rcases hnames _ hb (by simp) with (⟨hno, _⟩ | ⟨_, c', hc', hd'⟩ | hno) | ⟨_, _, hno⟩
    · exact absurd hno (by simp)
    · exact congrArg _ (m.dimension_names c hc c' hc' n hd n' hd' hkey)
    · exact absurd hno (by simp)
    · exact absurd hno (by simp)
  · exact absurd hkind (hstructure kind hother)
  · obtain ⟨rfl, rfl⟩ : kind = "process" ∧ n = q.name := Prod.ext_iff.mp hqn
    rcases hnames _ hb (by simp) with (⟨hno, _⟩ | ⟨hno, _⟩ | hno) | ⟨q', hq', hqn'⟩
    · exact absurd hno (by simp)
    · exact absurd hno (by simp)
    · exact absurd hno (by simp)
    · obtain rfl : n' = q'.name := congrArg Prod.snd hqn'
      have hsame : q = q' := List.inj_on_of_nodup_map m.process_names (mem_listed.mp hq).1
        (mem_listed.mp hq').1 hkey
      rw [hsame]

theorem spelled_nodes : Spelled rd (extract_nodes rd organization_id m).keys := by
  refine spelled_of_names (m := m) fun x hx _ => ?_
  rcases mem_nodes.mp hx with hold | hprocess
  · exact .inl (extract_structures_within rd organization_id _ x hold)
  · exact .inr hprocess

/-- The edges that the processes make. -/
theorem extract_processes_spec (rd : Reader) (organization_id : ℕ) (m : Model rd) :
    let index := (extract_nodes rd organization_id m).keys
    (extract_processes rd organization_id m).keys = index ∧
      ∀ a b t, (extract_processes rd organization_id m).Named a b t ↔
        (extract_structures rd organization_id m.toStructures).Named a b t ∨
          ∃ q ∈ m.listed, a = ("process", q.name) ∧ b ≠ ("process", q.name) ∧
            (b, t) ∈ (process_edges rd index q).1 := by
  intro index
  let f : Graph → ProcessInfo → Graph := fun g q =>
    add_process_edges ("process", q.name) (process_edges rd index q).1 g
  let adds : ProcessInfo → Key × Key × String → Prop := fun q i =>
    i.1 = ("process", q.name) ∧ i.2.1 ≠ ("process", q.name) ∧
      (i.2.1, i.2.2) ∈ (process_edges rd index q).1
  have hround : ∀ g, ∀ q ∈ m.listed, g.keys = index →
      (f g q).keys = g.keys ∧ ∀ i, (f g q).Has i ↔ g.Has i ∨ adds q i := by
    intro g q hq hg
    have hprocess : ("process", q.name) ∈ g.keys := by
      rw [hg]
      exact mem_nodes.mpr (.inr ⟨q, hq, rfl⟩)
    have htargets : ∀ e ∈ (process_edges rd index q).1, e.1 ∈ g.keys := by
      rintro ⟨target, relationship⟩ he
      rw [hg]
      exact process_edges_mem spelled_nodes he
    obtain ⟨hkeys, hnamed⟩ := add_process_edges_spec hprocess htargets
    exact ⟨hkeys, fun i => hnamed i.1 i.2.1 i.2.2⟩
  obtain ⟨hlast, hiff⟩ := foldl_collects f (fun g => g.keys = index) Graph.Has adds
    (fun g q hq hg => (hround g q hq hg).1.trans hg) (fun g q hq hg => (hround g q hq hg).2) rfl
  exact ⟨hlast, fun a b t => (hiff (a, b, t)).trans (or_congr named_nodes Iff.rfl)⟩

/-- The objects are those nodes, and the chores. -/
theorem mem_extracted : k ∈ (extract_metadata rd organization_id m).1.keys ↔
    k ∈ (extract_nodes rd organization_id m).keys ∨ ∃ c ∈ m.chores, k = ("chore", c.name) := by
  have hround : ∀ g : Graph, ∀ c ∈ m.chores, True → ∀ x : Key,
      x ∈ (extract_chore organization_id g c).keys ↔ x ∈ g.keys ∨ x = ("chore", c.name) :=
    fun g c _ _ => (extract_chore_spec c).1
  obtain ⟨_, hiff⟩ := foldl_collects _ (fun _ => True) (fun (g : Graph) x => x ∈ g.keys) _
    (fun _ _ _ _ => trivial) hround trivial
  refine (hiff k).trans (or_congr ?_ Iff.rfl)
  rw [(extract_processes_spec rd organization_id m).1]

/-- The edges are those among the structures, those of the processes, and those from the
chores to the processes that are listed. -/
theorem named_extracted : (extract_metadata rd organization_id m).1.Named a b t ↔
    (extract_structures rd organization_id m.toStructures).Named a b t ∨
      (∃ q ∈ m.listed, a = ("process", q.name) ∧ b ≠ ("process", q.name) ∧
        (b, t) ∈ (process_edges rd (extract_nodes rd organization_id m).keys q).1) ∨
      ∃ c ∈ m.chores, ∃ name ∈ c.process_names,
        ("process", name) ∈ (extract_nodes rd organization_id m).keys ∧
          a = ("chore", c.name) ∧ b = ("process", name) ∧ t = "runs_process" := by
  obtain ⟨hkeys, hnamed⟩ := extract_processes_spec rd organization_id m
  let index := (extract_nodes rd organization_id m).keys
  let adds : ChoreInfo → Key × Key × String → Prop := fun c i =>
    ∃ name ∈ c.process_names, ("process", name) ∈ index ∧ i.1 = ("chore", c.name) ∧
      i.2.1 = ("process", name) ∧ i.2.2 = "runs_process"
  -- no chore is added as a process
  let I : Graph → Prop := fun g => ∀ name, ("process", name) ∈ g.keys ↔ ("process", name) ∈ index
  have hI : ∀ g, ∀ c ∈ m.chores, I g → I (extract_chore organization_id g c) := by
    intro g c _ hg name
    rw [(extract_chore_spec c).1, hg]
    exact ⟨fun h => h.elim id fun heq => absurd heq (by simp), .inl⟩
  have hround : ∀ g, ∀ c ∈ m.chores, I g → ∀ i,
      (extract_chore organization_id g c).Has i ↔ g.Has i ∨ adds c i := by
    intro g c _ hg i
    refine ((extract_chore_spec c).2 i.1 i.2.1 i.2.2).trans (or_congr Iff.rfl ?_)
    constructor
    · rintro ⟨name, hname, hmem, h⟩
      exact ⟨name, hname, (hg name).mp hmem, h⟩
    · rintro ⟨name, hname, hmem, h⟩
      exact ⟨name, hname, (hg name).mpr hmem, h⟩
  have hstart : I (extract_processes rd organization_id m) := fun name => by rw [hkeys]
  obtain ⟨_, hiff⟩ := foldl_collects (extract_chore organization_id) I Graph.Has adds hI hround
    hstart
  refine (hiff (a, b, t)).trans ?_
  rw [Graph.Has, hnamed, or_assoc]

theorem spelled_extracted : Spelled rd (extract_metadata rd organization_id m).1.keys := by
  refine spelled_of_names (m := m) fun x hx hchore => ?_
  rcases mem_extracted.mp hx with hnode | ⟨c, _, rfl⟩
  · rcases mem_nodes.mp hnode with hold | hprocess
    · exact .inl (extract_structures_within rd organization_id _ x hold)
    · exact .inr hprocess
  · exact absurd rfl hchore

end Processes

end PaCopilot.metadata
