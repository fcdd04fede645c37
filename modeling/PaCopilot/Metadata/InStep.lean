/-
A refresh keeps the graph in step with the model: what an extraction writes changes with one
process as the refresh changes the graph.
-/
import PaCopilot.Metadata.Refresh

set_option autoImplicit false

namespace PaCopilot.metadata

section Extraction

variable {rd : Reader} {organization_id : ℕ} {m m' : Model rd} {p : ProcessInfo} {k a b : Key}
  {t name : String}

/-- What belongs to the structures is no process and no chore. -/
theorem structure_kind {s : Structures} (h : k ∈ (extract_structures rd organization_id s).keys) :
    k.1 ≠ "process" ∧ k.1 ≠ "chore" := by
  rcases extract_structures_within rd organization_id s k h with ⟨hk, _⟩ | ⟨hk, _⟩ | hk
  · rw [hk]
    decide
  · rw [hk]
    decide
  · have hother : ∀ kind ∈ ["hierarchy", "view", "subset"], kind ≠ "process" ∧ kind ≠ "chore" := by
      decide
    exact hother k.1 hk

theorem structure_ne (h : k ∈ (extract_structures rd organization_id m.toStructures).keys) :
    k ≠ ("process", name) := by
  rintro rfl
  exact (structure_kind h).1 rfl

/-- A process is a node exactly when it is listed. -/
theorem process_mem_nodes : ("process", name) ∈ (extract_nodes rd organization_id m).keys ↔
    ∃ q ∈ m.listed, q.name = name := by
  rw [mem_nodes]
  constructor
  · rintro (hold | ⟨q, hq, heq⟩)
    · exact absurd rfl (structure_ne hold)
    · exact ⟨q, hq, (congrArg Prod.snd heq).symm⟩
  · rintro ⟨q, hq, rfl⟩
    exact .inr ⟨q, hq, rfl⟩

/-- Two listed processes with one key are the same. -/
theorem listed_eq {q q' : ProcessInfo} (hq : q ∈ m.listed) (hq' : q' ∈ m.listed)
    (hkey : rd.key q.name = rd.key q'.name) : q = q' :=
  List.inj_on_of_nodup_map m.process_names (mem_listed.mp hq).1 (mem_listed.mp hq').1 hkey

/-- The nodes after a process was written. -/
theorem mem_nodes_written (organization_id : ℕ) (m m' : Model rd)
    (hs : m'.toStructures = m.toStructures)
    (hlisted : ∀ q, q ∈ m'.listed ↔ (q ∈ m.listed ∧ rd.key q.name ≠ rd.key p.name) ∨ q = p)
    (hold : ∀ q ∈ m.listed, rd.key q.name = rd.key p.name → p.name = q.name) (k : Key) :
    k ∈ (extract_nodes rd organization_id m').keys ↔
      k ∈ (extract_nodes rd organization_id m).keys ∨ k = ("process", p.name) := by
  rw [mem_nodes, mem_nodes, hs]
  constructor
  · rintro (hstructure | ⟨q, hq, rfl⟩)
    · exact .inl (.inl hstructure)
    · rcases (hlisted q).mp hq with ⟨hq, _⟩ | rfl
      · exact .inl (.inr ⟨q, hq, rfl⟩)
      · exact .inr rfl
  · rintro ((hstructure | ⟨q, hq, rfl⟩) | rfl)
    · exact .inl hstructure
    · by_cases hkey : rd.key q.name = rd.key p.name
      · -- the one that was replaced, under the name of the new one
        exact .inr ⟨p, (hlisted p).mpr (.inr rfl), by rw [hold q hq hkey]⟩
      · exact .inr ⟨q, (hlisted q).mpr (.inl ⟨hq, hkey⟩), rfl⟩
    · exact .inr ⟨p, (hlisted p).mpr (.inr rfl), rfl⟩

/-- An extraction after a process was written. -/
theorem extract_written (organization_id : ℕ) (m m' : Model rd)
    (hs : m'.toStructures = m.toStructures) (hc : m'.chores = m.chores)
    (hlisted : ∀ q, q ∈ m'.listed ↔ (q ∈ m.listed ∧ rd.key q.name ≠ rd.key p.name) ∨ q = p)
    (hold : ∀ q ∈ m.listed, rd.key q.name = rd.key p.name → p.name = q.name)
    (hnew : (∃ q ∈ m.listed, rd.key q.name = rd.key p.name) ∨
      ((∀ q ∈ m.listed, ∀ ref ∈ rd.parse_process_code q, ¬ Calls rd ref p.name) ∧
        ∀ c ∈ m.chores, p.name ∉ c.process_names)) :
    (∀ k, k ∈ (extract_metadata rd organization_id m').1.keys ↔
      k ∈ (extract_metadata rd organization_id m).1.keys ∨ k = ("process", p.name)) ∧
    ∀ a b t, (extract_metadata rd organization_id m').1.Named a b t ↔
      ((extract_metadata rd organization_id m).1.Named a b t ∧ a ≠ ("process", p.name)) ∨
        (a = ("process", p.name) ∧ b ≠ ("process", p.name) ∧
          (b, t) ∈ (process_edges rd (extract_nodes rd organization_id m').keys p).1) := by
  have hnodes := mem_nodes_written organization_id m m' hs hlisted hold
  -- nothing refers to the process that did not find it before
  have hcalled : ∀ q ∈ m.listed, (∃ ref ∈ rd.parse_process_code q, Calls rd ref p.name) →
      ("process", p.name) ∈ (extract_nodes rd organization_id m).keys := by
    rintro q hq ⟨ref, href, hcalls⟩
    rcases hnew with ⟨old, hmem, hkey⟩ | ⟨hnone, _⟩
    · exact process_mem_nodes.mpr ⟨old, hmem, (hold old hmem hkey).symm⟩
    · exact absurd hcalls (hnone q hq ref href)
  have hlast : ∀ c ∈ m.chores, ∀ name ∈ c.process_names,
      (("process", name) ∈ (extract_nodes rd organization_id m').keys ↔
        ("process", name) ∈ (extract_nodes rd organization_id m).keys) := by
    intro c hcm name hname
    rw [hnodes]
    refine ⟨fun h => h.elim id fun heq => ?_, .inl⟩
    obtain rfl : name = p.name := congrArg Prod.snd heq
    rcases hnew with ⟨old, hmem, hkey⟩ | ⟨_, hnone⟩
    · exact process_mem_nodes.mpr ⟨old, hmem, (hold old hmem hkey).symm⟩
    · exact absurd hname (hnone c hcm)
  have hedges : ∀ q ∈ m.listed, ∀ b t,
      ((b, t) ∈ (process_edges rd (extract_nodes rd organization_id m').keys q).1 ↔
        (b, t) ∈ (process_edges rd (extract_nodes rd organization_id m).keys q).1) := by
    intro q hq b t
    by_cases hb : b = ("process", p.name)
    · rw [hb, mem_process_edges_process spelled_nodes, mem_process_edges_process spelled_nodes]
      constructor
      · rintro ⟨_, ht, hcalls⟩
        exact ⟨hcalled q hq hcalls, ht, hcalls⟩
      · rintro ⟨hmem, ht, hcalls⟩
        exact ⟨(hnodes _).mpr (.inl hmem), ht, hcalls⟩
    · refine mem_process_edges_congr spelled_nodes spelled_nodes (Graph.keys_nodup _)
        (Graph.keys_nodup _) rfl (fun x _ hx => ?_) hb
      rw [hnodes]
      exact ⟨fun h => h.resolve_right hx, .inl⟩
  refine ⟨fun k => ?_, fun a b t => ?_⟩
  · rw [mem_extracted, mem_extracted, hnodes, hc]
    exact or_right_comm
  · rw [named_extracted, named_extracted, hs, hc]
    constructor
    · rintro (hstructure | ⟨q, hq, rfl, hself, hedge⟩ | ⟨c, hcm, name, hname, hmem, rfl, hb, ht⟩)
      · exact .inl ⟨.inl hstructure, structure_ne hstructure.ends.1⟩
      · rcases (hlisted q).mp hq with ⟨hq, hkey⟩ | rfl
        · refine .inl ⟨.inr (.inl ⟨q, hq, rfl, hself, (hedges q hq b t).mp hedge⟩), fun heq => ?_⟩
          have hname : q.name = p.name := congrArg Prod.snd heq
          exact hkey (by rw [hname])
        · exact .inr ⟨rfl, hself, hedge⟩
      · refine .inl ⟨.inr (.inr ⟨c, hcm, name, hname, ?_, rfl, hb, ht⟩), by simp⟩
        exact (hlast c hcm name hname).mp hmem
    · rintro (⟨hstructure | ⟨q, hq, rfl, hself, hedge⟩ | ⟨c, hcm, name, hname, hmem, rfl, hb, ht⟩,
        hne⟩ | ⟨rfl, hself, hedge⟩)
      · exact .inl hstructure
      · have hkey : rd.key q.name ≠ rd.key p.name := fun hkey => hne (by rw [hold q hq hkey])
        exact .inr (.inl ⟨q, (hlisted q).mpr (.inl ⟨hq, hkey⟩), rfl, hself,
          (hedges q hq b t).mpr hedge⟩)
      · exact .inr (.inr ⟨c, hcm, name, hname, (hlast c hcm name hname).mpr hmem, rfl, hb, ht⟩)
      · exact .inr (.inl ⟨p, (hlisted p).mpr (.inr rfl), rfl, hself, hedge⟩)

/-- A listed process is another one exactly when its node is. -/
theorem key_ne_iff {q : ProcessInfo} (hp : p ∈ m.listed) (hq : q ∈ m.listed) :
    rd.key q.name ≠ rd.key p.name ↔ (("process", q.name) : Key) ≠ ("process", p.name) := by
  constructor
  · intro hkey heq
    have hname : q.name = p.name := congrArg Prod.snd heq
    exact hkey (by rw [hname])
  · intro hne hkey
    exact hne (by rw [listed_eq hq hp hkey])

/-- The nodes after a process was deleted. -/
theorem mem_nodes_dropped (organization_id : ℕ) (m m' : Model rd)
    (hs : m'.toStructures = m.toStructures) (hp : p ∈ m.listed)
    (hlisted : ∀ q, q ∈ m'.listed ↔ q ∈ m.listed ∧ rd.key q.name ≠ rd.key p.name) (k : Key) :
    k ∈ (extract_nodes rd organization_id m').keys ↔
      k ∈ (extract_nodes rd organization_id m).keys ∧ k ≠ ("process", p.name) := by
  rw [mem_nodes, mem_nodes, hs]
  constructor
  · rintro (hstructure | ⟨q, hq, rfl⟩)
    · exact ⟨.inl hstructure, structure_ne hstructure⟩
    · obtain ⟨hq, hkey⟩ := (hlisted q).mp hq
      exact ⟨.inr ⟨q, hq, rfl⟩, (key_ne_iff hp hq).mp hkey⟩
  · rintro ⟨hstructure | ⟨q, hq, rfl⟩, hne⟩
    · exact .inl hstructure
    · exact .inr ⟨q, (hlisted q).mpr ⟨hq, (key_ne_iff hp hq).mpr hne⟩, rfl⟩

/-- An extraction after a process was deleted. -/
theorem extract_dropped (organization_id : ℕ) (m m' : Model rd)
    (hs : m'.toStructures = m.toStructures) (hc : m'.chores = m.chores)
    (hp : p ∈ m.listed)
    (hlisted : ∀ q, q ∈ m'.listed ↔ q ∈ m.listed ∧ rd.key q.name ≠ rd.key p.name) :
    (∀ k, k ∈ (extract_metadata rd organization_id m').1.keys ↔
      k ∈ (extract_metadata rd organization_id m).1.keys ∧ k ≠ ("process", p.name)) ∧
    ∀ a b t, (extract_metadata rd organization_id m').1.Named a b t ↔
      (extract_metadata rd organization_id m).1.Named a b t ∧ a ≠ ("process", p.name) ∧
        b ≠ ("process", p.name) := by
  have hnodes := mem_nodes_dropped organization_id m m' hs hp hlisted
  -- another process keeps its references, but for one to the deleted process
  have hedges : ∀ (q : ProcessInfo) b t,
      ((b, t) ∈ (process_edges rd (extract_nodes rd organization_id m').keys q).1 ↔
        (b, t) ∈ (process_edges rd (extract_nodes rd organization_id m).keys q).1 ∧
          b ≠ ("process", p.name)) := by
    intro q b t
    have hcongr : b ≠ ("process", p.name) →
        ((b, t) ∈ (process_edges rd (extract_nodes rd organization_id m').keys q).1 ↔
          (b, t) ∈ (process_edges rd (extract_nodes rd organization_id m).keys q).1) := by
      intro hb
      refine mem_process_edges_congr spelled_nodes spelled_nodes (Graph.keys_nodup _)
        (Graph.keys_nodup _) rfl (fun x _ hx => ?_) hb
      exact (hnodes x).trans (and_iff_left hx)
    constructor
    · intro hedge
      have hb := ((hnodes b).mp (process_edges_mem spelled_nodes hedge)).2
      exact ⟨(hcongr hb).mp hedge, hb⟩
    · rintro ⟨hedge, hb⟩
      exact (hcongr hb).mpr hedge
  refine ⟨fun k => ?_, fun a b t => ?_⟩
  · rw [mem_extracted, mem_extracted, hnodes, hc]
    constructor
    · rintro (⟨hmem, hne⟩ | ⟨c, hcm, rfl⟩)
      · exact ⟨.inl hmem, hne⟩
      · exact ⟨.inr ⟨c, hcm, rfl⟩, by simp⟩
    · rintro ⟨hmem | hchore, hne⟩
      · exact .inl ⟨hmem, hne⟩
      · exact .inr hchore
  · rw [named_extracted, named_extracted, hs, hc]
    constructor
    -- an edge is of the structures, of a process or of a chore
    · rintro (hstructure | ⟨q, hq, rfl, hself, hedge⟩ | ⟨c, hcm, name, hname, hmem, rfl, rfl, ht⟩)
      · exact ⟨.inl hstructure, structure_ne hstructure.ends.1, structure_ne hstructure.ends.2⟩
      · obtain ⟨hq, hkey⟩ := (hlisted q).mp hq
        obtain ⟨hedge, hb⟩ := (hedges q b t).mp hedge
        exact ⟨.inr (.inl ⟨q, hq, rfl, hself, hedge⟩), (key_ne_iff hp hq).mp hkey, hb⟩
      · obtain ⟨hmem, hne⟩ := (hnodes _).mp hmem
        exact ⟨.inr (.inr ⟨c, hcm, name, hname, hmem, rfl, rfl, ht⟩), by simp, hne⟩
    · rintro ⟨hstructure | ⟨q, hq, rfl, hself, hedge⟩ | ⟨c, hcm, name, hname, hmem, rfl, rfl, ht⟩,
        ha, hb⟩
      · exact .inl hstructure
      · exact .inr (.inl ⟨q, (hlisted q).mpr ⟨hq, (key_ne_iff hp hq).mpr ha⟩, rfl, hself,
          (hedges q b t).mpr ⟨hedge, hb⟩⟩)
      · exact .inr (.inr ⟨c, hcm, name, hname, (hnodes _).mpr ⟨hmem, hb⟩, rfl, rfl, ht⟩)

/-- An extraction of a model with the same structures, chores and listed processes. -/
theorem extract_unchanged (organization_id : ℕ) (m m' : Model rd)
    (hs : m'.toStructures = m.toStructures) (hc : m'.chores = m.chores)
    (hlisted : m'.listed = m.listed) :
    extract_metadata rd organization_id m' = extract_metadata rd organization_id m := by
  have hnodes : extract_nodes rd organization_id m' = extract_nodes rd organization_id m := by
    rw [extract_nodes, extract_nodes, hs, hlisted]
  have hprocesses : extract_processes rd organization_id m'
      = extract_processes rd organization_id m := by
    rw [extract_processes, extract_processes, hnodes, hlisted]
  rw [extract_metadata, extract_metadata, hnodes, hprocesses, hc, hlisted]

end Extraction

/-! ## One change -/

section Step

variable {rd : Reader} {organization_id : ℕ} {s s' : Mapped rd} {d : Deed}

/-- The refresh that follows a change to a process is not skipped. -/
theorem _refresh_graph_of_deed {get_process : String → Option ProcessInfo} {g g' : Graph}
    {touched : Bool} (h : refresh_process rd organization_id get_process g d.target_name d.deleted
      = .ok (g', touched)) :
    _refresh_graph rd organization_id get_process d.change_type d.target_name d.deleted g = g' := by
  have hrefreshed : (match refresh_process rd organization_id get_process g d.target_name
      d.deleted with
    | .ok (refreshed, _) => refreshed
    | .error _ => g) = g' := by rw [h]
  cases d <;> exact hrefreshed

theorem InStep.process_mem (h : InStep rd organization_id s) {name : String} :
    ("process", name) ∈ s.2.keys ↔ ∃ q ∈ s.1.listed, q.name = name := by
  rw [h.objects, mem_extracted, ← process_mem_nodes]
  refine ⟨fun hmem => hmem.elim id ?_, .inl⟩
  rintro ⟨c, _, heq⟩
  exact absurd heq (by simp)

theorem InStep.spelled (h : InStep rd organization_id s) : Spelled rd s.2.keys := by
  intro a ha b hb
  exact spelled_extracted a ((h.objects a).mp ha) b ((h.objects b).mp hb)

/-- A process that the model does not list is not found in the graph. -/
theorem InStep.not_mem_of_key (h : InStep rd organization_id s) {name target : String}
    (hnone : ∀ q ∈ s.1.listed, rd.key q.name ≠ rd.key name) (hkey : rd.key name = rd.key target) :
    ("process", name) ∉ s.2.keys ∧
      ∀ n, ("process", n) ∈ s.2.keys → rd.lower n ≠ rd.lower target := by
  constructor
  · intro hmem
    obtain ⟨q, hq, hqname⟩ := h.process_mem.mp hmem
    exact hnone q hq (by rw [hqname])
  · intro n hmem hlower
    obtain ⟨q, hq, rfl⟩ := h.process_mem.mp hmem
    exact hnone q hq ((rd.key_of_lower _ _ hlower).trans hkey.symm)

/-- Apart from the chores, the objects of the graph are the nodes of the extraction. -/
theorem node_iff {m : Model rd} {k : Key} (hchore : k.1 ≠ "chore") :
    k ∈ (extract_metadata rd organization_id m).1.keys ↔
      k ∈ (extract_nodes rd organization_id m).keys := by
  rw [mem_extracted]
  refine ⟨fun h => h.elim id ?_, .inl⟩
  rintro ⟨c, _, rfl⟩
  exact absurd rfl hchore

theorem refreshStep_eq_some (h : refreshStep rd organization_id s d = some s') :
    d.possible s.1 = true ∧ s' = (d.applied s.1, _refresh_graph rd organization_id
      (d.applied s.1).get_process d.change_type d.target_name d.deleted s.2) := by
  unfold refreshStep at h
  by_cases hpossible : d.possible s.1 = true
  · rw [if_pos hpossible] at h
    exact ⟨hpossible, (Option.some.inj h).symm⟩
  · rw [if_neg hpossible] at h
    cases h

/-- A deletion keeps the graph in step. -/
theorem InStep.delete (h : InStep rd organization_id s) (htrace : Traceable rd s d)
    (hw : d.written = none) (hstep : refreshStep rd organization_id s d = some s') :
    InStep rd organization_id s' := by
  obtain ⟨m, g⟩ := s
  obtain ⟨-, rfl⟩ := refreshStep_eq_some hstep
  have happlied : d.applied m = m.drop d.target_name := by
    unfold Deed.applied
    rw [hw]
  have hdeleted : d.deleted = true := by
    rw [d.deleted_eq, hw]
    rfl
  dsimp only at h htrace ⊢
  rw [happlied]
  by_cases hthere : ∃ q ∈ m.listed, rd.key q.name = rd.key d.target_name
  -- the graph has the process under the name it has in the model
  · obtain ⟨q, hq, hkey⟩ := hthere
    have hmem : ("process", q.name) ∈ g.keys := h.process_mem.mpr ⟨q, hq, rfl⟩
    obtain ⟨g', hrefresh, hkeys, hnamed⟩ := refresh_deleted organization_id
      (m.drop d.target_name).get_process h.spelled hmem (htrace.spelled q hq hkey)
    rw [← hdeleted] at hrefresh
    rw [_refresh_graph_of_deed hrefresh]
    have hlisted : ∀ q', q' ∈ (m.drop d.target_name).listed ↔
        q' ∈ m.listed ∧ rd.key q'.name ≠ rd.key q.name := by
      intro q'
      rw [mem_listed, mem_listed, Model.mem_drop, hkey]
      exact and_right_comm
    obtain ⟨hobjects, hedges⟩ := extract_dropped organization_id m
      (m.drop d.target_name) rfl rfl hq hlisted
    refine ⟨fun k => ?_, fun a b t => ?_⟩
    · rw [hkeys, hobjects, h.objects]
    · rw [hnamed, hedges, h.edges]
  -- there was no such process, and neither side changes
  · have hnone := (h.not_mem_of_key (fun q hq hkey => hthere ⟨q, hq, hkey⟩) rfl).2
    obtain ⟨touched, hrefresh⟩ := refresh_absent organization_id
      (m.drop d.target_name).get_process h.spelled hnone
    rw [← hdeleted] at hrefresh
    rw [_refresh_graph_of_deed hrefresh]
    have hlisted : (m.drop d.target_name).listed = m.listed := by
      show (m.processes.filter _).filter _ = m.processes.filter _
      rw [List.filter_filter]
      apply List.filter_congr
      intro q hq
      rw [Bool.and_eq_left_iff_imp]
      intro hcontrol
      refine decide_eq_true fun hkey => hthere ⟨q, mem_listed.mpr ⟨hq, ?_⟩, hkey⟩
      exact Bool.not_eq_true' _ ▸ hcontrol
    have hsame := extract_unchanged organization_id m (m.drop d.target_name) rfl rfl hlisted
    refine ⟨fun k => ?_, fun a b t => ?_⟩
    · rw [hsame]
      exact h.objects k
    · rw [hsame]
      exact h.edges a b t

/-- What a change that writes a process leaves: the process, listed under the name it had,
and the others. -/
theorem applied_written {m : Model rd} {p : ProcessInfo} (hpossible : d.possible m = true)
    (hw : d.written = some p)
    (hcontrol : ∀ p ∈ (d.applied m).processes, rd.key p.name = rd.key d.target_name →
      rd.control p.name = false) :
    ∃ written, (d.applied m).get_process d.target_name = some written ∧
      rd.key written.name = rd.key d.target_name ∧
      (∀ q, q ∈ (d.applied m).listed ↔
        (q ∈ m.listed ∧ rd.key q.name ≠ rd.key written.name) ∨ q = written) ∧
      ∀ q ∈ m.processes, rd.key q.name = rd.key written.name → written.name = q.name := by
  have happlied : d.applied m = m.write p := by
    unfold Deed.applied
    rw [hw]
  rw [happlied] at hcontrol ⊢
  obtain ⟨written, hget, hprocesses, hname⟩ := m.write_spec p
  obtain ⟨hwritten, hkeyw⟩ := Model.get_process_iff.mp hget
  have hkey := hkeyw.trans (Deed.key_written hpossible hw)
  refine ⟨written, Model.get_process_iff.mpr ⟨hwritten, hkey⟩, hkey, fun q => ?_,
    fun q hq hqkey => hname q hq (hqkey.trans hkeyw)⟩
  rw [mem_listed, mem_listed, hprocesses, hkeyw]
  constructor
  · rintro ⟨⟨hq, hne⟩ | rfl, hc⟩
    · exact .inl ⟨⟨hq, hc⟩, hne⟩
    · exact .inr rfl
  · rintro (⟨⟨hq, hc⟩, hne⟩ | rfl)
    · exact ⟨.inl ⟨hq, hne⟩, hc⟩
    · exact ⟨.inr rfl, hcontrol q hwritten hkey⟩

theorem applied_structures (m : Model rd) (d : Deed) :
    (d.applied m).toStructures = m.toStructures ∧ (d.applied m).chores = m.chores := by
  unfold Deed.applied
  split
  · exact ⟨rfl, rfl⟩
  · exact ⟨rfl, rfl⟩

/-- So does a change that writes the process. -/
theorem InStep.write {p : ProcessInfo} (h : InStep rd organization_id s)
    (htrace : Traceable rd s d) (hw : d.written = some p)
    (hstep : refreshStep rd organization_id s d = some s') : InStep rd organization_id s' := by
  obtain ⟨m, g⟩ := s
  obtain ⟨hpossible, rfl⟩ := refreshStep_eq_some hstep
  obtain ⟨hspelled, hcontrol, hunreferred⟩ := htrace
  have hdeleted : d.deleted = false := by
    rw [d.deleted_eq, hw]
    rfl
  obtain ⟨hs, hc⟩ := applied_structures m d
  obtain ⟨written, hget, hkey, hlisted, hname⟩ := applied_written hpossible hw hcontrol
  have hwritten := (Model.get_process_iff.mp hget).1
  have hold : ∀ q ∈ m.listed, rd.key q.name = rd.key written.name → written.name = q.name :=
    fun q hq => hname q (mem_listed.mp hq).1
  -- the process was in the graph, or nothing refers to it
  have hbefore : (∃ q ∈ m.listed, rd.key q.name = rd.key written.name) ∨
      ((∀ q ∈ m.listed, rd.key q.name ≠ rd.key written.name) ∧ g.objects ≠ [] ∧
        (∀ q ∈ m.listed, ∀ ref ∈ rd.parse_process_code q, ¬ Calls rd ref written.name) ∧
          ∀ c ∈ m.chores, written.name ∉ c.process_names) := by
    by_cases hthere : ∃ q ∈ m.listed, rd.key q.name = rd.key written.name
    · exact .inl hthere
    · refine .inr ⟨fun q hq hqkey => hthere ⟨q, hq, hqkey⟩, hunreferred ?_ written hwritten hkey⟩
      rw [Model.get_process_eq_none]
      intro q hq hqkey
      have hsame := hname q hq (hqkey.trans hkey.symm)
      refine hthere ⟨q, mem_listed.mpr ⟨hq, ?_⟩, by rw [hsame]⟩
      rw [← hsame]
      exact hcontrol written hwritten hkey
  have hstored : g.objects ≠ [] := by
    rcases hbefore with ⟨q, hq, _⟩ | ⟨_, hstored, _⟩
    · obtain ⟨o, ho, _⟩ := Graph.mem_keys.mp (h.process_mem.mpr ⟨q, hq, rfl⟩)
      exact List.ne_nil_of_mem ho
    · exact hstored
  have hfound : (("process", written.name) ∈ g.keys ∧
      rd.lower written.name = rd.lower d.target_name) ∨
        (("process", written.name) ∉ g.keys ∧
          ∀ name, ("process", name) ∈ g.keys → rd.lower name ≠ rd.lower d.target_name) := by
    rcases hbefore with ⟨q, hq, hqkey⟩ | ⟨hnone, _⟩
    · have hsame := hold q hq hqkey
      rw [hsame]
      exact .inl ⟨h.process_mem.mpr ⟨q, hq, rfl⟩, hspelled q hq (hqkey.trans hkey)⟩
    · exact .inr (h.not_mem_of_key hnone hkey)
  obtain ⟨g', hrefresh, hkeys, hnamed⟩ :=
    refresh_written organization_id h.spelled hstored hget hfound
  rw [← hdeleted] at hrefresh
  rw [_refresh_graph_of_deed hrefresh]
  obtain ⟨hobjects, hedges⟩ := extract_written organization_id m (d.applied m) hs hc hlisted
    hold (hbefore.imp_right fun hnew => hnew.2.2)
  -- the edges of the process are looked up among the same names
  have hdrawn : ∀ b t, b ≠ ("process", written.name) →
      ((b, t) ∈ (process_edges rd g.keys written).1 ↔
        (b, t) ∈ (process_edges rd (extract_nodes rd organization_id (d.applied m)).keys
          written).1) := by
    intro b t hb
    refine mem_process_edges_congr h.spelled spelled_nodes (Graph.keys_nodup _)
      (Graph.keys_nodup _) rfl (fun x hchore hx => ?_) hb
    rw [← node_iff hchore, hobjects, h.objects]
    exact (or_iff_left hx).symm
  refine ⟨fun k => ?_, fun a b t => ?_⟩
  · rw [hkeys, hobjects, h.objects]
  · rw [hnamed, hedges, h.edges]
    apply or_congr Iff.rfl
    constructor
    · rintro ⟨ha, hb, hedge⟩
      exact ⟨ha, hb, (hdrawn b t hb).mp hedge⟩
    · rintro ⟨ha, hb, hedge⟩
      exact ⟨ha, hb, (hdrawn b t hb).mpr hedge⟩

/-- A change that can be followed keeps the graph in step. -/
theorem InStep.step (h : InStep rd organization_id s) (htrace : Traceable rd s d)
    (hstep : refreshStep rd organization_id s d = some s') : InStep rd organization_id s' := by
  rcases hw : d.written with _ | p
  · exact h.delete htrace hw hstep
  · exact h.write htrace hw hstep

/-- And a new process that is referred to, or that is written to an empty graph, does not:
its condition is what it takes. -/
theorem InStep.unreferred (h : InStep rd organization_id s)
    (hcontrol : ∀ p ∈ (d.applied s.1).processes, rd.key p.name = rd.key d.target_name →
      rd.control p.name = false)
    (hstep : refreshStep rd organization_id s d = some s') (h' : InStep rd organization_id s')
    (hnew : s.1.get_process d.target_name = none) :
    ∀ p ∈ (d.applied s.1).processes, rd.key p.name = rd.key d.target_name →
      s.2.objects ≠ [] ∧
        (∀ q ∈ s.1.listed, ∀ ref ∈ rd.parse_process_code q, ¬ Calls rd ref p.name) ∧
          ∀ c ∈ s.1.chores, p.name ∉ c.process_names := by
  obtain ⟨m, g⟩ := s
  obtain ⟨hpossible, rfl⟩ := refreshStep_eq_some hstep
  intro p hp hpkey
  rcases hw : d.written with _ | content
  · have happlied : d.applied m = m.drop d.target_name := by
      unfold Deed.applied
      rw [hw]
    dsimp only at hp
    rw [happlied, Model.mem_drop] at hp
    exact absurd hpkey hp.2
  obtain ⟨written, hget, hkey, hlisted, _⟩ := applied_written hpossible hw hcontrol
  obtain rfl : p = written :=
    Option.some.inj ((Model.get_process_iff.mpr ⟨hp, hpkey⟩).symm.trans hget)
  have hdeleted : d.deleted = false := by
    rw [d.deleted_eq, hw]
    rfl
  have hnone : ∀ q ∈ m.listed, rd.key q.name ≠ rd.key p.name := by
    intro q hq hqkey
    exact Model.get_process_eq_none.mp hnew q (mem_listed.mp hq).1 (hqkey.trans hkey)
  have hpl : p ∈ (d.applied m).listed := (hlisted p).mpr (.inr rfl)
  have hnode : ("process", p.name) ∈ (extract_nodes rd organization_id (d.applied m)).keys :=
    process_mem_nodes.mpr ⟨p, hpl, rfl⟩
  obtain ⟨hfree, hlower⟩ := h.not_mem_of_key hnone hkey
  have hstored : g.objects ≠ [] := by
    intro hempty
    have hskipped : refresh_process rd organization_id (d.applied m).get_process g d.target_name
        d.deleted = .ok (g, false) := if_pos hempty
    have hmem := (h'.objects ("process", p.name)).mpr (mem_extracted.mpr (.inl hnode))
    rw [_refresh_graph_of_deed hskipped] at hmem
    exact hfree hmem
  obtain ⟨g', hrefresh, _, hnamed⟩ :=
    refresh_written organization_id h.spelled hstored hget (.inr ⟨hfree, hlower⟩)
  rw [← hdeleted] at hrefresh
  have hedges := h'.edges
  dsimp only at hedges
  rw [_refresh_graph_of_deed hrefresh] at hedges
  -- an edge into the process would have to be there before it
  have hnoedge : ∀ a t, ¬ (extract_metadata rd organization_id (d.applied m)).1.Named a
      ("process", p.name) t := by
    intro a t hedge
    rcases (hnamed a _ t).mp ((hedges a _ t).mpr hedge) with ⟨hold, _⟩ | ⟨_, hself, _⟩
    · exact hfree hold.ends.2
    · exact hself rfl
  refine ⟨hstored, fun q hq ref href hcalls => ?_, fun c hc hmem => ?_⟩
  · refine hnoedge ("process", q.name) "calls_process" (named_extracted.mpr (.inr (.inl
      ⟨q, (hlisted q).mpr (.inl ⟨hq, hnone q hq⟩), rfl, fun heq => ?_, ?_⟩)))
    · have hname : p.name = q.name := congrArg Prod.snd heq
      exact hnone q hq (by rw [hname])
    · exact (mem_process_edges_process spelled_nodes).mpr ⟨hnode, rfl, ref, href, hcalls⟩
  · have hchores := (applied_structures m d).2
    exact hnoedge ("chore", c.name) "runs_process" (named_extracted.mpr (.inr (.inr
      ⟨c, by rw [hchores]; exact hc, p.name, hmem, hnode, rfl, rfl, rfl⟩)))

end Step

/-! ## Runs -/

/-- **An extracted graph stays what an extraction would write**, in every run of changes that
can be followed. -/
theorem refreshed_in_step (rd : Reader) (organization_id : ℕ) (m : Model rd) {deeds : List Deed}
    {s : Mapped rd}
    (htrace : Run.Along (refreshStep rd organization_id) (Traceable rd)
      (m, (extract_metadata rd organization_id m).1) deeds)
    (hrun : Run.run (refreshStep rd organization_id)
      (m, (extract_metadata rd organization_id m).1) deeds = some s) :
    InStep rd organization_id s := by
  have hstart : InStep rd organization_id (m, (extract_metadata rd organization_id m).1) :=
    ⟨fun _ => Iff.rfl, fun _ _ _ => Iff.rfl⟩
  exact Run.run_invariant (fun _ _ _ h htrace hstep => h.step htrace hstep) hstart htrace hrun

/-- Names ignore case and spaces. The parser is that of the code below. -/
def plainReader : Reader where
  lower := Python.lowerAscii
  key name := String.ofList ((Python.lowerAscii name).toList.filter (· ≠ ' '))
  key_of_lower a b h := by rw [h]
  control name := name.toList.head? = some '}'
  parse_process_code info :=
    if info.prolog = "ExecuteProcess('Load');" then
      [⟨⟨"Load", "process", "calls", true⟩, "EXECUTEPROCESS"⟩]
    else []
  extract_rule_cube_references _ := []

def nightly : ProcessInfo where
  name := "Nightly"
  prolog := "ExecuteProcess('Load');"

def loadInfo : ProcessInfo where
  name := "Load"

/-- The process Nightly calls Load. -/
def nightlyLoad : Model plainReader where
  cubes := []
  hierarchy_names _ := []
  views _ := none
  subsets _ := none
  processes := [nightly, loadInfo]
  chores := []
  cube_names _ h := absurd h List.not_mem_nil
  dimension_names _ h := absurd h List.not_mem_nil
  process_names := by decide

/-- A new process that calls Load, an update of Load, a deletion of Nightly and its rollback.
Nothing calls Nightly. -/
def followed : List Deed :=
  [ .create_process { name := "Archive", prolog := "ExecuteProcess('Load');" },
    .update_process { name := "LOAD", epilog := "CellPutN(1, 'Sales', 'NA');" },
    .delete_process "nightly",
    .rollback_delete "nightly" nightly ]

theorem followed_in_step :
    ∃ s, Run.run (refreshStep plainReader 1)
      (nightlyLoad, (extract_metadata plainReader 1 nightlyLoad).1) followed = some s ∧
        InStep plainReader 1 s := by
  obtain ⟨s, hs⟩ : ∃ s, Run.run (refreshStep plainReader 1)
      (nightlyLoad, (extract_metadata plainReader 1 nightlyLoad).1) followed = some s :=
    Option.isSome_iff_exists.mp (by decide +kernel)
  exact ⟨s, hs, refreshed_in_step plainReader 1 nightlyLoad (by decide +kernel) hs⟩

/-- Load is deleted, and the deletion is rolled back. -/
def goneAndBack : List Deed := [.delete_process "Load", .rollback_delete "Load" loadInfo]

/-- The model is as it was, and the graph has lost that Nightly calls Load. -/
theorem goneAndBack_loses_call :
    ∃ s, Run.run (refreshStep plainReader 1)
      (nightlyLoad, (extract_metadata plainReader 1 nightlyLoad).1) goneAndBack = some s ∧
        s.1.processes = nightlyLoad.processes ∧
        (extract_metadata plainReader 1 s.1).1.Named ("process", "Nightly") ("process", "Load")
          "calls_process" ∧
        ¬ s.2.Named ("process", "Nightly") ("process", "Load") "calls_process" :=
  ⟨_, rfl, by decide, by decide, by decide⟩

end PaCopilot.metadata
