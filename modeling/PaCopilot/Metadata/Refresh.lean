/-
The graph of a model whose processes are changed through the change service: each change
that was executed or rolled back is followed by a refresh of the one process.

A refresh draws the edges from the process anew. The edges into it stay as they are, so
they are right as long as nothing refers to a process that is not there yet
([`Traceable`]).
-/
import PaCopilot.Metadata.Extracted
import PaCopilot.Lib.Run

set_option autoImplicit false

namespace PaCopilot.metadata

open _GraphIndex

/-! ## Changes to processes -/

namespace Model

variable {rd : Reader} (m : Model rd)

theorem get_process_iff {m : Model rd} {name : String} {p : ProcessInfo} :
    m.get_process name = some p ↔ p ∈ m.processes ∧ rd.key p.name = rd.key name := by
  constructor
  · intro h
    have hkey := List.find?_some h
    exact ⟨List.mem_of_find?_eq_some h, of_decide_eq_true hkey⟩
  · rintro ⟨hp, hkey⟩
    rcases hfind : m.get_process name with _ | found
    · exact absurd (decide_eq_true hkey) (List.find?_eq_none.mp hfind p hp)
    · have hfound := List.find?_some hfind
      have hsame : found = p := List.inj_on_of_nodup_map m.process_names
        (List.mem_of_find?_eq_some hfind) hp ((of_decide_eq_true hfound).trans hkey.symm)
      rw [hsame]

theorem get_process_eq_none {m : Model rd} {name : String} :
    m.get_process name = none ↔ ∀ p ∈ m.processes, rd.key p.name ≠ rd.key name := by
  rw [Model.get_process, List.find?_eq_none]
  simp only [decide_eq_true_eq]

/-- A process is written. TM1 keeps the name it was created with. -/
def write (p : ProcessInfo) : Model rd where
  toStructures := m.toStructures
  processes :=
    if (m.get_process p.name).isSome then
      m.processes.map fun q =>
        if rd.key q.name = rd.key p.name then { p with name := q.name } else q
    else m.processes ++ [p]
  chores := m.chores
  cube_names := m.cube_names
  dimension_names := m.dimension_names
  process_names := by
    split
    · have hnames : (m.processes.map fun q =>
          if rd.key q.name = rd.key p.name then { p with name := q.name } else q).map
            (fun q => rd.key q.name) = m.processes.map fun q => rd.key q.name := by
        rw [List.map_map]
        apply List.map_congr_left
        intro q _
        rw [Function.comp_apply]
        split
        · rfl
        · rfl
      rw [hnames]
      exact m.process_names
    · rename_i hnone
      rw [Option.not_isSome_iff_eq_none, get_process_eq_none] at hnone
      rw [List.map_append, List.nodup_append]
      refine ⟨m.process_names, List.nodup_singleton _, fun a ha b hb heq => ?_⟩
      obtain ⟨q, hq, rfl⟩ := List.mem_map.mp ha
      exact hnone q hq (heq.trans (List.mem_singleton.mp hb))

/-- A process is deleted. -/
def drop (name : String) : Model rd where
  toStructures := m.toStructures
  processes := m.processes.filter fun q => rd.key q.name ≠ rd.key name
  chores := m.chores
  cube_names := m.cube_names
  dimension_names := m.dimension_names
  process_names := ((List.filter_sublist).map _).nodup m.process_names

/-- What a model holds after a process was written: it, and all others as they were. -/
theorem write_spec (p : ProcessInfo) : ∃ written, (m.write p).get_process p.name = some written ∧
    (∀ q, q ∈ (m.write p).processes ↔
      (q ∈ m.processes ∧ rd.key q.name ≠ rd.key p.name) ∨ q = written) ∧
    ∀ q ∈ m.processes, rd.key q.name = rd.key p.name → written.name = q.name := by
  rcases hold : m.get_process p.name with _ | old
  -- no process of this name: one is added
  · have hnone := get_process_eq_none.mp hold
    have hprocesses : (m.write p).processes = m.processes ++ [p] := by
      show (if _ then _ else _) = _
      rw [hold]
      rfl
    have hmem : ∀ q, q ∈ (m.write p).processes ↔
        (q ∈ m.processes ∧ rd.key q.name ≠ rd.key p.name) ∨ q = p := by
      intro q
      rw [hprocesses, List.mem_append, List.mem_singleton]
      exact or_congr ⟨fun h => ⟨h, hnone q h⟩, fun h => h.1⟩ Iff.rfl
    exact ⟨p, get_process_iff.mpr ⟨(hmem p).mpr (.inr rfl), rfl⟩, hmem,
      fun q hq hkey => absurd hkey (hnone q hq)⟩
  -- the process of this name, as its spelling there is, gets the new code
  · obtain ⟨holdmem, holdkey⟩ := get_process_iff.mp hold
    have honly : ∀ q ∈ m.processes, rd.key q.name = rd.key p.name → q = old := by
      intro q hq hkey
      exact List.inj_on_of_nodup_map m.process_names hq holdmem (hkey.trans holdkey.symm)
    have hprocesses : (m.write p).processes = m.processes.map fun q =>
        if rd.key q.name = rd.key p.name then { p with name := q.name } else q := by
      show (if _ then _ else _) = _
      rw [hold]
      rfl
    have hmem : ∀ q, q ∈ (m.write p).processes ↔
        (q ∈ m.processes ∧ rd.key q.name ≠ rd.key p.name) ∨ q = { p with name := old.name } := by
      intro q
      rw [hprocesses, List.mem_map]
      constructor
      · rintro ⟨q', hq', rfl⟩
        by_cases hkey : rd.key q'.name = rd.key p.name
        · rw [if_pos hkey, honly q' hq' hkey]
          exact .inr rfl
        · rw [if_neg hkey]
          exact .inl ⟨hq', hkey⟩
      · rintro (⟨hq, hkey⟩ | rfl)
        · exact ⟨q, hq, if_neg hkey⟩
        · exact ⟨old, holdmem, if_pos holdkey⟩
    refine ⟨{ p with name := old.name }, get_process_iff.mpr ⟨(hmem _).mpr (.inr rfl), holdkey⟩,
      hmem, fun q hq hkey => ?_⟩
    rw [honly q hq hkey]

theorem mem_drop {name : String} {q : ProcessInfo} :
    q ∈ (m.drop name).processes ↔ q ∈ m.processes ∧ rd.key q.name ≠ rd.key name := by
  show q ∈ m.processes.filter _ ↔ _
  rw [List.mem_filter, decide_eq_true_eq]

end Model

/-- A change to the code of a process that was executed or rolled back. A rollback writes
the snapshot that was taken before the change. -/
inductive Deed
  | create_process (content : ProcessInfo)
  | update_process (content : ProcessInfo)
  | delete_process (target_name : String)
  | rollback_create (target_name : String)
  | rollback_update (target_name : String) (snapshot : ProcessInfo)
  | rollback_delete (target_name : String) (snapshot : ProcessInfo)

namespace Deed

def target_name : Deed → String
  | create_process content => content.name
  | update_process content => content.name
  | delete_process target_name => target_name
  | rollback_create target_name => target_name
  | rollback_update target_name _ => target_name
  | rollback_delete target_name _ => target_name

def change_type : Deed → ChangeType
  | create_process _ | rollback_create _ => .create_process
  | update_process _ | rollback_update _ _ => .update_process
  | delete_process _ | rollback_delete _ _ => .delete_process

/-- The process that is written, `none` where one is deleted. -/
def written : Deed → Option ProcessInfo
  | create_process content => some content
  | update_process content => some content
  | delete_process _ => none
  | rollback_create _ => none
  | rollback_update _ snapshot => some snapshot
  | rollback_delete _ snapshot => some snapshot

/-- `deleted` of `_refresh_graph`: a deletion that was executed, a creation that was rolled
back. -/
def deleted : Deed → Bool
  | delete_process _ => true
  | rollback_create _ => true
  | _ => false

variable {rd : Reader}

/-- The change service carries the change out only if the process is there, or is not. -/
def possible (m : Model rd) : Deed → Bool
  | create_process content => (m.get_process content.name).isNone
  | update_process content => (m.get_process content.name).isSome
  | delete_process target_name => (m.get_process target_name).isSome
  | rollback_create _ => true
  | rollback_update target_name snapshot =>
    (m.get_process target_name).isSome && decide (rd.key snapshot.name = rd.key target_name)
  | rollback_delete target_name snapshot =>
    (m.get_process target_name).isNone && decide (rd.key snapshot.name = rd.key target_name)

/-- What it leaves. -/
def applied (m : Model rd) (d : Deed) : Model rd :=
  match d.written with
  | some p => m.write p
  | none => m.drop d.target_name

theorem deleted_eq (d : Deed) : d.deleted = d.written.isNone := by
  cases d <;> rfl

/-- What is written has the name of the target, up to its spelling. -/
theorem key_written {d : Deed} {m : Model rd} {p : ProcessInfo} (hpossible : d.possible m = true)
    (h : d.written = some p) : rd.key p.name = rd.key d.target_name := by
  cases d with
  | create_process content =>
    cases h
    rfl
  | update_process content =>
    cases h
    rfl
  | delete_process target_name => cases h
  | rollback_create target_name => cases h
  | rollback_update target_name snapshot =>
    cases h
    exact of_decide_eq_true (Bool.and_eq_true_iff.mp hpossible).2
  | rollback_delete target_name snapshot =>
    cases h
    exact of_decide_eq_true (Bool.and_eq_true_iff.mp hpossible).2

end Deed

/-! ## The graph in step with the model -/

section Step

variable (rd : Reader) (organization_id : ℕ)

/-- A model, and the graph that is stored of it. -/
abbrev Mapped := Model rd × Graph

def refreshStep (s : Mapped rd) (d : Deed) : Option (Mapped rd) :=
  if d.possible s.1 then
    let m := d.applied s.1
    some (m, _refresh_graph rd organization_id m.get_process d.change_type d.target_name
      d.deleted s.2)
  else none

/-- The stored graph is the one an extraction would write, by name. -/
structure InStep (s : Mapped rd) : Prop where
  objects : ∀ k, k ∈ s.2.keys ↔ k ∈ (extract_metadata rd organization_id s.1).1.keys
  edges : ∀ a b t, s.2.Named a b t ↔ (extract_metadata rd organization_id s.1).1.Named a b t

/-- The change can be followed in the graph. Its target is spelled as the graph finds it; the
process is one that TM1 lists; and if it is new, the graph is not empty and nothing in the
model refers to it yet. -/
structure Traceable (s : Mapped rd) (d : Deed) : Prop where
  spelled : ∀ p ∈ s.1.listed, rd.key p.name = rd.key d.target_name →
    rd.lower p.name = rd.lower d.target_name
  listed : ∀ p ∈ (d.applied s.1).processes, rd.key p.name = rd.key d.target_name →
    rd.control p.name = false
  unreferred : s.1.get_process d.target_name = none →
    ∀ p ∈ (d.applied s.1).processes, rd.key p.name = rd.key d.target_name →
      s.2.objects ≠ [] ∧
        (∀ q ∈ s.1.listed, ∀ ref ∈ rd.parse_process_code q, ¬ Calls rd ref p.name) ∧
          ∀ c ∈ s.1.chores, p.name ∉ c.process_names

instance (s : Mapped rd) (d : Deed) : Decidable (Traceable rd s d) :=
  decidable_of_iff ((∀ p ∈ s.1.listed, rd.key p.name = rd.key d.target_name →
      rd.lower p.name = rd.lower d.target_name) ∧
    (∀ p ∈ (d.applied s.1).processes, rd.key p.name = rd.key d.target_name →
      rd.control p.name = false) ∧
    (s.1.get_process d.target_name = none →
      ∀ p ∈ (d.applied s.1).processes, rd.key p.name = rd.key d.target_name →
        s.2.objects ≠ [] ∧
          (∀ q ∈ s.1.listed, ∀ ref ∈ rd.parse_process_code q, ¬ Calls rd ref p.name) ∧
            ∀ c ∈ s.1.chores, p.name ∉ c.process_names))
    ⟨fun ⟨spelled, listed, unreferred⟩ => ⟨spelled, listed, unreferred⟩,
      fun ⟨spelled, listed, unreferred⟩ => ⟨spelled, listed, unreferred⟩⟩

end Step

/-! ## What a refresh changes -/

section Refresh

variable {rd : Reader} (organization_id : ℕ) {get_process : String → Option ProcessInfo}
  {g : Graph} {target : String} {info : ProcessInfo} {k : Key}

theorem get_by_name_of_mem (h : k ∈ g.keys) :
    ∃ o ∈ g.objects, o.key = k ∧ g.get_by_name k.1 k.2 = some o := by
  obtain ⟨o, ho, hkey⟩ := Graph.mem_keys.mp h
  rcases hfind : g.get_by_name k.1 k.2 with _ | found
  · have hnone := List.find?_eq_none.mp hfind o ho
    rw [decide_eq_true_eq] at hnone
    exact absurd (Prod.ext_iff.mp hkey) hnone
  · have hfound := List.find?_some hfind
    exact ⟨found, List.mem_of_find?_eq_some hfind, Prod.ext_iff.mpr (of_decide_eq_true hfound), rfl⟩

/-- The object of a process that is in the graph is found by any spelling of its case. -/
theorem existing_of_mem {name : String} (hspelled : Spelled rd g.keys)
    (hmem : ("process", name) ∈ g.keys) (hlower : rd.lower name = rd.lower target) :
    ∃ o ∈ g.objects, o.key = ("process", name) ∧
      ((lookup rd g.keys "process" target).bind fun k => g.get_by_name k.1 k.2) = some o := by
  obtain ⟨o, ho, hkey, hget⟩ := get_by_name_of_mem hmem
  have hlookup : lookup rd g.keys "process" target = some ("process", name) :=
    (lookup_eq_some hspelled (by decide)).mpr ⟨hmem, rfl, hlower⟩
  refine ⟨o, ho, hkey, ?_⟩
  rw [hlookup]
  exact hget

/-- Nothing is found where no process has the name. -/
theorem existing_of_not_mem (hspelled : Spelled rd g.keys)
    (hnone : ∀ name, ("process", name) ∈ g.keys → rd.lower name ≠ rd.lower target) :
    ((lookup rd g.keys "process" target).bind fun k => g.get_by_name k.1 k.2) = none := by
  rcases hlookup : lookup rd g.keys "process" target with _ | ⟨kind, name⟩
  · rfl
  · obtain ⟨hmem, rfl, hlower⟩ := (lookup_eq_some hspelled (by decide)).mp hlookup
    exact absurd hlower (hnone name hmem)

/-- A process that was written is in the graph with the edges from it that its code makes. -/
theorem refresh_written (hspelled : Spelled rd g.keys) (hstored : g.objects ≠ [])
    (hget : get_process target = some info)
    (hfound : (("process", info.name) ∈ g.keys ∧ rd.lower info.name = rd.lower target) ∨
      (("process", info.name) ∉ g.keys ∧
        ∀ name, ("process", name) ∈ g.keys → rd.lower name ≠ rd.lower target)) :
    ∃ g', refresh_process rd organization_id get_process g target false = .ok (g', true) ∧
      (∀ x, x ∈ g'.keys ↔ x ∈ g.keys ∨ x = ("process", info.name)) ∧
      ∀ a b t, g'.Named a b t ↔ (g.Named a b t ∧ a ≠ ("process", info.name)) ∨
        (a = ("process", info.name) ∧ b ≠ ("process", info.name) ∧
          (b, t) ∈ (process_edges rd g.keys info).1) := by
  unfold refresh_process
  rw [if_neg hstored]
  let drawn : Graph → Graph := add_process_edges ("process", info.name)
    (process_edges rd g.keys info).1
  rcases hfound with ⟨hmem, hlower⟩ | ⟨hnew, hnone⟩
  -- the edges from it are dropped, and drawn anew
  · obtain ⟨o, ho, hkey, hexisting⟩ := existing_of_mem hspelled hmem hlower
    have hmem' : ("process", info.name) ∈ (g.drop_outgoing o.id).keys := hmem
    have htargets : ∀ e ∈ (process_edges rd g.keys info).1, e.1 ∈ (g.drop_outgoing o.id).keys := by
      rintro ⟨b, t⟩ he
      exact process_edges_mem hspelled he
    obtain ⟨hkeys, hnamed⟩ := add_process_edges_spec hmem' htargets
    refine ⟨drawn (g.drop_outgoing o.id), ?_, fun x => ?_, fun a b t => ?_⟩
    · simp only [hexisting, hget, hkey]
      rfl
    · rw [hkeys]
      exact ⟨.inl, fun h => h.elim id fun heq => heq ▸ hmem⟩
    · rw [hnamed, Graph.named_drop_outgoing ho, hkey]
  -- it is new to the graph, so its edges are the only ones it has
  · have hmem : ("process", info.name) ∈
        (g.add_object organization_id ("process", info.name)).keys :=
      Graph.mem_keys_add_object.mpr (.inr rfl)
    have htargets : ∀ e ∈ (process_edges rd g.keys info).1,
        e.1 ∈ (g.add_object organization_id ("process", info.name)).keys := by
      rintro ⟨b, t⟩ he
      exact Graph.mem_keys_add_object.mpr (.inl (process_edges_mem hspelled he))
    obtain ⟨hkeys, hnamed⟩ := add_process_edges_spec hmem htargets
    refine ⟨drawn (g.add_object organization_id ("process", info.name)), ?_, fun x => ?_,
      fun a b t => ?_⟩
    · simp only [existing_of_not_mem hspelled hnone, hget, refuse_of_not _ hnew]
      rfl
    · rw [hkeys, Graph.mem_keys_add_object]
    · rw [hnamed, Graph.named_add_object]
      exact or_congr ⟨fun h => ⟨h, fun heq => hnew (heq ▸ h.ends.1)⟩, fun h => h.1⟩ Iff.rfl

/-- A process that was deleted leaves the graph with all its edges. -/
theorem refresh_deleted (get_process : String → Option ProcessInfo) {name : String}
    (hspelled : Spelled rd g.keys) (hmem : ("process", name) ∈ g.keys)
    (hlower : rd.lower name = rd.lower target) :
    ∃ g', refresh_process rd organization_id get_process g target true = .ok (g', true) ∧
      (∀ x, x ∈ g'.keys ↔ x ∈ g.keys ∧ x ≠ ("process", name)) ∧
      ∀ a b t, g'.Named a b t ↔
        g.Named a b t ∧ a ≠ ("process", name) ∧ b ≠ ("process", name) := by
  obtain ⟨o, ho, hkey, hexisting⟩ := existing_of_mem hspelled hmem hlower
  have hstored : g.objects ≠ [] := List.ne_nil_of_mem ho
  refine ⟨g.drop_object o.id, ?_, fun x => ?_, fun a b t => ?_⟩
  · unfold refresh_process
    rw [if_neg hstored]
    simp only [hexisting]
    rfl
  · rw [Graph.mem_keys_drop_object ho, hkey]
  · rw [Graph.named_drop_object ho, hkey]

/-- A deletion of what the graph does not hold changes nothing. -/
theorem refresh_absent (get_process : String → Option ProcessInfo) (hspelled : Spelled rd g.keys)
    (hnone : ∀ name, ("process", name) ∈ g.keys → rd.lower name ≠ rd.lower target) :
    ∃ touched,
      refresh_process rd organization_id get_process g target true = .ok (g, touched) := by
  unfold refresh_process
  by_cases hstored : g.objects = []
  · exact ⟨false, if_pos hstored⟩
  · rw [if_neg hstored]
    simp only [existing_of_not_mem hspelled hnone]
    exact ⟨true, rfl⟩

end Refresh

end PaCopilot.metadata
