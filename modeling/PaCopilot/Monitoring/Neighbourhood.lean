/-
What an incident may have to do with, `_neighbourhood` of `services/incident_service.py`.

From a cube or a process that was reported the dependency map leads to the cubes that are
involved and to the processes that write them. TM1 takes names for the same whatever their
case and spaces; the code compares them as texts. [`Involved`] and [`Writes`] are about names
under any comparison, and the code computes them for the identity.
-/
import PaCopilot.Metadata.Refresh
import PaCopilot.Lib.Dedup
import Mathlib.Data.List.Dedup
import Mathlib.Data.List.Sort

set_option autoImplicit false

namespace PaCopilot.incident_service

open metadata Dedup

/-! ## The code -/

/-- What was reported: a cube, a process, or both. A blank name is none. -/
structure Report where
  cube : Option String
  process : Option String
  deriving DecidableEq

structure Area where
  mapped : Bool
  cubes : List String
  rule_sources : List String
  writers : List (String × List String)
  reported_process_writes : List String
  deriving DecidableEq

section Edges

variable (g : Graph)

/-- `edges_where(kind, frm=…)`, by the names of the other ends. -/
def targets (kind : String) (k : Key) : List String :=
  match g.get_by_name k.1 k.2 with
  | none => []
  | some o => (g.relationships.filter fun e =>
      e.relationship_type = kind && e.from_object_id = o.id).filterMap fun e =>
        (g.get_by_id e.to_object_id).map TM1Object.name

/-- `edges_where(kind, to=…)`, by the names of the other ends. -/
def origins (kind : String) (k : Key) : List String :=
  match g.get_by_name k.1 k.2 with
  | none => []
  | some o => (g.relationships.filter fun e =>
      e.relationship_type = kind && e.to_object_id = o.id).filterMap fun e =>
        (g.get_by_id e.from_object_id).map TM1Object.name

def reported_writes (process : Option String) : List String :=
  (process.map fun name => targets g "updates_cube" ("process", name)).getD []

/-- The cubes of the report. -/
def cubesOf (report : Report) : List String :=
  match report.cube with
  | some cube => [cube]
  | none => reported_writes g report.process

/-- `rule_sources`: the other cubes that the rules of these read. -/
def ruleSources (cubes : List String) : List String :=
  cubes.flatMap fun name => (targets g "references_cube" ("cube", name)).filter (· ∉ cubes)

/-- `writers`: the processes that write a cube, for each cube that is mapped. -/
def writersOf (names : List String) : List (String × List String) :=
  ((insertAll id [] names).filter fun name => (g.get_by_name "cube" name).isSome).map fun name =>
    (name, (origins g "updates_cube" ("cube", name)).dedup.insertionSort fun a b => a ≤ b)

def _neighbourhood (report : Report) : Area :=
  -- nothing was extracted: the writers are unknown
  if g.objects = [] then ⟨false, report.cube.toList, [], [], []⟩
  else
    let cubes := cubesOf g report
    let rule_sources := ruleSources g cubes
    { mapped := true
      cubes := cubes
      rule_sources := rule_sources.dedup.insertionSort fun a b => a ≤ b
      writers := writersOf g (cubes ++ rule_sources)
      reported_process_writes := reported_writes g report.process }

end Edges

/-! ## What is meant -/

section Meant

/- Two names are the same when their keys are equal. -/
variable (key : String → String) (g : Graph) (report : Report)

/-- The reported cube, or one that the reported process writes. -/
def Reported (name : String) : Prop :=
  match report.cube with
  | some cube => key cube = key name
  | none => ∃ process, report.process = some process ∧
      ∃ a b, g.Named a b "updates_cube" ∧ a.1 = "process" ∧ key a.2 = key process ∧
        key b.2 = key name

/-- A cube that was reported, or that the rules of one of these read. -/
def Involved (name : String) : Prop :=
  Reported key g report name ∨ ∃ a b, g.Named a b "references_cube" ∧ a.1 = "cube" ∧
    Reported key g report a.2 ∧ key b.2 = key name

/-- A process that writes a cube that is involved. -/
def Writes (name : String) : Prop :=
  ∃ a b, g.Named a b "updates_cube" ∧ b.1 = "cube" ∧ Involved key g report b.2 ∧
    key a.2 = key name

end Meant

/-! ## The code compares texts -/

/-- What is kept once of a list is all of it. -/
theorem mem_insertAll_id {name : String} {names : List String} (h : name ∈ names) :
    name ∈ insertAll id [] names := by
  have hkeys : name ∈ (insertAll id [] names).map id ↔
      name ∈ ([] : List String).map id ∨ name ∈ names.map id := mem_keys_insertAll
  simp only [List.map_id] at hkeys
  exact hkeys.mpr (.inr h)

section Exact

variable {g : Graph} {report : Report} {name kind : String} {k : Key}

theorem get_by_name_iff {o : TM1Object} :
    g.get_by_name k.1 k.2 = some o ↔ o ∈ g.objects ∧ o.key = k := by
  constructor
  · intro h
    have hfound := List.find?_some h
    rw [decide_eq_true_eq] at hfound
    exact ⟨List.mem_of_find?_eq_some h, Prod.ext_iff.mpr hfound⟩
  · rintro ⟨hmem, hkey⟩
    obtain ⟨found, hfound, hsame, hget⟩ := get_by_name_of_mem (Graph.mem_keys.mpr ⟨o, hmem, hkey⟩)
    rw [hget, Graph.object_eq hfound hmem (hsame.trans hkey.symm)]

theorem mem_targets : name ∈ targets g kind k ↔ ∃ b, g.Named k b kind ∧ b.2 = name := by
  unfold targets
  constructor
  · intro h
    rcases hget : g.get_by_name k.1 k.2 with _ | o
    · simp [hget] at h
    · simp only [hget, List.mem_filterMap, List.mem_filter, Bool.and_eq_true, decide_eq_true_eq,
        Option.map_eq_some_iff] at h
      obtain ⟨e, ⟨he, hkind, hfrom⟩, p, hp, hname⟩ := h
      obtain ⟨hpmem, hpid⟩ := get_by_id_iff.mp hp
      obtain ⟨homem, hokey⟩ := get_by_name_iff.mp hget
      exact ⟨p.key, ⟨e, he, o, homem, p, hpmem, hfrom.symm, hpid, hokey, rfl, hkind⟩, hname⟩
  · rintro ⟨b, ⟨e, he, o, ho, p, hp, hfrom, hto, hokey, hpkey, hkind⟩, hname⟩
    rw [get_by_name_iff.mpr ⟨ho, hokey⟩]
    simp only [List.mem_filterMap, List.mem_filter, Bool.and_eq_true, decide_eq_true_eq,
      Option.map_eq_some_iff]
    refine ⟨e, ⟨he, hkind, hfrom.symm⟩, p, get_by_id_iff.mpr ⟨hp, hto⟩, ?_⟩
    rw [← hname, ← hpkey]
    rfl

theorem mem_origins : name ∈ origins g kind k ↔ ∃ a, g.Named a k kind ∧ a.2 = name := by
  unfold origins
  constructor
  · intro h
    rcases hget : g.get_by_name k.1 k.2 with _ | o
    · simp [hget] at h
    · simp only [hget, List.mem_filterMap, List.mem_filter, Bool.and_eq_true, decide_eq_true_eq,
        Option.map_eq_some_iff] at h
      obtain ⟨e, ⟨he, hkind, hto⟩, p, hp, hname⟩ := h
      obtain ⟨hpmem, hpid⟩ := get_by_id_iff.mp hp
      obtain ⟨homem, hokey⟩ := get_by_name_iff.mp hget
      exact ⟨p.key, ⟨e, he, p, hpmem, o, homem, hpid, hto.symm, rfl, hokey, hkind⟩, hname⟩
  · rintro ⟨a, ⟨e, he, p, hp, o, ho, hfrom, hto, hpkey, hokey, hkind⟩, hname⟩
    rw [get_by_name_iff.mpr ⟨ho, hokey⟩]
    simp only [List.mem_filterMap, List.mem_filter, Bool.and_eq_true, decide_eq_true_eq,
      Option.map_eq_some_iff]
    refine ⟨e, ⟨he, hkind, hto.symm⟩, p, get_by_id_iff.mpr ⟨hp, hfrom⟩, ?_⟩
    rw [← hname, ← hpkey]
    rfl

/-- A map without objects has no edges. -/
theorem not_named (h : g.objects = []) (a b : Key) : ¬ g.Named a b kind := by
  rintro ⟨-, -, o, ho, -⟩
  rw [h] at ho
  exact absurd ho List.not_mem_nil

theorem mem_cubesOf : name ∈ cubesOf g report ↔ Reported id g report name := by
  unfold cubesOf Reported reported_writes
  rcases hcube : report.cube with _ | cube
  · rcases hprocess : report.process with _ | process
    · simp
    · simp only [Option.map_some, Option.getD_some, mem_targets, Option.some.injEq, id]
      constructor
      · rintro ⟨b, hnamed, hname⟩
        exact ⟨process, rfl, ("process", process), b, hnamed, rfl, rfl, hname⟩
      · rintro ⟨process', rfl, a, b, hnamed, htype, hprocess', hname⟩
        refine ⟨b, ?_, hname⟩
        rwa [← htype, ← hprocess']
  · simp only [List.mem_singleton, id]
    exact eq_comm

theorem mem_cubesOf_or_ruleSources : (name ∈ cubesOf g report ∨
    name ∈ ruleSources g (cubesOf g report)) ↔ Involved id g report name := by
  have hsources : name ∈ ruleSources g (cubesOf g report) ↔
      (∃ a b, g.Named a b "references_cube" ∧ a.1 = "cube" ∧ Reported id g report a.2 ∧
        b.2 = name) ∧ name ∉ cubesOf g report := by
    simp only [ruleSources, List.mem_flatMap, List.mem_filter, mem_targets, decide_eq_true_eq]
    constructor
    · rintro ⟨cube, hcube, ⟨b, hnamed, hname⟩, hnot⟩
      exact ⟨⟨("cube", cube), b, hnamed, rfl, mem_cubesOf.mp hcube, hname⟩, hnot⟩
    · rintro ⟨⟨a, b, hnamed, htype, hcube, hname⟩, hnot⟩
      refine ⟨a.2, mem_cubesOf.mpr hcube, ⟨b, ?_, hname⟩, hnot⟩
      rwa [← htype]
  rw [hsources, Involved, mem_cubesOf]
  simp only [id]
  tauto

/-- **The cubes of the area are those that are involved, name for name.** -/
theorem mem_area_cubes : (name ∈ (_neighbourhood g report).cubes ∨
    name ∈ (_neighbourhood g report).rule_sources) ↔ Involved id g report name := by
  unfold _neighbourhood
  by_cases hempty : g.objects = []
  · rw [if_pos hempty]
    unfold Involved Reported
    rcases report.cube with _ | cube
    · simp [not_named hempty]
    · simp [not_named hempty, eq_comm]
  · rw [if_neg hempty]
    dsimp only
    rw [List.mem_insertionSort, List.mem_dedup]
    exact mem_cubesOf_or_ruleSources

/-- **The writers of the area are the processes that write a cube that is involved, name for
name.** -/
theorem mem_area_writers : (∃ entry ∈ (_neighbourhood g report).writers, name ∈ entry.2) ↔
    Writes id g report name := by
  unfold _neighbourhood
  by_cases hempty : g.objects = []
  · rw [if_pos hempty]
    simp [Writes, not_named hempty]
  · rw [if_neg hempty]
    simp only [writersOf, List.mem_map, List.mem_filter]
    constructor
    · rintro ⟨entry, ⟨cube, ⟨hcube, -⟩, rfl⟩, hname⟩
      rw [List.mem_insertionSort, List.mem_dedup, mem_origins] at hname
      obtain ⟨a, hnamed, hname⟩ := hname
      have hmem : cube ∈ cubesOf g report ++ ruleSources g (cubesOf g report) := by
        rcases mem_or_mem_of_mem_insertAll hcube with hnil | hmem
        · exact absurd hnil List.not_mem_nil
        · exact hmem
      exact ⟨a, ("cube", cube), hnamed, rfl,
        mem_cubesOf_or_ruleSources.mp (List.mem_append.mp hmem), hname⟩
    · rintro ⟨a, b, hnamed, htype, hinvolved, hname⟩
      have hmem : b.2 ∈ cubesOf g report ++ ruleSources g (cubesOf g report) :=
        List.mem_append.mpr (mem_cubesOf_or_ruleSources.mpr hinvolved)
      have hcube : ("cube", b.2) = b := by rw [← htype]
      refine ⟨_, ⟨b.2, ⟨?_, ?_⟩, rfl⟩, ?_⟩
      · exact mem_insertAll_id hmem
      · obtain ⟨o, -, -, hget⟩ := get_by_name_of_mem hnamed.ends.2
        rw [← htype, hget]
        rfl
      · rw [List.mem_insertionSort, List.mem_dedup, mem_origins, hcube]
        exact ⟨a, hnamed, hname⟩

end Exact

end PaCopilot.incident_service
