/-
What a process refers to, found among the names of a graph.

The names of one type differ by more than case, so a name stands for one object whatever the
order of the names is ([`lookup_eq_some`]). Of the edges of a process only the calls depend
on which processes there are ([`mem_process_edges_congr`], [`mem_process_edges_process`]).
-/
import PaCopilot.Metadata.Extractor

set_option autoImplicit false

namespace PaCopilot.metadata

open _GraphIndex

section Index

variable {rd : Reader} {index index' : List Key} {kind name t : String} {k b : Key}
  {info : ProcessInfo} {ref : ObjectRef}

/-- The types whose objects are found by lower-case name. -/
def resolved : List String := ["cube", "dimension", "process"]

/-- No two names of such a type differ in case only. -/
def Spelled (rd : Reader) (index : List Key) : Prop :=
  ∀ a ∈ index, ∀ b ∈ index, a.1 ∈ resolved → a.1 = b.1 → rd.lower a.2 = rd.lower b.2 → a = b

/-- Both have the same names, but for one, and for the chores. -/
def SameBut (k : Key) (index index' : List Key) : Prop :=
  ∀ x : Key, x.1 ≠ "chore" → x ≠ k → (x ∈ index ↔ x ∈ index')

/-- The reference is a call of the process by its name. -/
structure Calls (rd : Reader) (ref : ObjectRef) (name : String) : Prop where
  literal : ref.literal = true
  kind : ref.kind = "process"
  access : ref.access = "calls"
  name : rd.lower name = rd.lower ref.name

instance (rd : Reader) (ref : ObjectRef) (name : String) : Decidable (Calls rd ref name) :=
  decidable_of_iff (ref.literal = true ∧ ref.kind = "process" ∧ ref.access = "calls" ∧
      rd.lower name = rd.lower ref.name)
    ⟨fun ⟨literal, kind, access, name⟩ => ⟨literal, kind, access, name⟩,
      fun ⟨literal, kind, access, name⟩ => ⟨literal, kind, access, name⟩⟩

theorem get_eq_some : _GraphIndex.get index kind name = some k ↔ k ∈ index ∧ k = (kind, name) := by
  unfold _GraphIndex.get
  by_cases hmem : (kind, name) ∈ index
  · rw [if_pos hmem, Option.some.injEq]
    exact ⟨fun h => ⟨h ▸ hmem, h.symm⟩, fun h => h.2.symm⟩
  · rw [if_neg hmem]
    refine iff_of_false (fun h => ?_) fun h => hmem (h.2 ▸ h.1)
    cases h

theorem lookup_eq_some (h : Spelled rd index) (hkind : kind ∈ resolved) :
    lookup rd index kind name = some k ↔
      k ∈ index ∧ k.1 = kind ∧ rd.lower k.2 = rd.lower name := by
  unfold lookup
  rcases hget : _GraphIndex.get index kind name with _ | exact
  · rw [Option.none_or]
    constructor
    · intro hfind
      have hlower := List.find?_some hfind
      exact ⟨List.mem_reverse.mp (List.mem_of_find?_eq_some hfind), of_decide_eq_true hlower⟩
    · rintro ⟨hk, hkkind, hlower⟩
      rcases hfind : index.reverse.find? fun k => k.1 = kind ∧ rd.lower k.2 = rd.lower name with
        _ | found
      · have hnone := List.find?_eq_none.mp hfind k (List.mem_reverse.mpr hk)
        exact absurd (decide_eq_true ⟨hkkind, hlower⟩) hnone
      · have hmem := List.mem_reverse.mp (List.mem_of_find?_eq_some hfind)
        have hfound := List.find?_some hfind
        obtain ⟨hfkind, hflower⟩ := of_decide_eq_true hfound
        have hsame : found = k := h found hmem k hk (by rw [hfkind]; exact hkind)
          (hfkind.trans hkkind.symm) (hflower.trans hlower.symm)
        rw [← hsame]
        exact hfind
  · obtain ⟨hmem, rfl⟩ := get_eq_some.mp hget
    rw [Option.some_or, Option.some.injEq]
    constructor
    · rintro rfl
      exact ⟨hmem, rfl, rfl⟩
    · rintro ⟨hk, hkkind, hlower⟩
      exact h _ hmem k hk hkind hkkind.symm hlower.symm

theorem lookup_congr (h : Spelled rd index) (h' : Spelled rd index') (hkind : kind ∈ resolved)
    (hsame : ∀ n, (kind, n) ∈ index ↔ (kind, n) ∈ index') :
    lookup rd index kind name = lookup rd index' kind name := by
  apply Option.ext
  rintro ⟨k, n⟩
  rw [lookup_eq_some h hkind, lookup_eq_some h' hkind]
  constructor
  · rintro ⟨hmem, rfl, hlower⟩
    exact ⟨(hsame n).mp hmem, rfl, hlower⟩
  · rintro ⟨hmem, rfl, hlower⟩
    exact ⟨(hsame n).mpr hmem, rfl, hlower⟩

theorem get_congr (hsame : ∀ n, (kind, n) ∈ index ↔ (kind, n) ∈ index') :
    _GraphIndex.get index kind name = _GraphIndex.get index' kind name := by
  unfold _GraphIndex.get
  by_cases hmem : (kind, name) ∈ index
  · rw [if_pos hmem, if_pos ((hsame name).mp hmem)]
  · rw [if_neg hmem, if_neg fun h => hmem ((hsame name).mpr h)]

/-- A short name stands for the one name it is short for. -/
theorem by_short_name_eq_some : by_short_name rd index kind name = some k ↔
    (index.filter fun k => k.1 = kind ∧ rd.lower (short k.2) = rd.lower name) = [k] := by
  unfold by_short_name
  split
  · rename_i only hfilter
    rw [hfilter, Option.some.injEq, List.singleton_inj]
  · rename_i hmany
    refine iff_of_false (fun h => ?_) fun h => hmany k h
    cases h

/-- So it stands for the same whatever the order of the names is. -/
theorem by_short_name_congr (h : index.Nodup) (h' : index'.Nodup)
    (hsame : ∀ n, (kind, n) ∈ index ↔ (kind, n) ∈ index') :
    by_short_name rd index kind name = by_short_name rd index' kind name := by
  have hperm : (index.filter fun k =>
      k.1 = kind ∧ rd.lower (short k.2) = rd.lower name).Perm
        (index'.filter fun k => k.1 = kind ∧ rd.lower (short k.2) = rd.lower name) := by
    refine (List.perm_ext_iff_of_nodup (h.filter _) (h'.filter _)).mpr ?_
    rintro ⟨k, n⟩
    rw [List.mem_filter, List.mem_filter, decide_eq_true_eq]
    constructor
    · rintro ⟨hmem, rfl, hshort⟩
      exact ⟨(hsame n).mp hmem, rfl, hshort⟩
    · rintro ⟨hmem, rfl, hshort⟩
      exact ⟨(hsame n).mpr hmem, rfl, hshort⟩
  apply Option.ext
  intro k
  rw [by_short_name_eq_some, by_short_name_eq_some]
  constructor
  · intro hone
    rw [hone] at hperm
    exact (List.singleton_perm.mp hperm).symm
  · intro hone
    rw [hone] at hperm
    exact List.perm_singleton.mp hperm

theorem by_short_name_kind (h : by_short_name rd index kind name = some k) :
    k ∈ index ∧ k.1 = kind := by
  have hmem : k ∈ index.filter fun k => k.1 = kind ∧ rd.lower (short k.2) = rd.lower name := by
    rw [by_short_name_eq_some.mp h]
    exact List.mem_cons_self
  obtain ⟨hindex, hcond⟩ := List.mem_filter.mp hmem
  exact ⟨hindex, (of_decide_eq_true hcond).1⟩

/-! ## The edges of a process -/

/-- Apart from one process, the names of the other kinds are the same. -/
theorem SameBut.of_kind {k : Key} (h : SameBut k index index') (hk : k.1 = "process")
    (hchore : kind ≠ "chore") (hprocess : kind ≠ "process") (n : String) :
    (kind, n) ∈ index ↔ (kind, n) ∈ index' := by
  apply h _ hchore
  intro heq
  rw [← heq] at hk
  exact hprocess hk

/-- The edges of the data source do not depend on the processes. -/
theorem datasource_edges_congr {k : Key} (h : Spelled rd index) (h' : Spelled rd index')
    (hk : k.1 = "process") (hsame : SameBut k index index') :
    datasource_edges rd index info = datasource_edges rd index' info := by
  unfold datasource_edges
  rw [lookup_congr h h' (by decide) (hsame.of_kind hk (by decide) (by decide))]
  by_cases hview : info.datasource_type = "TM1CubeView"
  · rw [if_pos hview, if_pos hview]
    rcases lookup rd index' "cube" info.datasource_name with _ | cube
    · rfl
    · dsimp only
      rw [get_congr (hsame.of_kind hk (by decide) (by decide))]
  · rw [if_neg hview, if_neg hview]

theorem datasource_edges_target (hspelled : Spelled rd index)
    (h : (b, t) ∈ datasource_edges rd index info) :
    b ∈ index ∧ (b.1 = "cube" ∨ b.1 = "view") := by
  unfold datasource_edges at h
  split at h
  · split at h
    · exact absurd h List.not_mem_nil
    · rename_i cube hcube
      obtain ⟨hmem, hkind, _⟩ := (lookup_eq_some hspelled (by decide)).mp hcube
      rcases List.mem_cons.mp h with hhead | hview
      · cases hhead
        exact ⟨hmem, .inl hkind⟩
      · split at hview
        · exact absurd hview List.not_mem_nil
        · obtain ⟨v, hv, heq⟩ := Option.map_eq_some_iff.mp (Option.mem_toList.mp hview)
          cases heq
          obtain ⟨hvmem, rfl⟩ := get_eq_some.mp hv
          exact ⟨hvmem, .inr rfl⟩
  · exact absurd h List.not_mem_nil

/-- Apart from one process, a reference finds the same. -/
theorem reference_edge_congr (h : Spelled rd index) (h' : Spelled rd index')
    (hnodup : index.Nodup) (hnodup' : index'.Nodup) (hk : k.1 = "process")
    (hsame : SameBut k index index') (hb : b ≠ k) :
    reference_edge rd index ref = some (b, t) ↔ reference_edge rd index' ref = some (b, t) := by
  unfold reference_edge
  by_cases hliteral : ref.literal = false
  · rw [if_pos hliteral, if_pos hliteral]
  rw [if_neg hliteral, if_neg hliteral]
  by_cases hcube : ref.kind = "cube" ∧ (ref.access = "write" ∨ ref.access = "read")
  · rw [if_pos hcube, if_pos hcube, lookup_congr h h' (by decide) (hsame.of_kind hk (by decide) (by decide))]
  rw [if_neg hcube, if_neg hcube]
  by_cases hprocess : ref.kind = "process" ∧ ref.access = "calls"
  · rw [if_pos hprocess, if_pos hprocess, Option.map_eq_some_iff, Option.map_eq_some_iff]
    -- the one process is not what is found
    have hfound : ∀ {target : Key}, (target, "calls_process") = (b, t) →
        (lookup rd index "process" ref.name = some target ↔
          lookup rd index' "process" ref.name = some target) := by
      intro target heq
      cases heq
      rw [lookup_eq_some h (by decide), lookup_eq_some h' (by decide)]
      have hchore : b.1 = "process" → b.1 ≠ "chore" := fun heq => by rw [heq]; decide
      constructor
      · rintro ⟨hmem, hb1, hlower⟩
        exact ⟨(hsame b (hchore hb1) hb).mp hmem, hb1, hlower⟩
      · rintro ⟨hmem, hb1, hlower⟩
        exact ⟨(hsame b (hchore hb1) hb).mpr hmem, hb1, hlower⟩
    constructor
    · rintro ⟨target, hlookup, heq⟩
      exact ⟨target, (hfound heq).mp hlookup, heq⟩
    · rintro ⟨target, hlookup, heq⟩
      exact ⟨target, (hfound heq).mpr hlookup, heq⟩
  rw [if_neg hprocess, if_neg hprocess]
  by_cases hdimension : ref.kind = "dimension"
  · rw [if_pos hdimension, if_pos hdimension,
      lookup_congr h h' (by decide) (hsame.of_kind hk (by decide) (by decide))]
  rw [if_neg hdimension, if_neg hdimension]
  by_cases hshort : ref.kind = "view" ∨ ref.kind = "subset"
  · have hplain : ref.kind ≠ "chore" ∧ ref.kind ≠ "process" := by
      rcases hshort with heq | heq
      · rw [heq]
        decide
      · rw [heq]
        decide
    rw [if_pos hshort, if_pos hshort,
      by_short_name_congr hnodup hnodup' (hsame.of_kind hk hplain.1 hplain.2)]
  · rw [if_neg hshort, if_neg hshort]

/-- What a reference finds is there, and is a process only if it is a call. -/
theorem reference_edge_target (hspelled : Spelled rd index)
    (h : reference_edge rd index ref = some (b, t)) :
    b ∈ index ∧ (b.1 = "process" ∧ Calls rd ref b.2 ∧ t = "calls_process" ∨
      b.1 ∈ ["cube", "dimension", "view", "subset"]) := by
  unfold reference_edge at h
  by_cases hliteral : ref.literal = false
  · rw [if_pos hliteral] at h
    cases h
  rw [if_neg hliteral] at h
  -- the branches in the order in which the code tries them
  by_cases hcube : ref.kind = "cube" ∧ (ref.access = "write" ∨ ref.access = "read")
  · rw [if_pos hcube] at h
    obtain ⟨target, hlookup, heq⟩ := Option.map_eq_some_iff.mp h
    cases heq
    obtain ⟨hmem, hkind, _⟩ := (lookup_eq_some hspelled (by decide)).mp hlookup
    refine ⟨hmem, .inr ?_⟩
    rw [hkind]
    decide
  rw [if_neg hcube] at h
  by_cases hprocess : ref.kind = "process" ∧ ref.access = "calls"
  · rw [if_pos hprocess] at h
    obtain ⟨target, hlookup, heq⟩ := Option.map_eq_some_iff.mp h
    cases heq
    obtain ⟨hmem, hkind, hlower⟩ := (lookup_eq_some hspelled (by decide)).mp hlookup
    have hcalls : ref.literal = true := Bool.eq_true_of_not_eq_false hliteral
    exact ⟨hmem, .inl ⟨hkind, ⟨hcalls, hprocess.1, hprocess.2, hlower⟩, rfl⟩⟩
  rw [if_neg hprocess] at h
  by_cases hdimension : ref.kind = "dimension"
  · rw [if_pos hdimension] at h
    obtain ⟨target, hlookup, heq⟩ := Option.map_eq_some_iff.mp h
    cases heq
    obtain ⟨hmem, hkind, _⟩ := (lookup_eq_some hspelled (by decide)).mp hlookup
    refine ⟨hmem, .inr ?_⟩
    rw [hkind]
    decide
  rw [if_neg hdimension] at h
  by_cases hshort : ref.kind = "view" ∨ ref.kind = "subset"
  · rw [if_pos hshort] at h
    obtain ⟨target, hfound, heq⟩ := Option.map_eq_some_iff.mp h
    cases heq
    -- views and subsets are found by the end of their name, not by all of it
    obtain ⟨hmem, hkind⟩ := by_short_name_kind hfound
    refine ⟨hmem, .inr ?_⟩
    rw [hkind]
    rcases hshort with heq | heq
    · rw [heq]
      decide
    · rw [heq]
      decide
  · rw [if_neg hshort] at h
    cases h

/-- A call finds its process. -/
theorem reference_edge_of_calls (hspelled : Spelled rd index) (hcalls : Calls rd ref name)
    (hmem : ("process", name) ∈ index) :
    reference_edge rd index ref = some (("process", name), "calls_process") := by
  have hlookup : lookup rd index "process" ref.name = some ("process", name) :=
    (lookup_eq_some hspelled (by decide)).mpr ⟨hmem, rfl, hcalls.name⟩
  have hliteral : ¬ ref.literal = false := by
    rw [hcalls.literal]
    decide
  have hcube : ¬ (ref.kind = "cube" ∧ (ref.access = "write" ∨ ref.access = "read")) := by
    rw [hcalls.kind]
    exact fun h => absurd h.1 (by decide)
  rw [reference_edge, if_neg hliteral, if_neg hcube, if_pos ⟨hcalls.kind, hcalls.access⟩, hlookup]
  rfl

theorem mem_process_edges : (b, t) ∈ (process_edges rd index info).1 ↔
    (b, t) ∈ datasource_edges rd index info ∨
      ∃ ref ∈ rd.parse_process_code info, reference_edge rd index ref = some (b, t) := by
  rw [process_edges, List.mem_append, List.mem_filterMap]

/-- Apart from one process, the edges are the same. -/
theorem mem_process_edges_congr (h : Spelled rd index) (h' : Spelled rd index')
    (hnodup : index.Nodup) (hnodup' : index'.Nodup) (hk : k.1 = "process")
    (hsame : SameBut k index index') (hb : b ≠ k) :
    (b, t) ∈ (process_edges rd index info).1 ↔ (b, t) ∈ (process_edges rd index' info).1 := by
  rw [mem_process_edges, mem_process_edges, datasource_edges_congr h h' hk hsame]
  apply or_congr Iff.rfl
  constructor
  · rintro ⟨ref, href, hedge⟩
    exact ⟨ref, href, (reference_edge_congr h h' hnodup hnodup' hk hsame hb).mp hedge⟩
  · rintro ⟨ref, href, hedge⟩
    exact ⟨ref, href, (reference_edge_congr h h' hnodup hnodup' hk hsame hb).mpr hedge⟩

theorem process_edges_mem (hspelled : Spelled rd index)
    (h : (b, t) ∈ (process_edges rd index info).1) : b ∈ index := by
  rcases mem_process_edges.mp h with hsource | ⟨ref, _, hedge⟩
  · exact (datasource_edges_target hspelled hsource).1
  · exact (reference_edge_target hspelled hedge).1

/-- The edges to a process are calls of it. -/
theorem mem_process_edges_process (hspelled : Spelled rd index) :
    (("process", name), t) ∈ (process_edges rd index info).1 ↔
      ("process", name) ∈ index ∧ t = "calls_process" ∧
        ∃ ref ∈ rd.parse_process_code info, Calls rd ref name := by
  constructor
  · intro h
    refine ⟨process_edges_mem hspelled h, ?_⟩
    rcases mem_process_edges.mp h with hsource | ⟨ref, href, hedge⟩
    · have hkinds : "process" = "cube" ∨ "process" = "view" :=
        (datasource_edges_target hspelled hsource).2
      exact absurd hkinds (by decide)
    · rcases (reference_edge_target hspelled hedge).2 with ⟨_, hcalls, ht⟩ | hkind
      · exact ⟨ht, ref, href, hcalls⟩
      · exact absurd hkind (by simp)
  · rintro ⟨hmem, rfl, ref, href, hcalls⟩
    exact mem_process_edges.mpr (.inr ⟨ref, href, reference_edge_of_calls hspelled hcalls hmem⟩)

end Index

end PaCopilot.metadata
