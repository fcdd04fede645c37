/-
Things that are counted by the rows stored of them.

A thing may be recorded more than once. Each record makes a row, and of the rows under one key
one is stored. So the rows count each thing once exactly if all its records come under one key
and no other thing has a record under it (`countsOnce_iff`), and then there is one record of
each thing whose rows are the stored ones (`exists_counted`).
-/
import PaCopilot.Lib.Dedup

set_option autoImplicit false

namespace PaCopilot.Records

variable {σ α κ ι : Type} [DecidableEq κ] [DecidableEq ι] {key : α → κ} {rowOf : σ → α}
  {thing : σ → ι} {records : List σ} {rows : List α}

/-- A row stands for a thing: a record of it came under the key of the row. -/
def stands (key : α → κ) (rowOf : σ → α) (thing : σ → ι) (records : List σ) (i : ι) (row : α) :
    Bool :=
  records.any fun s => thing s = i && key (rowOf s) = key row

theorem stands_iff {i : ι} {row : α} : stands key rowOf thing records i row = true ↔
    ∃ s ∈ records, thing s = i ∧ key (rowOf s) = key row := by
  simp only [stands, List.any_eq_true, Bool.and_eq_true, decide_eq_true_eq]

/-- One row stands for each thing, and each row for one thing. -/
structure CountsOnce (key : α → κ) (rowOf : σ → α) (thing : σ → ι) (records : List σ)
    (rows : List α) : Prop where
  once : ∀ s ∈ records, (rows.filter (stands key rowOf thing records (thing s))).length = 1
  single : ∀ row ∈ rows, ∀ i j, stands key rowOf thing records i row = true →
    stands key rowOf thing records j row = true → i = j

/-- All records of a thing come under one key, and none of another thing does. -/
def OneKeyEach (key : α → κ) (rowOf : σ → α) (thing : σ → ι) (records : List σ) : Prop :=
  ∀ s ∈ records, ∀ t ∈ records, thing s = thing t ↔ key (rowOf s) = key (rowOf t)

/-- **The rows under the keys of the records count each thing once exactly if things and keys
are one to one.** -/
theorem countsOnce_iff (hkeys : (rows.map key).Nodup)
    (hstored : ∀ k, k ∈ rows.map key ↔ ∃ s ∈ records, key (rowOf s) = k) :
    CountsOnce key rowOf thing records rows ↔ OneKeyEach key rowOf thing records := by
  have hrow : ∀ s ∈ records, ∃ row ∈ rows, key row = key (rowOf s) := fun s hs =>
    List.mem_map.mp ((hstored _).mpr ⟨s, hs, rfl⟩)
  constructor
  · intro h s hs t ht
    obtain ⟨rowₛ, hrowₛ, hkeyₛ⟩ := hrow s hs
    obtain ⟨rowₜ, hrowₜ, hkeyₜ⟩ := hrow t ht
    have hstandsₛ : stands key rowOf thing records (thing s) rowₛ = true :=
      stands_iff.mpr ⟨s, hs, rfl, hkeyₛ.symm⟩
    constructor
    · -- both rows stand for the one thing
      intro hthing
      have hstandsₜ : stands key rowOf thing records (thing s) rowₜ = true :=
        stands_iff.mpr ⟨t, ht, hthing.symm, hkeyₜ.symm⟩
      obtain ⟨row, honly⟩ := List.length_eq_one_iff.mp (h.once s hs)
      have hmemₛ := List.mem_filter.mpr ⟨hrowₛ, hstandsₛ⟩
      have hmemₜ := List.mem_filter.mpr ⟨hrowₜ, hstandsₜ⟩
      rw [honly, List.mem_singleton] at hmemₛ hmemₜ
      rw [← hkeyₛ, ← hkeyₜ, hmemₛ, hmemₜ]
    · -- the one row stands for both things
      intro hkey
      exact h.single rowₛ hrowₛ _ _ hstandsₛ
        (stands_iff.mpr ⟨t, ht, rfl, hkey.symm.trans hkeyₛ.symm⟩)
  · intro h
    constructor
    · intro s hs
      have hkey : ∀ row ∈ rows, stands key rowOf thing records (thing s) row = true →
          key row = key (rowOf s) := by
        intro row _ hstands
        obtain ⟨t, ht, hthing, hkey⟩ := stands_iff.mp hstands
        rw [← hkey, (h t ht s hs).mp hthing]
      rw [Dedup.length_filter_of_key hkeys hkey]
      obtain ⟨row, hmem, hkeyrow⟩ := hrow s hs
      have hfound : (rows.find? fun x => key x = key (rowOf s)).isSome = true :=
        List.find?_isSome.mpr ⟨row, hmem, decide_eq_true hkeyrow⟩
      obtain ⟨found, hfound⟩ := Option.isSome_iff_exists.mp hfound
      have hfoundkey : key found = key (rowOf s) := by simpa using List.find?_some hfound
      rw [hfound, Option.any_some, if_pos (stands_iff.mpr ⟨s, hs, rfl, hfoundkey.symm⟩)]
    · intro row _ i j hi hj
      obtain ⟨s, hs, rfl, hkeyₛ⟩ := stands_iff.mp hi
      obtain ⟨t, ht, rfl, hkeyₜ⟩ := stands_iff.mp hj
      exact (h s hs t ht).mpr (hkeyₛ.trans hkeyₜ.symm)

omit [DecidableEq κ] [DecidableEq ι] in
/-- **One record of each thing**, where things and keys are one to one: the stored rows are
the rows of these. -/
theorem exists_counted (h : OneKeyEach key rowOf thing records) (hkeys : (rows.map key).Nodup)
    (hstored : ∀ k, k ∈ rows.map key ↔ ∃ s ∈ records, key (rowOf s) = k)
    (hrows : ∀ row ∈ rows, ∃ s ∈ records, rowOf s = row) :
    ∃ counted : List σ, counted.map rowOf = rows ∧ (∀ s ∈ counted, s ∈ records) ∧
      (counted.map thing).Nodup ∧ ∀ s ∈ records, thing s ∈ counted.map thing := by
  obtain ⟨counted, hcounted, hrecords⟩ :
      ∃ counted : List σ, counted.map rowOf = rows ∧ ∀ s ∈ counted, s ∈ records := by
    clear hkeys hstored
    induction rows with
    | nil => exact ⟨[], rfl, fun s hs => absurd hs List.not_mem_nil⟩
    | cons row rows ih =>
      obtain ⟨s, hs, hrow⟩ := hrows row List.mem_cons_self
      obtain ⟨counted, hcounted, hrecords⟩ := ih fun r hr => hrows r (List.mem_cons_of_mem _ hr)
      refine ⟨s :: counted, by rw [List.map_cons, hrow, hcounted], fun t ht => ?_⟩
      exact (List.mem_cons.mp ht).elim (fun heq => heq ▸ hs) (hrecords t)
  have hnodup : (counted.map fun s => key (rowOf s)).Nodup := by
    rw [← hcounted, List.map_map] at hkeys
    exact hkeys
  refine ⟨counted, hcounted, hrecords, ?_, ?_⟩
  · apply List.Nodup.map_on _ hnodup.of_map
    intro s hs t ht hthing
    exact List.inj_on_of_nodup_map hnodup hs ht
      ((h s (hrecords s hs) t (hrecords t ht)).mp hthing)
  · intro s hs
    obtain ⟨row, hrow, hkey⟩ := List.mem_map.mp ((hstored _).mpr ⟨s, hs, rfl⟩)
    rw [← hcounted] at hrow
    obtain ⟨t, ht, rfl⟩ := List.mem_map.mp hrow
    exact List.mem_map.mpr ⟨t, ht, (h t (hrecords t ht) s hs).mpr hkey⟩

end PaCopilot.Records
