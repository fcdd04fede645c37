/-
Rows under a unique key, inserted with `ON CONFLICT DO NOTHING`.

The row that is stored under a key is the first one that was inserted under it
([`find_insertAll`]); whatever comes later is dropped without a trace.
-/
import Mathlib.Data.List.Nodup
import Mathlib.Tactic.Common

set_option autoImplicit false

namespace PaCopilot.Dedup

variable {α κ : Type} [DecidableEq κ] {key : α → κ} {table rows : List α} {row : α} {k : κ}

/-- The table after one row. -/
def insertOne (key : α → κ) (table : List α) (row : α) : List α :=
  if key row ∈ table.map key then table else table ++ [row]

/-- The table after rows in their order. -/
def insertAll (key : α → κ) (table rows : List α) : List α := rows.foldl (insertOne key) table

@[simp] theorem insertAll_nil : insertAll key table [] = table := rfl

@[simp] theorem insertAll_cons :
    insertAll key table (row :: rows) = insertAll key (insertOne key table row) rows := rfl

/-- What was stored stays. -/
theorem prefix_insertAll (key : α → κ) (table rows : List α) :
    ∃ added, insertAll key table rows = table ++ added ∧ added.Sublist rows := by
  induction rows generalizing table with
  | nil => exact ⟨[], (List.append_nil _).symm, List.Sublist.refl _⟩
  | cons row rows ih =>
    obtain ⟨added, hadded, hsub⟩ := ih (insertOne key table row)
    rw [insertAll_cons, hadded]
    unfold insertOne
    by_cases hk : key row ∈ table.map key
    · rw [if_pos hk]
      exact ⟨added, rfl, hsub.cons row⟩
    · rw [if_neg hk]
      exact ⟨row :: added, by rw [List.append_assoc]; rfl, hsub.cons_cons row⟩

theorem mem_or_mem_of_mem_insertAll (h : row ∈ insertAll key table rows) :
    row ∈ table ∨ row ∈ rows := by
  obtain ⟨added, hadded, hsub⟩ := prefix_insertAll key table rows
  rw [hadded, List.mem_append] at h
  exact h.imp_right fun hin => hsub.subset hin

/-- **Under a key is the first row that came with it.** -/
theorem find_insertAll :
    (insertAll key table rows).find? (fun x => key x = k)
      = (table ++ rows).find? fun x => key x = k := by
  induction rows generalizing table with
  | nil => rw [insertAll_nil, List.append_nil]
  | cons row rows ih =>
    rw [insertAll_cons, ih]
    unfold insertOne
    by_cases hk : key row ∈ table.map key
    · -- the table has a row under the key of this one
      rw [if_pos hk]
      rw [List.find?_append, List.find?_append]
      by_cases hrow : key row = k
      · have hsome : (table.find? fun x => key x = k).isSome = true := by
          obtain ⟨x, hx, hxk⟩ := List.mem_map.mp hk
          rw [List.find?_isSome]
          exact ⟨x, hx, decide_eq_true (hxk.trans hrow)⟩
        rw [Option.or_of_isSome hsome, Option.or_of_isSome hsome]
      · rw [List.find?_cons_of_neg (by simpa using hrow)]
    · rw [if_neg hk, List.append_assoc]
      rfl

/-- No key is there twice. -/
theorem nodup_insertAll (h : (table.map key).Nodup) : ((insertAll key table rows).map key).Nodup := by
  induction rows generalizing table with
  | nil => exact h
  | cons row rows ih =>
    rw [insertAll_cons]
    apply ih
    unfold insertOne
    by_cases hk : key row ∈ table.map key
    · rw [if_pos hk]
      exact h
    · rw [if_neg hk, List.map_append, List.nodup_append]
      refine ⟨h, List.nodup_singleton _, ?_⟩
      intro a ha b hb
      rw [List.map_cons, List.map_nil, List.mem_singleton] at hb
      rw [hb]
      exact fun heq => hk (heq ▸ ha)

/-- A key is there when it was, or when a row came with it. -/
theorem mem_keys_insertAll :
    k ∈ (insertAll key table rows).map key ↔ k ∈ table.map key ∨ k ∈ rows.map key := by
  rw [← List.mem_append, ← List.map_append]
  have hiff : ∀ l : List α, k ∈ l.map key ↔ (l.find? fun x => key x = k).isSome = true := by
    intro l
    rw [List.find?_isSome, List.mem_map]
    simp only [decide_eq_true_eq]
  rw [hiff, hiff, find_insertAll]

/-- Rows with more columns are stored as they are without them, if the key is among what
stays. -/
theorem map_insertAll {β : Type} {f : β → α} {table rows : List β} :
    (insertAll (fun x => key (f x)) table rows).map f
      = insertAll key (table.map f) (rows.map f) := by
  induction rows generalizing table with
  | nil => rfl
  | cons row rows ih =>
    have hone : (insertOne (fun x => key (f x)) table row).map f
        = insertOne key (table.map f) (f row) := by
      unfold insertOne
      rw [List.map_map]
      by_cases hk : key (f row) ∈ table.map fun x => key (f x)
      · rw [if_pos hk]
        exact (if_pos hk).symm
      · rw [if_neg hk, List.map_append]
        exact (if_neg hk).symm
    rw [insertAll_cons, ih, hone]
    rfl

theorem insertAll_nil_eq_nil_iff : insertAll key [] rows = [] ↔ rows = [] := by
  constructor
  · intro h
    apply List.eq_nil_iff_forall_not_mem.mpr
    intro row hrow
    have hkey : key row ∈ (insertAll key [] rows).map key :=
      mem_keys_insertAll.mpr (.inr (List.mem_map_of_mem hrow))
    rw [h] at hkey
    cases hkey
  · rintro rfl
    rfl

/-! ## Rows that share a key -/

section Property

variable {p : α → Bool}

/-- Of the rows under a key at most one has a property, and it is the one that is stored. -/
theorem length_filter_of_key (hkeys : (table.map key).Nodup)
    (hp : ∀ x ∈ table, p x = true → key x = k) :
    (table.filter p).length = if (table.find? fun x => key x = k).any p then 1 else 0 := by
  induction table with
  | nil => rfl
  | cons x rest ih =>
    rw [List.map_cons, List.nodup_cons] at hkeys
    have hrest : ∀ y ∈ rest, p y = true → key y = k := fun y hy => hp y (List.mem_cons_of_mem _ hy)
    by_cases hx : key x = k
    · -- no row of the rest has the key
      have hnone : rest.filter p = [] := by
        rw [List.filter_eq_nil_iff]
        intro y hy hpy
        apply hkeys.1
        rw [hx, ← hrest y hy hpy]
        exact List.mem_map_of_mem hy
      rw [List.find?_cons_of_pos (by simpa using hx), List.filter_cons, hnone, Option.any_some]
      split <;> simp
    · have hpx : p x = false := by
        by_contra h
        exact hx (hp x List.mem_cons_self (by simpa using h))
      rw [List.find?_cons_of_neg (by simpa using hx), List.filter_cons_of_neg (by simp [hpx])]
      exact ih hkeys.2 hrest

/-- Among the first `n` rows, the first that has `q` has the stronger `p`: one that has `p`
is there, and no row before it has `q`. -/
theorem any_find_take_iff {q : α → Bool} {l : List α} {n : ℕ} (hpq : ∀ x, p x = true → q x = true) :
    ((l.take n).find? q).any p = true ↔
      (l.takeWhile fun x => !p x).length < l.length ∧ (l.takeWhile fun x => !p x).length < n ∧
        ∀ x ∈ l.takeWhile fun x => !p x, q x = false := by
  induction l generalizing n with
  | nil => simp
  | cons x rest ih =>
    cases n with
    | zero => simp
    | succ n =>
      rw [List.take_succ_cons]
      by_cases hp : p x = true
      · rw [List.find?_cons_of_pos (hpq x hp), List.takeWhile_cons_of_neg (by simp [hp])]
        simp [hp]
      · rw [List.takeWhile_cons_of_pos (by simpa using hp)]
        by_cases hq : q x = true
        · rw [List.find?_cons_of_pos hq]
          simp [hp, hq]
        · rw [List.find?_cons_of_neg hq, ih]
          simp [hq]

end Property

end PaCopilot.Dedup
