/-
Tables: rows, keys that a unique index keeps apart, joins, and the accessor that
takes at most one row of a result.

A table is the list of its rows. The order of the list is the order in which a
query without ORDER BY happens to return them; no result below depends on it. A
unique index covers the rows that satisfy its condition ([`Unique`]), all of them
when the condition is [`everyRow`]. Inserting a row whose key is taken is an
error of the database ([`insert`]).
-/
import Mathlib.Data.List.ProdSigma
import Mathlib.Data.List.Nodup

set_option autoImplicit false

namespace PaCopilot.Table

variable {Row Key α β E : Type}

/-! ## At most one -/

/-- A list without repetition has at most one element exactly when all its
elements are equal. -/
theorem length_le_one_iff {l : List α} (h : l.Nodup) :
    l.length ≤ 1 ↔ ∀ x ∈ l, ∀ y ∈ l, x = y := by
  constructor
  · intro hlen x hx y hy
    obtain ⟨i, hi, rfl⟩ := List.mem_iff_getElem.mp hx
    obtain ⟨j, hj, rfl⟩ := List.mem_iff_getElem.mp hy
    have hij : i = j := by omega
    subst hij
    rfl
  · intro hsame
    by_contra hlen
    rw [Nat.not_le] at hlen
    have heq := hsame l[0] (List.getElem_mem _) l[1] (List.getElem_mem _)
    have hidx := (List.Nodup.getElem_inj_iff h).mp heq
    omega

/-- The only row of a result, `none` of an empty one, and the error of a second
row. -/
def scalar_one_or_none (multiple : E) : List α → Except E (Option α)
  | [] => .ok none
  | [x] => .ok (some x)
  | _ :: _ :: _ => .error multiple

/-- The accessor returns exactly on results of at most one row, and then it
returns the first one. -/
theorem scalar_one_or_none_eq_ok_iff {multiple : E} {rows : List α} {x : Option α} :
    scalar_one_or_none multiple rows = .ok x ↔ rows.length ≤ 1 ∧ rows.head? = x := by
  rcases rows with _ | ⟨a, _ | ⟨b, rows⟩⟩ <;> simp [scalar_one_or_none]

/-- The row that a query found is one of the table's. -/
theorem mem_of_scalar {multiple : E} {rows : List α} {p : α → Bool} {x : α}
    (h : scalar_one_or_none multiple (rows.filter p) = .ok (some x)) : x ∈ rows ∧ p x = true :=
  List.mem_filter.mp (List.mem_of_head? (scalar_one_or_none_eq_ok_iff.mp h).2)

/-- A query that found nothing found none of them. -/
theorem none_of_scalar {multiple : E} {rows : List α} {p : α → Bool}
    (h : scalar_one_or_none multiple (rows.filter p) = .ok none) {x : α} (hx : x ∈ rows) :
    p x = false := by
  have hnil := List.head?_eq_none_iff.mp (scalar_one_or_none_eq_ok_iff.mp h).2
  rw [List.filter_eq_nil_iff] at hnil
  exact Bool.eq_false_iff.mpr (hnil x hx)

/-! ## Unique indexes -/

/-- The condition of an index that covers every row. -/
def everyRow (_ : Row) : Bool := true

/-- No two rows that the index covers have one key. -/
def Unique (covers : Row → Bool) (key : Row → Key) (rows : List Row) : Prop :=
  ((rows.filter covers).map key).Nodup

instance [DecidableEq Key] (covers : Row → Bool) (key : Row → Key) (rows : List Row) :
    Decidable (Unique covers key rows) :=
  inferInstanceAs (Decidable (List.Nodup _))

section Unique

variable {covers : Row → Bool} {key : Row → Key} {rows : List Row}

/-- A covered row is the only one with its key. -/
theorem Unique.eq (h : Unique covers key rows) {r q : Row} (hr : r ∈ rows) (hq : q ∈ rows)
    (hcr : covers r = true) (hcq : covers q = true) (hkey : key r = key q) : r = q :=
  List.inj_on_of_nodup_map h (List.mem_filter.mpr ⟨hr, hcr⟩) (List.mem_filter.mpr ⟨hq, hcq⟩) hkey

/-- Rows that are all covered do not repeat. -/
theorem Unique.nodup (h : Unique covers key rows) (hall : ∀ r ∈ rows, covers r = true) :
    rows.Nodup := by
  rw [Unique, List.filter_eq_self.mpr hall] at h
  exact List.Nodup.of_map _ h

/-- The keys of a table whose rows are all covered do not repeat. -/
theorem Unique.map_nodup (h : Unique everyRow key rows) : (rows.map key).Nodup := by
  have hall : rows.filter everyRow = rows := List.filter_eq_self.mpr fun _ _ => rfl
  rwa [Unique, hall] at h

/-- A row that the index does not cover may be added at any time. -/
theorem Unique.append_uncovered (h : Unique covers key rows) {r : Row} (hr : covers r = false) :
    Unique covers key (rows ++ [r]) := by
  rw [Unique, List.filter_append, List.filter_cons, hr]
  simpa [Unique] using h

/-- A covered row may be added when its key is free. -/
theorem unique_append_iff {r : Row} (hr : covers r = true) :
    Unique covers key (rows ++ [r]) ↔
      Unique covers key rows ∧ ∀ q ∈ rows, covers q = true → key q ≠ key r := by
  rw [Unique, List.filter_append, List.filter_cons, if_pos hr, List.map_append, List.nodup_append,
    Unique]
  simp only [List.filter_nil, List.map_cons, List.map_nil, List.nodup_singleton, true_and,
    List.mem_map, List.mem_filter, List.mem_singleton, forall_eq]
  apply and_congr_right
  intro _
  constructor
  · intro h q hq hcovers
    exact h _ ⟨q, ⟨hq, hcovers⟩, rfl⟩
  · rintro h _ ⟨q, ⟨hq, hcovers⟩, rfl⟩
    exact h q hq hcovers

/-- INSERT: the row, unless the index covers it and its key is taken. -/
def insert [DecidableEq Key] (covers : Row → Bool) (key : Row → Key) (taken : E) (rows : List Row)
    (r : Row) : Except E (List Row) :=
  if covers r = true ∧ ∃ q ∈ rows, covers q = true ∧ key q = key r then .error taken
  else .ok (rows ++ [r])

/-- An insertion that was taken added the row at the end. -/
theorem insert_eq_ok [DecidableEq Key] {taken : E} {r : Row} {rows' : List Row}
    (h : Table.insert covers key taken rows r = .ok rows') : rows' = rows ++ [r] := by
  unfold Table.insert at h
  split at h
  · cases h
  · rw [← Except.ok.inj h]

/-- An insertion is refused exactly when the index has the key already. -/
theorem insert_eq_error_iff [DecidableEq Key] {taken e : E} {r : Row} :
    Table.insert covers key taken rows r = .error e ↔
      e = taken ∧ covers r = true ∧ ∃ q ∈ rows, covers q = true ∧ key q = key r := by
  unfold Table.insert
  by_cases hfree : covers r = true ∧ ∃ q ∈ rows, covers q = true ∧ key q = key r
  · rw [if_pos hfree, Except.error.injEq]
    exact ⟨fun h => ⟨h.symm, hfree⟩, fun h => h.1.symm⟩
  · rw [if_neg hfree]
    exact iff_of_false (by simp) fun h => hfree h.2

/-- What was inserted is unique. -/
theorem Unique.insert [DecidableEq Key] (h : Unique covers key rows) {taken : E} {r : Row}
    {rows' : List Row} (hinsert : Table.insert covers key taken rows r = .ok rows') :
    Unique covers key rows' := by
  unfold Table.insert at hinsert
  by_cases hfree : covers r = true ∧ ∃ q ∈ rows, covers q = true ∧ key q = key r
  · rw [if_pos hfree] at hinsert
    cases hinsert
  · rw [if_neg hfree, Except.ok.injEq] at hinsert
    rw [← hinsert]
    by_cases hr : covers r = true
    · rw [unique_append_iff hr]
      exact ⟨h, fun q hq hcovers hkey => hfree ⟨hr, q, hq, hcovers, hkey⟩⟩
    · exact h.append_uncovered (Bool.eq_false_iff.mpr hr)

/-- DELETE: the rows that are left stay unique. -/
theorem Unique.filter (h : Unique covers key rows) (p : Row → Bool) :
    Unique covers key (rows.filter p) :=
  h.sublist ((List.filter_sublist.filter covers).map key)

/-- Rows that keep their key, and are covered only if they were, stay unique. -/
theorem Unique.map (h : Unique covers key rows) {f : Row → Row}
    (hcovers : ∀ r ∈ rows, covers (f r) = true → covers r = true)
    (hkey : ∀ r ∈ rows, covers (f r) = true → key (f r) = key r) :
    Unique covers key (rows.map f) := by
  induction rows with
  | nil => exact h
  | cons r rows ih =>
    have htail : Unique covers key rows := by
      rw [Unique, List.filter_cons] at h
      by_cases hr : covers r = true
      · rw [if_pos hr, List.map_cons] at h
        exact (List.nodup_cons.mp h).2
      · rw [if_neg hr] at h
        exact h
    have hmap := ih htail (fun q hq => hcovers q (List.mem_cons_of_mem _ hq))
      fun q hq => hkey q (List.mem_cons_of_mem _ hq)
    rw [Unique, List.map_cons, List.filter_cons]
    by_cases hr : covers (f r) = true
    · rw [if_pos hr, List.map_cons]
      refine List.nodup_cons.mpr ⟨?_, hmap⟩
      intro hmem
      obtain ⟨q', hq', hk⟩ := List.mem_map.mp hmem
      obtain ⟨hq'mem, hq'cov⟩ := List.mem_filter.mp hq'
      obtain ⟨q, hq, rfl⟩ := List.mem_map.mp hq'mem
      have hrc := hcovers r List.mem_cons_self hr
      have hqc := hcovers q (List.mem_cons_of_mem _ hq) hq'cov
      rw [hkey q (List.mem_cons_of_mem _ hq) hq'cov, hkey r List.mem_cons_self hr] at hk
      rw [Unique, List.filter_cons, if_pos hrc, List.map_cons, List.nodup_cons] at h
      exact h.1 (List.mem_map.mpr ⟨q, List.mem_filter.mpr ⟨hq, hqc⟩, hk⟩)
    · rw [if_neg hr]
      exact hmap

end Unique

/-! ## Joins -/

/-- The pairs of rows of two tables that belong together. -/
def join (on : α → β → Bool) (rows : List α) (others : List β) : List (α × β) :=
  (rows.product others).filter fun (a, b) => on a b

theorem mem_join {on : α → β → Bool} {rows : List α} {others : List β} {a : α} {b : β} :
    (a, b) ∈ join on rows others ↔ a ∈ rows ∧ b ∈ others ∧ on a b = true := by
  rw [join, List.mem_filter, List.pair_mem_product, and_assoc]

theorem nodup_join {on : α → β → Bool} {rows : List α} {others : List β} (h : rows.Nodup)
    (h' : others.Nodup) : (join on rows others).Nodup :=
  (h.product h').filter _

end PaCopilot.Table
