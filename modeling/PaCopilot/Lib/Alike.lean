/-
Lists whose elements are related place by place.

A function that looks at an element only to ask what related elements agree on treats
related lists alike: it cuts them at the same places, keeps the same places of them and
sorts them in the same way. The relation may be between different types.
-/
import Mathlib.Data.List.Forall2
import Mathlib.Data.List.Sort

set_option autoImplicit false

namespace PaCopilot.Alike

open List

variable {α β : Type} {R : α → β → Prop} {p : α → Bool} {q : β → Bool} {l : List α} {l' : List β}

section Cut

variable (h : Forall₂ R l l') (hpq : ∀ a b, R a b → p a = q b)
include h hpq

theorem takeWhile : Forall₂ R (l.takeWhile p) (l'.takeWhile q) := by
  induction h with
  | nil => exact .nil
  | @cons a b l l' hab _ ih =>
    rw [List.takeWhile_cons, List.takeWhile_cons, ← hpq a b hab]
    split
    · exact .cons hab ih
    · exact .nil

theorem dropWhile : Forall₂ R (l.dropWhile p) (l'.dropWhile q) := by
  induction h with
  | nil => exact .nil
  | @cons a b l l' hab htail ih =>
    rw [List.dropWhile_cons, List.dropWhile_cons, ← hpq a b hab]
    split
    · exact ih
    · exact .cons hab htail

theorem any_eq : l.any p = l'.any q := by
  induction h with
  | nil => rfl
  | @cons a b l l' hab _ ih => rw [List.any_cons, List.any_cons, hpq a b hab, ih]

theorem splitOnP : Forall₂ (Forall₂ R) (l.splitOnP p) (l'.splitOnP q) := by
  induction h with
  | nil => exact .cons .nil .nil
  | @cons a b l l' hab _ ih =>
    rw [List.splitOnP_cons_eq_if_modifyHead, List.splitOnP_cons_eq_if_modifyHead, ← hpq a b hab]
    split
    · exact .cons .nil ih
    · cases hl : l.splitOnP p with
      | nil => exact absurd hl (List.splitOnP_ne_nil p l)
      | cons first rest =>
        rw [hl] at ih
        obtain ⟨first', rest', hfirst, hrest, heq⟩ := forall₂_cons_left_iff.mp ih
        rw [heq]
        exact .cons (.cons hab hfirst) hrest

end Cut

theorem isEmpty_eq (h : Forall₂ R l l') : l.isEmpty = l'.isEmpty := by
  cases h <;> rfl

theorem exists_left (h : Forall₂ R l l') {b : β} (hb : b ∈ l') : ∃ a ∈ l, R a b := by
  induction h with
  | nil => exact absurd hb List.not_mem_nil
  | @cons a b' l l' hab _ ih =>
    rcases List.mem_cons.mp hb with rfl | hb
    · exact ⟨a, List.mem_cons_self, hab⟩
    · obtain ⟨a', ha', hab'⟩ := ih hb
      exact ⟨a', List.mem_cons_of_mem _ ha', hab'⟩

theorem dropLast (h : Forall₂ R l l') : Forall₂ R l.dropLast l'.dropLast := by
  rw [List.dropLast_eq_take, List.dropLast_eq_take, ← h.length_eq]
  exact forall₂_take _ h

theorem intercalate {sep : List α} {sep' : List β} {parts : List (List α)} {parts' : List (List β)}
    (hsep : Forall₂ R sep sep') (h : Forall₂ (Forall₂ R) parts parts') :
    Forall₂ R (List.intercalate sep parts) (List.intercalate sep' parts') := by
  induction h with
  | nil => exact .nil
  | @cons part part' rest rest' hpart hrest ih =>
    cases hrest with
    | nil =>
      rw [List.intercalate_singleton, List.intercalate_singleton]
      exact hpart
    | cons hnext htail =>
      rw [List.intercalate_cons_cons, List.intercalate_cons_cons]
      exact rel_append (rel_append hpart hsep) ih

/-- A sort by what related elements agree on. -/
theorem insertionSort {r : α → α → Prop} {r' : β → β → Prop} [DecidableRel r] [DecidableRel r']
    (hr : ∀ a b c d, R a b → R c d → (r a c ↔ r' b d)) (h : Forall₂ R l l') :
    Forall₂ R (l.insertionSort r) (l'.insertionSort r') := by
  have hinsert : ∀ {a b} {m : List α} {m' : List β}, R a b → Forall₂ R m m' →
      Forall₂ R (m.orderedInsert r a) (m'.orderedInsert r' b) := by
    intro a b m m' hab hm
    induction hm with
    | nil => exact .cons hab .nil
    | @cons c d m m' hcd htail ih =>
      rw [List.orderedInsert, List.orderedInsert]
      by_cases hac : r a c
      · rw [if_pos hac, if_pos ((hr a b c d hab hcd).mp hac)]
        exact .cons hab (.cons hcd htail)
      · rw [if_neg hac, if_neg fun hbd => hac ((hr a b c d hab hcd).mpr hbd)]
        exact .cons hcd ih
  induction h with
  | nil => exact .nil
  | cons hab _ ih => exact hinsert hab ih

/-! ## Counterparts -/

theorem exists_zip_left (h : Forall₂ R l l') {a : α} (ha : a ∈ l) : ∃ b, (a, b) ∈ l.zip l' := by
  induction h with
  | nil => cases ha
  | @cons c d l l' _ _ ih =>
    rw [List.zip_cons_cons]
    rcases List.mem_cons.mp ha with rfl | ha
    · exact ⟨d, List.mem_cons_self ..⟩
    · obtain ⟨b, hb⟩ := ih ha
      exact ⟨b, List.mem_cons_of_mem _ hb⟩

theorem exists_zip_right (h : Forall₂ R l l') {b : β} (hb : b ∈ l') : ∃ a, (a, b) ∈ l.zip l' := by
  induction h with
  | nil => cases hb
  | @cons c d l l' _ _ ih =>
    rw [List.zip_cons_cons]
    rcases List.mem_cons.mp hb with rfl | hb
    · exact ⟨c, List.mem_cons_self ..⟩
    · obtain ⟨a, ha⟩ := ih hb
      exact ⟨a, List.mem_cons_of_mem _ ha⟩

/-- Lists that are filtered at the same places. -/
theorem filter (h : Forall₂ R l l') (hpq : ∀ x ∈ l.zip l', p x.1 = q x.2) :
    Forall₂ R (l.filter p) (l'.filter q) := by
  induction h with
  | nil => exact .nil
  | @cons a b l l' hab _ ih =>
    rw [List.zip_cons_cons, List.forall_mem_cons] at hpq
    rw [List.filter_cons, List.filter_cons, ← hpq.1]
    split
    · exact .cons hab (ih hpq.2)
    · exact ih hpq.2

theorem find? (h : Forall₂ R l l') (hpq : ∀ x ∈ l.zip l', p x.1 = q x.2) :
    Option.Rel R (l.find? p) (l'.find? q) := by
  induction h with
  | nil => exact .none
  | @cons a b l l' hab _ ih =>
    rw [List.zip_cons_cons, List.forall_mem_cons] at hpq
    rw [List.find?_cons, List.find?_cons, ← hpq.1]
    dsimp only
    split
    · exact .some hab
    · exact ih hpq.2

theorem zip_filter (h : Forall₂ R l l') (hpq : ∀ x ∈ l.zip l', p x.1 = q x.2) :
    (l.filter p).zip (l'.filter q) = (l.zip l').filter fun x => p x.1 := by
  induction h with
  | nil => rfl
  | @cons a b l l' _ _ ih =>
    rw [List.zip_cons_cons, List.forall_mem_cons] at hpq
    rw [List.filter_cons, List.filter_cons, List.zip_cons_cons, List.filter_cons, ← hpq.1]
    dsimp only
    split
    · rw [List.zip_cons_cons, ih hpq.2]
    · exact ih hpq.2

/-- What elements have in common with their counterparts, the lists have. -/
theorem map_eq {γ : Type} {f : α → γ} {g : β → γ} (h : Forall₂ R l l')
    (hfg : ∀ a b, R a b → f a = g b) : l.map f = l'.map g := by
  induction h with
  | nil => rfl
  | cons hab _ ih => rw [List.map_cons, List.map_cons, hfg _ _ hab, ih]

end PaCopilot.Alike
