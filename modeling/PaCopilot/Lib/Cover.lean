/-
A sequence covered by parts of it that may overlap.

The parts come in order. Each begins in what the parts before it have covered, or right after
it, and ends no earlier than they do; the last one ends with the sequence. A part is placed by
the prefix in front of it, so that all this is said of prefixes and no positions are counted.
-/
import Mathlib.Data.List.Infix
import Mathlib.Tactic.Common

set_option autoImplicit false

namespace PaCopilot.Cover

variable {α : Type}

/-- The parts cover what is left of `whole` after `done`, where the last part before them
began after `lo`. -/
inductive CoversFrom (whole : List α) : List α → List α → List (List α) → Prop
  | nil {lo : List α} (hlo : lo <+: whole) : CoversFrom whole lo whole []
  | cons {lo before part done : List α} {parts : List (List α)} (hlo : lo <+: before)
      (hbefore : before <+: done) (hdone : done <+: before ++ part)
      (hwhole : before ++ part <+: whole) (hrest : CoversFrom whole before (before ++ part) parts) :
      CoversFrom whole lo done (part :: parts)

/-- The parts cover the whole, in order. -/
def Covers (whole : List α) (parts : List (List α)) : Prop := CoversFrom whole [] [] parts

variable {whole lo lo' done : List α} {parts more : List (List α)}

theorem CoversFrom.weaken (h : CoversFrom whole lo done parts) (hlo : lo' <+: lo) :
    CoversFrom whole lo' done parts := by
  cases h with
  | nil hwhole => exact .nil (hlo.trans hwhole)
  | cons hbefore hcovered hdone hwhole hrest =>
    exact .cons (hlo.trans hbefore) hcovered hdone hwhole hrest

theorem covers_nil : Covers ([] : List α) [] := .nil List.nil_prefix

theorem covers_single (whole : List α) : Covers whole [whole] :=
  .cons List.nil_prefix List.nil_prefix List.nil_prefix List.prefix_rfl (.nil List.nil_prefix)

/-! ## One sequence after another -/

/-- The same parts, of a sequence with `front` in front of it. -/
theorem CoversFrom.shift (front : List α) (h : CoversFrom whole lo done parts) :
    CoversFrom (front ++ whole) (front ++ lo) (front ++ done) parts := by
  induction h with
  | nil hlo => exact .nil ((List.prefix_append_right_inj front).mpr hlo)
  | @cons lo before part done parts hlo hbefore hdone hwhole _ ih =>
    rw [← List.append_assoc] at ih
    apply CoversFrom.cons ((List.prefix_append_right_inj front).mpr hlo)
      ((List.prefix_append_right_inj front).mpr hbefore) _ _ ih
    · rw [List.append_assoc]
      exact (List.prefix_append_right_inj front).mpr hdone
    · rw [List.append_assoc]
      exact (List.prefix_append_right_inj front).mpr hwhole

theorem CoversFrom.append {second : List α} (h : CoversFrom whole lo done parts)
    (hsecond : Covers second more) : CoversFrom (whole ++ second) lo done (parts ++ more) := by
  induction h with
  | nil hlo =>
    have hshifted := CoversFrom.shift whole hsecond
    rw [List.append_nil] at hshifted
    exact hshifted.weaken hlo
  | cons hlo hbefore hdone hwhole _ ih =>
    exact .cons hlo hbefore hdone (hwhole.trans (List.prefix_append _ _)) ih

/-- **Parts of one sequence and then of another cover the two of them, one after the other.** -/
theorem Covers.append {second : List α} (h : Covers whole parts) (hsecond : Covers second more) :
    Covers (whole ++ second) (parts ++ more) :=
  CoversFrom.append h hsecond

/-! ## With elements left out -/

/-- **Where elements are left out of the whole, the parts cover it without them.** -/
theorem CoversFrom.filter (p : α → Bool) (h : CoversFrom whole lo done parts) :
    CoversFrom (whole.filter p) (lo.filter p) (done.filter p) (parts.map (List.filter p)) := by
  induction h with
  | nil hlo => exact .nil (hlo.filter p)
  | cons hlo hbefore hdone hwhole _ ih =>
    rw [List.filter_append] at ih
    have hdone' := hdone.filter p
    have hwhole' := hwhole.filter p
    rw [List.filter_append] at hdone' hwhole'
    exact .cons (hlo.filter p) (hbefore.filter p) hdone' hwhole' ih

/-- **A part that is empty covers nothing**, and may be left out. -/
theorem CoversFrom.drop_empty {β : Type} {f : β → List α} {keep : β → Bool} {items : List β}
    (h : CoversFrom whole lo done (items.map f))
    (hempty : ∀ x ∈ items, keep x = false → f x = []) :
    CoversFrom whole lo done ((items.filter keep).map f) := by
  induction items generalizing lo done with
  | nil => exact h
  | cons x items ih =>
    rw [List.map_cons] at h
    have hrest : ∀ y ∈ items, keep y = false → f y = [] := fun y hy =>
      hempty y (List.mem_cons_of_mem _ hy)
    cases h with
    | @cons _ before _ _ _ hlo hbefore hdone hwhole hcovers =>
      cases hkeep : keep x with
      | true =>
        rw [List.filter_cons_of_pos hkeep, List.map_cons]
        exact .cons hlo hbefore hdone hwhole (ih hcovers hrest)
      | false =>
        have hx : f x = [] := hempty x List.mem_cons_self hkeep
        rw [hx, List.append_nil] at hdone hcovers
        have heq : done = before := hdone.eq_of_length_le hbefore.length_le
        rw [List.filter_cons_of_neg (by rw [hkeep]; decide), heq]
        exact (ih hcovers hrest).weaken hlo

theorem Covers.drop_empty {β : Type} {f : β → List α} {keep : β → Bool} {items : List β}
    (h : Covers whole (items.map f)) (hempty : ∀ x ∈ items, keep x = false → f x = []) :
    Covers whole ((items.filter keep).map f) :=
  CoversFrom.drop_empty h hempty

end PaCopilot.Cover
