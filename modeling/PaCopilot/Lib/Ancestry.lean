/-
Things of which each comes from at most one earlier thing.

`origin x` is what `x` comes from. Two things belong together when both go back to one
([`Together`]). A new thing that comes from `x`, and that nothing comes from yet, belongs to
what `x` belongs to and changes nothing else; one that comes from nothing stands alone.
-/
import Mathlib.Logic.Function.Basic
import Mathlib.Logic.Relation
import Mathlib.Data.List.Chain

set_option autoImplicit false

namespace PaCopilot.Ancestry

open Relation

variable {α : Type} {origin origin' : α → Option α} {x y z w : α}

/-- `y` is `x`, or one of the things that `x` goes back to. -/
def GoesBack (origin : α → Option α) : α → α → Prop :=
  ReflTransGen fun x y => origin x = some y

/-- Both go back to one thing. -/
def Together (origin : α → Option α) : α → α → Prop := Join (GoesBack origin)

theorem Together.symm (h : Together origin x y) : Together origin y x := by
  obtain ⟨z, hx, hy⟩ := h
  exact ⟨z, hy, hx⟩

theorem Together.comm : Together origin x y ↔ Together origin y x := ⟨Together.symm, Together.symm⟩

/-- What comes from nothing goes back to itself only. -/
theorem GoesBack.eq_of_none (h : GoesBack origin x y) (hx : origin x = none) : y = x := by
  rcases ReflTransGen.cases_head h with rfl | ⟨z, hz, -⟩
  · rfl
  · rw [hx] at hz
    cases hz

section New

variable (hnew : ∀ x, origin x ≠ some w)
include hnew

/-- Nothing else goes back to a thing that nothing comes from. -/
theorem GoesBack.eq_of_new (h : GoesBack origin x w) : x = w := by
  rcases ReflTransGen.cases_tail h with rfl | ⟨z, -, hz⟩
  · rfl
  · exact absurd hz (hnew z)

variable (hsame : ∀ x, x ≠ w → origin' x = origin x)
include hsame

/-- Where the rest comes from is where it came from. -/
theorem goesBack_iff (hx : x ≠ w) : GoesBack origin' x y ↔ GoesBack origin x y := by
  constructor
  · intro h
    induction h using ReflTransGen.head_induction_on with
    | refl => exact .refl
    | @head x z hxz _ ih =>
      rw [hsame x hx] at hxz
      exact .head hxz (ih fun hz => hnew x (hz ▸ hxz))
  · intro h
    induction h using ReflTransGen.head_induction_on with
    | refl => exact .refl
    | @head x z hxz _ ih =>
      have hz : z ≠ w := fun hz => hnew x (hz ▸ hxz)
      exact .head ((hsame x hx).trans hxz) (ih hz)

/-- The rest belongs together as it did. -/
theorem together_iff (hx : x ≠ w) (hy : y ≠ w) : Together origin' x y ↔ Together origin x y := by
  unfold Together Join
  simp only [goesBack_iff hnew hsame hx, goesBack_iff hnew hsame hy]

/-- A new thing belongs to what it comes from. -/
theorem together_new_iff (hw : origin' w = some z) (hz : z ≠ w) (hy : y ≠ w) :
    Together origin' w y ↔ Together origin z y := by
  constructor
  · rintro ⟨v, hwv, hyv⟩
    rw [goesBack_iff hnew hsame hy] at hyv
    rcases ReflTransGen.cases_head hwv with rfl | ⟨z', hz', hrest⟩
    · exact absurd (hyv.eq_of_new hnew) hy
    · rw [hw, Option.some.injEq] at hz'
      rw [← hz'] at hrest
      exact ⟨v, (goesBack_iff hnew hsame hz).mp hrest, hyv⟩
  · rintro ⟨v, hzv, hyv⟩
    exact ⟨v, .head hw ((goesBack_iff hnew hsame hz).mpr hzv), (goesBack_iff hnew hsame hy).mpr hyv⟩

/-- A new thing that comes from nothing stands alone. -/
theorem not_together_new (hw : origin' w = none) (hy : y ≠ w) : ¬ Together origin' w y := by
  rintro ⟨v, hwv, hyv⟩
  have hv : v = w := GoesBack.eq_of_none hwv hw
  rw [hv, goesBack_iff hnew hsame hy] at hyv
  exact hy (hyv.eq_of_new hnew)

end New

/-! ## What comes from what ends -/

/-- Nothing comes from itself, however far one goes back. -/
def Grounded (origin : α → Option α) : Prop :=
  ∃ rank : α → Nat, ∀ x y, origin x = some y → rank y < rank x

theorem Grounded.nothing : Grounded fun _ : α => none := ⟨fun _ => 0, nofun⟩

/-- Less comes from less. -/
theorem Grounded.mono (h : Grounded origin) (hless : ∀ x y, origin' x = some y → origin x = some y) :
    Grounded origin' := by
  obtain ⟨rank, hrank⟩ := h
  exact ⟨rank, fun x y hxy => hrank x y (hless x y hxy)⟩

/-- What nothing comes from may come from anything else. -/
theorem Grounded.pass [DecidableEq α] (h : Grounded origin) (hnew : ∀ x, origin x ≠ some w)
    (hz : z ≠ w) : Grounded (Function.update origin w (some z)) := by
  obtain ⟨rank, hrank⟩ := h
  refine ⟨Function.update rank w (rank z + 1), fun x y hxy => ?_⟩
  by_cases hx : x = w
  · subst hx
    rw [Function.update_self, Option.some.injEq] at hxy
    subst hxy
    rw [Function.update_self, Function.update_of_ne hz]
    exact Nat.lt_succ_self _
  · rw [Function.update_of_ne hx] at hxy
    have hy : y ≠ w := fun hy => hnew x (hy ▸ hxy)
    rw [Function.update_of_ne hx, Function.update_of_ne hy]
    exact hrank x y hxy

/-- Things of which each comes from the one before are different things. -/
theorem Grounded.nodup (h : Grounded origin) {l : List α}
    (hl : l.IsChain fun x y => origin y = some x) : l.Nodup := by
  obtain ⟨rank, hrank⟩ := h
  have hchain : l.IsChain fun x y => rank x < rank y := hl.imp fun x y => hrank y x
  have htrans : IsTrans α fun x y => rank x < rank y := ⟨fun _ _ _ => Nat.lt_trans⟩
  refine hchain.pairwise.imp fun {x y} hlt heq => ?_
  rw [heq] at hlt
  exact Nat.lt_irrefl _ hlt

/-! ## At most one -/

/-- Of things that belong together, at most one is marked. -/
def AtMostOne (origin : α → Option α) (marked : α → Prop) : Prop :=
  ∀ x y, marked x → marked y → Together origin x y → x = y

/-- Nothing else that belongs to it is marked. -/
def Alone (origin : α → Option α) (marked : α → Prop) (x : α) : Prop :=
  ∀ y, marked y → Together origin x y → y = x

section Marks

variable {marked marked' : α → Prop}

theorem AtMostOne.mono (h : AtMostOne origin marked) (hless : ∀ x, marked' x → marked x) :
    AtMostOne origin marked' :=
  fun x y hx hy => h x y (hless x hx) (hless y hy)

/-- One more may be marked exactly when it is alone. -/
theorem AtMostOne.mark_iff (h : AtMostOne origin marked)
    (hmark : ∀ y, marked' y ↔ y = x ∨ marked y) :
    AtMostOne origin marked' ↔ Alone origin marked x := by
  constructor
  · intro h' y hy htogether
    exact h' y x ((hmark y).mpr (.inr hy)) ((hmark x).mpr (.inl rfl)) htogether.symm
  · intro halone y z hy hz htogether
    rcases (hmark y).mp hy with rfl | hy
    · rcases (hmark z).mp hz with rfl | hz
      · rfl
      · exact (halone z hz htogether).symm
    · rcases (hmark z).mp hz with rfl | hz
      · exact halone y hy htogether.symm
      · exact h y z hy hz htogether

section New

variable (hnew : ∀ x, origin x ≠ some w) (hsame : ∀ x, x ≠ w → origin' x = origin x)
  (hold : ∀ y, marked y → y ≠ w)
include hnew hsame hold

/-- A mark may pass to a new thing exactly when what it comes from is alone. -/
theorem AtMostOne.pass_iff (h : AtMostOne origin marked) (hw : origin' w = some z) (hz : z ≠ w)
    (hmark : ∀ y, marked' y ↔ y = w ∨ marked y ∧ y ≠ z) :
    AtMostOne origin' marked' ↔ Alone origin marked z := by
  constructor
  · intro h' y hy htogether
    by_contra hyz
    have hyw := hold y hy
    have hwy := (together_new_iff hnew hsame hw hz hyw).mpr htogether
    exact hyw (h' y w ((hmark y).mpr (.inr ⟨hy, hyz⟩)) ((hmark w).mpr (.inl rfl)) hwy.symm)
  · intro halone y y' hy hy' htogether
    rcases (hmark y).mp hy with rfl | ⟨hy, hyz⟩
    · rcases (hmark y').mp hy' with rfl | ⟨hy', hyz'⟩
      · rfl
      · rw [together_new_iff hnew hsame hw hz (hold y' hy')] at htogether
        exact absurd (halone y' hy' htogether) hyz'
    · rcases (hmark y').mp hy' with rfl | ⟨hy', -⟩
      · rw [Together.comm, together_new_iff hnew hsame hw hz (hold y hy)] at htogether
        exact absurd (halone y hy htogether) hyz
      · rw [together_iff hnew hsame (hold y hy) (hold y' hy')] at htogether
        exact h y y' hy hy' htogether

/-- A new thing that comes from nothing may be marked. -/
theorem AtMostOne.root (h : AtMostOne origin marked) (hw : origin' w = none)
    (hmark : ∀ y, marked' y → y = w ∨ marked y) : AtMostOne origin' marked' := by
  intro y y' hy hy' htogether
  rcases hmark y hy with rfl | hy
  · rcases hmark y' hy' with rfl | hy'
    · rfl
    · exact absurd htogether (not_together_new hnew hsame hw (hold y' hy'))
  · rcases hmark y' hy' with rfl | hy'
    · exact absurd htogether.symm (not_together_new hnew hsame hw (hold y hy))
    · rw [together_iff hnew hsame (hold y hy) (hold y' hy')] at htogether
      exact h y y' hy hy' htogether

end New

end Marks

end PaCopilot.Ancestry
