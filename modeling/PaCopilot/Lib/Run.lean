/-
Runs of a system that takes one step after another.

A step is a partial function: `none` where the system cannot take it. Two things
are said of runs here. `Along` carries a property of single steps through a run,
and `run_invariant` is the one induction that turns what a step preserves into
what a run preserves; everything about runs is an instance of it.
-/
import Mathlib.Tactic.Common

set_option autoImplicit false

namespace PaCopilot.Run

variable {σ α : Type} {step : σ → α → Option σ}

/-- The state after a sequence of actions. -/
def run (step : σ → α → Option σ) : σ → List α → Option σ
  | s, [] => some s
  | s, x :: xs => (step s x).bind fun s' => run step s' xs

/-- Every step of the run, in the state it is taken in, has `P`. -/
def Along (step : σ → α → Option σ) (P : σ → α → Prop) : σ → List α → Prop
  | _, [] => True
  | s, x :: xs => P s x ∧ ∀ s', step s x = some s' → Along step P s' xs

variable {P Q : σ → α → Prop}

/-- A run is finite, so a decidable property of its steps can be checked. -/
instance [∀ s x, Decidable (P s x)] : ∀ s xs, Decidable (Along step P s xs)
  | _, [] => .isTrue trivial
  | s, x :: xs =>
    have : Decidable (∀ s', step s x = some s' → Along step P s' xs) :=
      match step s x with
      | none => .isTrue fun _ h => (nomatch h)
      | some s' =>
        have := instDecidableAlong s' xs
        decidable_of_iff (Along step P s' xs)
          ⟨fun h _ ht => Option.some.inj ht ▸ h, fun h => h s' rfl⟩
    inferInstanceAs (Decidable (_ ∧ _))

@[simp] theorem run_nil (s : σ) : run step s [] = some s := rfl

theorem run_cons_eq_some_iff {s s'' : σ} {x : α} {xs : List α} :
    run step s (x :: xs) = some s'' ↔ ∃ s', step s x = some s' ∧ run step s' xs = some s'' :=
  Option.bind_eq_some_iff

/-- A run is a run of its first part and then of the rest. -/
theorem run_append {s s'' : σ} {xs ys : List α} :
    run step s (xs ++ ys) = some s'' ↔
      ∃ s', run step s xs = some s' ∧ run step s' ys = some s'' := by
  induction xs generalizing s with
  | nil => simp
  | cons x xs ih =>
    rw [List.cons_append, run_cons_eq_some_iff]
    constructor
    · rintro ⟨t, hx, hxs⟩
      obtain ⟨s', hs', hys⟩ := ih.mp hxs
      exact ⟨s', run_cons_eq_some_iff.mpr ⟨t, hx, hs'⟩, hys⟩
    · rintro ⟨s', hs', hys⟩
      obtain ⟨t, hx, hxs⟩ := run_cons_eq_some_iff.mp hs'
      exact ⟨t, hx, ih.mpr ⟨s', hxs, hys⟩⟩

theorem Along.imp (h : ∀ s x, P s x → Q s x) {s : σ} {xs : List α} (hP : Along step P s xs) :
    Along step Q s xs := by
  induction xs generalizing s with
  | nil => trivial
  | cons x xs ih => exact ⟨h s x hP.1, fun s' hs' => ih (hP.2 s' hs')⟩

theorem Along.and {s : σ} {xs : List α} (hP : Along step P s xs) (hQ : Along step Q s xs) :
    Along step (fun s x => P s x ∧ Q s x) s xs := by
  induction xs generalizing s with
  | nil => trivial
  | cons x xs ih => exact ⟨⟨hP.1, hQ.1⟩, fun s' hs' => ih (hP.2 s' hs') (hQ.2 s' hs')⟩

/-- What holds along a run holds along its first part and, from there, along the
rest. -/
theorem Along.append {s : σ} {xs ys : List α} (h : Along step P s (xs ++ ys)) :
    Along step P s xs ∧ ∀ s', run step s xs = some s' → Along step P s' ys := by
  induction xs generalizing s with
  | nil =>
    refine ⟨trivial, fun s' hrun => ?_⟩
    rw [run_nil, Option.some.injEq] at hrun
    rw [← hrun]
    exact h
  | cons x xs ih =>
    refine ⟨⟨h.1, fun t hx => (ih (h.2 t hx)).1⟩, fun s' hrun => ?_⟩
    obtain ⟨t, hx, hxs⟩ := run_cons_eq_some_iff.mp hrun
    exact (ih (h.2 t hx)).2 s' hxs

/-- What holds of a step exactly when it meets a condition holds along a run
exactly when all its steps meet it. -/
theorem along_congr (h : ∀ s x, P s x ↔ Q s x) {s : σ} {xs : List α} :
    Along step P s xs ↔ Along step Q s xs :=
  ⟨Along.imp fun s x => (h s x).mp, Along.imp fun s x => (h s x).mpr⟩

/-- **What every step preserves, a run preserves.** The steps may be assumed to
meet a condition. -/
theorem run_invariant {I : σ → Prop}
    (hstep : ∀ s x s', I s → P s x → step s x = some s' → I s') {s s' : σ} {xs : List α}
    (hs : I s) (hP : Along step P s xs) (hrun : run step s xs = some s') : I s' := by
  induction xs generalizing s with
  | nil =>
    rw [run_nil, Option.some.injEq] at hrun
    rw [← hrun]
    exact hs
  | cons x xs ih =>
    obtain ⟨t, hx, hxs⟩ := run_cons_eq_some_iff.mp hrun
    exact ih (hstep s x t hs hP.1 hx) (hP.2 t hx) hxs

theorem along_trivial (s : σ) (xs : List α) : Along step (fun _ _ => True) s xs := by
  induction xs generalizing s with
  | nil => trivial
  | cons x xs ih => exact ⟨trivial, fun s' _ => ih s'⟩

/-- What the actions of a run all have, they have along it. -/
theorem along_of_forall {P : α → Prop} {s : σ} {xs : List α} (h : ∀ x ∈ xs, P x) :
    Along step (fun _ x => P x) s xs := by
  induction xs generalizing s with
  | nil => trivial
  | cons x xs ih =>
    exact ⟨h x List.mem_cons_self, fun _ _ => ih fun y hy => h y (List.mem_cons_of_mem _ hy)⟩

/-- What every step preserves whatever it is. -/
theorem invariant_of_step {I : σ → Prop} (hstep : ∀ s x s', I s → step s x = some s' → I s')
    {s s' : σ} {xs : List α} (hs : I s) (hrun : run step s xs = some s') : I s' :=
  run_invariant (fun s x s' hI _ hx => hstep s x s' hI hx) hs (along_trivial s xs) hrun

/-- A property of steps that an invariant gives holds along the whole run. -/
theorem along_of_invariant {I : σ → Prop}
    (hstep : ∀ s x s', I s → P s x → step s x = some s' → I s')
    (hQ : ∀ s x, I s → P s x → Q s x) {s : σ} {xs : List α} (hs : I s)
    (hP : Along step P s xs) : Along step Q s xs := by
  induction xs generalizing s with
  | nil => trivial
  | cons x xs ih =>
    refine ⟨hQ s x hs hP.1, fun s' hs' => ?_⟩
    exact ih (hstep s x s' hs hP.1 hs') (hP.2 s' hs')

/-- Two properties of steps that agree as long as the run keeps `J`, which either of them
keeps, agree along runs. An invariant may be assumed. -/
theorem along_iff {I J : σ → Prop} (hI : ∀ s x s', I s → step s x = some s' → I s')
    (hPQ : ∀ s x, I s → J s → (P s x ↔ Q s x))
    (hJ : ∀ s x s', I s → J s → P s x → step s x = some s' → J s') {s : σ} {xs : List α}
    (hs : I s) (hj : J s) : Along step P s xs ↔ Along step Q s xs := by
  induction xs generalizing s with
  | nil => exact Iff.rfl
  | cons x xs ih =>
    constructor
    · intro h
      refine ⟨(hPQ s x hs hj).mp h.1, fun s' hs' => ?_⟩
      exact (ih (hI s x s' hs hs') (hJ s x s' hs hj h.1 hs')).mp (h.2 s' hs')
    · intro h
      have hP := (hPQ s x hs hj).mpr h.1
      exact ⟨hP, fun s' hs' => (ih (hI s x s' hs hs') (hJ s x s' hs hj hP hs')).mpr (h.2 s' hs')⟩

/-- **A property of states that a step keeps exactly when it meets a condition holds in every
state of a run exactly when every step meets it.** -/
theorem along_reached_iff {I J : σ → Prop} (hI : ∀ s x s', I s → step s x = some s' → I s')
    (hJ : ∀ s x, I s → J s → ((∀ s', step s x = some s' → J s') ↔ P s x)) {s : σ} {xs : List α}
    (hs : I s) (hj : J s) :
    Along step (fun s x => ∀ s', step s x = some s' → J s') s xs ↔ Along step P s xs :=
  along_iff hI hJ (fun _ _ s' _ _ h hs' => h s' hs') hs hj

end PaCopilot.Run
