/-
A sequence cut into parts, and put together again.

The parts carry their positions. In whatever order they come, sorted by position they
are the parts in the order of the cut ([`inOrder_of_perm`]), and end to end those are
the sequence ([`flatten_slices`]).
-/
import Mathlib.Data.List.Nodup

set_option autoImplicit false

namespace PaCopilot.Parts

variable {α β : Type}

/-- `[data[i : i + chunk] for i in range(0, len(data), chunk)]`. -/
def slices (chunk : ℕ) (data : List α) : List (List α) :=
  (List.range ((data.length + chunk - 1) / chunk)).map fun i => (data.drop (i * chunk)).take chunk

/-- The first slices are the beginning of the sequence. -/
theorem flatten_firstSlices (chunk n : ℕ) (data : List α) :
    ((List.range n).map fun i => (data.drop (i * chunk)).take chunk).flatten
      = data.take (n * chunk) := by
  induction n with
  | zero => rw [Nat.zero_mul, List.take_zero]; rfl
  | succ n ih =>
    rw [List.range_succ, List.map_append, List.flatten_append, ih, Nat.add_mul, Nat.one_mul,
      List.take_add]
    simp only [List.map_cons, List.map_nil, List.flatten_cons, List.flatten_nil, List.append_nil]

/-- The slices, end to end, are the sequence. -/
theorem flatten_slices {chunk : ℕ} (h : 0 < chunk) (data : List α) :
    (slices chunk data).flatten = data := by
  rw [slices, flatten_firstSlices]
  apply List.take_of_length_le
  have hceil := Nat.div_add_mod (data.length + chunk - 1) chunk
  have hrest := Nat.mod_lt (data.length + chunk - 1) h
  rw [Nat.mul_comm] at hceil
  omega

theorem length_slices (chunk : ℕ) (data : List α) :
    (slices chunk data).length = (data.length + chunk - 1) / chunk := by
  rw [slices, List.length_map, List.length_range]

theorem length_le_of_mem_slices {chunk : ℕ} {data piece : List α}
    (h : piece ∈ slices chunk data) : piece.length ≤ chunk := by
  obtain ⟨i, -, rfl⟩ := List.mem_map.mp h
  exact List.length_take_le _ _

/-- Sorted by position. -/
def inOrder (index : β → ℕ) (parts : List β) : List β :=
  parts.mergeSort fun a b => index a ≤ index b

/-- Mixed up and sorted again. -/
theorem inOrder_of_perm {index : β → ℕ} {parts ordered : List β} (h : parts.Perm ordered)
    (hordered : ordered.Pairwise fun a b => index a < index b) : inOrder index parts = ordered := by
  have hperm : (inOrder index parts).Perm ordered := (List.mergeSort_perm parts _).trans h
  have hsorted : (inOrder index parts).Pairwise fun a b => index a ≤ index b := by
    have hmerged : (inOrder index parts).Pairwise fun a b => decide (index a ≤ index b) = true :=
      List.pairwise_mergeSort
        (fun a b c hab hbc => by
          rw [decide_eq_true_eq] at hab hbc ⊢
          exact Nat.le_trans hab hbc)
        (fun a b => by
          rw [Bool.or_eq_true, decide_eq_true_eq, decide_eq_true_eq]
          exact Nat.le_total _ _) parts
    exact hmerged.imp fun hab => of_decide_eq_true hab
  refine hperm.eq_of_pairwise (fun a b ha hb hab hba => ?_) hsorted
    (hordered.imp fun hlt => Nat.le_of_lt hlt)
  -- two parts of the cut at one position are one part
  have hnodup : (ordered.map index).Nodup :=
    List.pairwise_map.mpr (hordered.imp fun hlt => Nat.ne_of_lt hlt)
  exact List.inj_on_of_nodup_map hnodup (hperm.subset ha) hb (Nat.le_antisymm hab hba)

end PaCopilot.Parts
