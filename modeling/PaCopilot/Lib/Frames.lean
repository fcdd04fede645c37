/-
Frames that are cut off a buffer which grows at its end.

`cut` takes the first frame of a buffer that has one. Where more input never changes a frame that
is there already, all that is cut off of a stream depends on the stream alone, and not on the
pieces it came in ([`frames_append`]).
-/
import Mathlib.Data.List.Basic

set_option autoImplicit false

namespace PaCopilot.Frames

variable {α β : Type}

/-- The frames of a buffer, and what is left of it. The bound is on the number of frames. -/
def drain (cut : List α → Option (β × List α)) : ℕ → List α → List β × List α
  | 0, buffer => ([], buffer)
  | fuel + 1, buffer =>
    match cut buffer with
    | none => ([], buffer)
    | some (frame, rest) => (frame :: (drain cut fuel rest).1, (drain cut fuel rest).2)

/-- All of them. -/
def frames (cut : List α → Option (β × List α)) (buffer : List α) : List β × List α :=
  drain cut buffer.length buffer

/-- A frame takes something off the buffer, and stays what it is when more comes. -/
structure Steady (cut : List α → Option (β × List α)) : Prop where
  shorter : ∀ {buffer frame rest}, cut buffer = some (frame, rest) → rest.length < buffer.length
  more : ∀ {buffer frame rest} (piece : List α), cut buffer = some (frame, rest) →
    cut (buffer ++ piece) = some (frame, rest ++ piece)

variable {cut : List α → Option (β × List α)} {buffer rest : List α} {frame : β}

/-- A bound that is large enough is any other. -/
theorem drain_congr (hcut : Steady cut) {fuel fuel' : ℕ} (h : buffer.length ≤ fuel)
    (h' : buffer.length ≤ fuel') : drain cut fuel buffer = drain cut fuel' buffer := by
  induction fuel generalizing fuel' buffer with
  | zero =>
    have hnone : cut buffer = none := by
      rcases hfirst : cut buffer with _ | ⟨frame, rest⟩
      · rfl
      · have hlt := hcut.shorter hfirst
        omega
    rcases fuel' with _ | fuel'
    · rfl
    · rw [drain, drain, hnone]
  | succ fuel ih =>
    rcases hfirst : cut buffer with _ | ⟨frame, rest⟩
    · rcases fuel' with _ | fuel' <;> simp only [drain, hfirst]
    · have hlt := hcut.shorter hfirst
      rcases fuel' with _ | fuel'
      · omega
      · have hsame : drain cut fuel rest = drain cut fuel' rest := ih (by omega) (by omega)
        simp only [drain, hfirst, hsame]

theorem frames_none (h : cut buffer = none) : frames cut buffer = ([], buffer) := by
  unfold frames
  rcases buffer.length with _ | n
  · rfl
  · rw [drain, h]

theorem frames_some (hcut : Steady cut) (h : cut buffer = some (frame, rest)) :
    frames cut buffer = (frame :: (frames cut rest).1, (frames cut rest).2) := by
  have hlt := hcut.shorter h
  obtain ⟨n, hn⟩ : ∃ n, buffer.length = n + 1 := ⟨buffer.length - 1, by omega⟩
  have hsame : drain cut n rest = frames cut rest := drain_congr hcut (by omega) (Nat.le_refl _)
  rw [frames, hn, drain, h]
  dsimp only
  rw [hsame]

/-- **What comes later is cut off of what is left.** -/
theorem frames_append (hcut : Steady cut) (buffer piece : List α) :
    frames cut (buffer ++ piece)
      = ((frames cut buffer).1 ++ (frames cut ((frames cut buffer).2 ++ piece)).1,
        (frames cut ((frames cut buffer).2 ++ piece)).2) := by
  induction hlength : buffer.length using Nat.strongRecOn generalizing buffer with
  | ind n ih =>
    rcases hfirst : cut buffer with _ | ⟨frame, rest⟩
    · rw [frames_none hfirst]
      rfl
    · rw [frames_some hcut hfirst, frames_some hcut (hcut.more piece hfirst),
        ih rest.length (hlength ▸ hcut.shorter hfirst) rest rfl]
      rfl

/-- Blocks that are one frame each, and the beginning of another. -/
theorem frames_blocks (hcut : Steady cut) {blocks : List (List α)} {found : List β}
    (h : List.Forall₂ (fun block frame => ∀ rest, cut (block ++ rest) = some (frame, rest)) blocks
      found) {tail : List α} (htail : cut tail = none) :
    frames cut (blocks.flatten ++ tail) = (found, tail) := by
  induction h with
  | nil => exact frames_none htail
  | cons hblock _ ih => rw [List.flatten_cons, List.append_assoc, frames_some hcut (hblock _), ih]

/-- The beginning of a list of blocks: some whole ones, and less than the next. -/
theorem prefix_flatten {blocks : List (List α)} {l : List α} (h : l <+: blocks.flatten) :
    ∃ k, ∃ tail, k ≤ blocks.length ∧ l = (blocks.take k).flatten ++ tail ∧
      (k = blocks.length → tail = []) ∧
      ∀ block, blocks[k]? = some block → tail <+: block ∧ tail.length < block.length := by
  induction blocks generalizing l with
  | nil =>
    rw [List.flatten_nil, List.prefix_nil] at h
    exact ⟨0, [], Nat.le_refl _, h, fun _ => rfl, nofun⟩
  | cons block blocks ih =>
    rw [List.flatten_cons] at h
    by_cases hshort : l.length < block.length
    · have hbegins : l <+: block :=
        List.prefix_of_prefix_length_le h (List.prefix_append _ _) (Nat.le_of_lt hshort)
      refine ⟨0, l, Nat.zero_le _, rfl, fun hlength => ?_, fun block' hblock => ?_⟩
      · exact absurd hlength.symm (Nat.succ_ne_zero _)
      · rw [← Option.some.inj hblock]
        exact ⟨hbegins, hshort⟩
    · obtain ⟨rest, rfl⟩ : block <+: l :=
        List.prefix_of_prefix_length_le (List.prefix_append _ _) h (Nat.le_of_not_lt hshort)
      obtain ⟨k, tail, hk, hl, hend, hnext⟩ := ih ((List.prefix_append_right_inj _).mp h)
      refine ⟨k + 1, tail, Nat.succ_le_succ hk, ?_, fun hlength => ?_, hnext⟩
      · rw [List.take_succ_cons, List.flatten_cons, List.append_assoc, ← hl]
      · exact hend (Nat.succ.inj hlength)

end PaCopilot.Frames
