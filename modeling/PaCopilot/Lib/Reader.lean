/-
Readers, and what is written for them.

A reader takes something off the front of a text, or does not read it. What is written for a
reader ([`Reads`]) it takes whole, and it leaves what follows, whatever that is among what may
follow. So what is written one after the other is read one after the other ([`Reads.bind`]), and
a grammar is read back part by part. Where a reader tries one thing before another, it matters
that the first does not read what is written for the second ([`Fails`]).
-/
import Mathlib.Data.List.Basic
import Mathlib.Tactic.Common

set_option autoImplicit false

namespace PaCopilot.Reading

/-- Takes something off the front of a text. -/
def Reader (C α : Type) : Type := List C → Option (α × List C)

namespace Reader

variable {C α β : Type}

instance : Monad (Reader C) where
  pure x text := some (x, text)
  bind p f text := (p text).bind fun found => f found.1 found.2

/-- A fixed text. -/
def literal [DecidableEq C] : List C → Reader C Unit
  | [], text => some ((), text)
  | c :: fixed, d :: text => if c = d then literal fixed text else none
  | _ :: _, [] => none

/-- The first reader, and where it does not read the second. -/
def or (p q : Reader C α) : Reader C α := fun text => (p text).or (q text)

/-- One or more, at most so many, with a separator between two. -/
def separated (sep : Reader C Unit) (p : Reader C α) : ℕ → Reader C (List α)
  | 0, _ => none
  | n + 1, text => (p text).bind fun found =>
    match sep found.2 with
    | none => some ([found.1], found.2)
    | some (_, rest) => (separated sep p n rest).map fun more => (found.1 :: more.1, more.2)

/-- One or more, no more than the text has characters. -/
def sepBy (sep : Reader C Unit) (p : Reader C α) : Reader C (List α) := fun text =>
  separated sep p text.length text

/-- The text as a whole. -/
def whole (p : Reader C α) (text : List C) : Option α :=
  match p text with
  | some (x, []) => some x
  | _ => none

/-! ## What is written -/

/-- What is written is read, and what follows it is left. -/
def Reads (Follows : List C → Prop) (p : Reader C α) (s : List C) (x : α) : Prop :=
  ∀ rest, Follows rest → p (s ++ rest) = some (x, rest)

/-- What is written is not read. -/
def Fails (Follows : List C → Prop) (p : Reader C α) (s : List C) : Prop :=
  ∀ rest, Follows rest → p (s ++ rest) = none

variable {Follows Follows' : List C → Prop} {p q : Reader C α} {f : α → Reader C β}
  {s t : List C} {x : α} {y : β}

theorem bind_apply (text : List C) :
    (p >>= f) text = (p text).bind fun found => f found.1 found.2 := rfl

theorem Reads.pure : Reads Follows (pure x) [] x := fun _ _ => rfl

/-- **One after the other.** -/
theorem Reads.bind (h : Reads Follows p s x) (h' : Reads Follows' (f x) t y)
    (hfollows : ∀ rest, Follows' rest → Follows (t ++ rest)) :
    Reads Follows' (p >>= f) (s ++ t) y := by
  intro rest hrest
  rw [bind_apply, List.append_assoc, h _ (hfollows rest hrest), Option.bind_some]
  exact h' rest hrest

theorem Reads.or_left (h : Reads Follows p s x) : Reads Follows (p.or q) s x := by
  intro rest hrest
  rw [or, h rest hrest, Option.some_or]

theorem Reads.or_right (hfails : Fails Follows p s) (h : Reads Follows q s x) :
    Reads Follows (p.or q) s x := by
  intro rest hrest
  rw [or, hfails rest hrest, Option.none_or, h rest hrest]

theorem Reads.whole (h : Reads (· = []) p s x) : whole p s = some x := by
  have hread := h [] rfl
  rw [List.append_nil] at hread
  rw [Reader.whole, hread]

/-- What the first part does not read the whole does not read. -/
theorem Fails.bind (h : Fails Follows p s) : Fails Follows (p >>= f) s := by
  intro rest hrest
  rw [bind_apply, h rest hrest, Option.bind_none]

theorem Reads.bind_fails (h : Reads Follows p s x) (h' : Fails Follows' (f x) t)
    (hfollows : ∀ rest, Follows' rest → Follows (t ++ rest)) :
    Fails Follows' (p >>= f) (s ++ t) := by
  intro rest hrest
  rw [bind_apply, List.append_assoc, h _ (hfollows rest hrest), Option.bind_some]
  exact h' rest hrest

section Fixed

variable [DecidableEq C] {f : Unit → Reader C β}

theorem literal_append (fixed rest : List C) : literal fixed (fixed ++ rest) = some ((), rest) := by
  induction fixed with
  | nil => rfl
  | cons c fixed ih => rw [List.cons_append, literal, if_pos rfl, ih]

/-- Behind a fixed text. -/
theorem Reads.after (fixed : List C) (h : Reads Follows (f ()) t y) :
    Reads Follows (literal fixed >>= f) (fixed ++ t) y := by
  intro rest hrest
  rw [bind_apply, List.append_assoc, literal_append, Option.bind_some]
  exact h rest hrest

theorem Fails.after (fixed : List C) (h : Fails Follows (f ()) t) :
    Fails Follows (literal fixed >>= f) (fixed ++ t) := by
  intro rest hrest
  rw [bind_apply, List.append_assoc, literal_append, Option.bind_some]
  exact h rest hrest

/-- Before a fixed text. -/
theorem Reads.last (fixed : List C) (y : β) :
    Reads Follows (literal fixed >>= fun _ => Pure.pure y) fixed y := by
  intro rest hrest
  rw [bind_apply, literal_append]
  rfl

end Fixed

/-! ## With separators -/

section Separated

variable {sep : Reader C Unit} {between : List C} {items : List α} {text : α → List C}

/-- What is written with separators between is read, item by item. -/
theorem reads_separated (hsep : ∀ rest, sep (between ++ rest) = some ((), rest))
    (hitems : ∀ x ∈ items, Reads Follows p (text x) x)
    (hbetween : ∀ rest, Follows (between ++ rest)) (hne : items ≠ []) {n : ℕ}
    (hn : items.length ≤ n) :
    Reads (fun rest => Follows rest ∧ sep rest = none) (separated sep p n)
      (List.intercalate between (items.map text)) items := by
  intro rest hrest
  induction items generalizing n with
  | nil => exact absurd rfl hne
  | cons x items ih =>
    rw [List.forall_mem_cons] at hitems
    obtain ⟨n, rfl⟩ : ∃ m, n = m + 1 := ⟨n - 1, by rw [List.length_cons] at hn; omega⟩
    cases items with
    | nil =>
      rw [List.map_singleton, List.intercalate_singleton, separated, hitems.1 rest hrest.1,
        Option.bind_some]
      simp only [hrest.2]
    | cons following items =>
      have hmore := ih hitems.2 (List.cons_ne_nil _ _) (Nat.le_of_succ_le_succ hn)
      rw [List.map_cons, List.map_cons, List.intercalate_cons_cons, List.append_assoc,
        List.append_assoc, separated, hitems.1 _ (hbetween _), Option.bind_some]
      simp only [hsep]
      rw [← List.map_cons, hmore, Option.map_some]

theorem length_le_intercalate (htext : ∀ x ∈ items, text x ≠ []) :
    items.length ≤ (List.intercalate between (items.map text)).length := by
  induction items with
  | nil => exact Nat.zero_le _
  | cons x items ih =>
    rw [List.forall_mem_cons] at htext
    have hpos := List.length_pos_iff.mpr htext.1
    cases items with
    | nil =>
      rw [List.map_singleton, List.intercalate_singleton]
      exact hpos
    | cons following items =>
      have hle := ih htext.2
      rw [List.map_cons] at hle
      rw [List.map_cons, List.map_cons, List.intercalate_cons_cons, List.length_append,
        List.length_append, List.length_cons]
      omega

theorem reads_sepBy (hsep : ∀ rest, sep (between ++ rest) = some ((), rest))
    (hitems : ∀ x ∈ items, Reads Follows p (text x) x)
    (hbetween : ∀ rest, Follows (between ++ rest)) (hne : items ≠ [])
    (htext : ∀ x ∈ items, text x ≠ []) :
    Reads (fun rest => Follows rest ∧ sep rest = none) (sepBy sep p)
      (List.intercalate between (items.map text)) items := by
  intro rest hrest
  refine reads_separated hsep hitems hbetween hne ?_ rest hrest
  rw [List.length_append]
  exact Nat.le_trans (length_le_intercalate htext) (Nat.le_add_right _ _)

/-- Where the first item is not read, none is. -/
theorem Fails.sepBy (h : Fails Follows p s) : Fails Follows (sepBy sep p) s := by
  intro rest hrest
  unfold Reader.sepBy
  cases (s ++ rest).length with
  | zero => rfl
  | succ n => rw [separated, h rest hrest, Option.bind_none]

end Separated

end Reader

end PaCopilot.Reading
