/-
The matches of a pattern that takes one character and then as many as it can, such as
`[a-z_][a-z0-9_]*`, and the words of a text: its maximal runs of characters.

The pattern starts at fewer characters than it goes on with, so a match need not begin
where a word does. It ends where a word ends, and only characters that start no match are
left of it in its word (`exists_occurs_of_mem_findall`). With both characters the same the
matches are the words (`Occurs.mem_findall`).
-/
import Mathlib.Data.List.TakeWhile
import Mathlib.Tactic.Common

set_option autoImplicit false

namespace PaCopilot.Words

variable {α : Type} {start part : α → Bool} {text w rest : List α}

/-! ## The matches -/

/-- `findall`: each match, with what follows it. `inside` says that the last character was
in a match. -/
def findall (start part : α → Bool) : Bool → List α → List (List α × List α)
  | _, [] => []
  | true, c :: rest => findall start part (part c) rest
  | false, c :: rest =>
    if start c then
      ((c :: rest).takeWhile part, (c :: rest).dropWhile part) :: findall start part true rest
    else findall start part false rest

theorem findall_inside (c : α) :
    findall start part true (c :: rest) = findall start part (part c) rest := by
  rw [findall]

theorem findall_start {c : α} (h : start c = true) :
    findall start part false (c :: rest) =
      ((c :: rest).takeWhile part, (c :: rest).dropWhile part) :: findall start part true rest := by
  rw [findall, if_pos h]

theorem findall_skip {c : α} (h : start c = false) :
    findall start part false (c :: rest) = findall start part false rest := by
  rw [findall, if_neg (by rw [h]; decide)]

/-! ## The words -/

/-- No word goes on to the left of a place, with `before` in front of it. -/
def BreaksAfter (part : α → Bool) (before : List α) : Prop :=
  ∀ c ∈ before.getLast?, part c = false

/-- No word goes on into `rest`. -/
def BreaksBefore (part : α → Bool) (rest : List α) : Prop :=
  ∀ c ∈ rest.head?, part c = false

/-- `w` is a word of a text, and `rest` follows it there. -/
def Occurs (part : α → Bool) (text w rest : List α) : Prop :=
  ∃ before, text = before ++ (w ++ rest) ∧ BreaksAfter part before ∧
    w ≠ [] ∧ (∀ c ∈ w, part c = true) ∧ BreaksBefore part rest

theorem BreaksAfter.nil : BreaksAfter part [] := by
  intro c hc
  cases hc

theorem BreaksAfter.concat {before : List α} {c : α} (h : part c = false) :
    BreaksAfter part (before ++ [c]) := by
  intro d hd
  rw [List.getLast?_concat, Option.mem_some_iff] at hd
  rw [← hd, h]

theorem BreaksAfter.of_cons {before : List α} {c : α} (h : BreaksAfter part (c :: before)) :
    BreaksAfter part before := by
  cases before with
  | nil => exact .nil
  | cons d before =>
    intro e he
    exact h e (by rwa [List.getLast?_cons_cons])

theorem BreaksBefore.nil : BreaksBefore part [] := by
  intro c hc
  cases hc

theorem BreaksBefore.cons {c : α} (h : part c = false) : BreaksBefore part (c :: rest) := by
  intro d hd
  rw [List.head?_cons, Option.mem_some_iff] at hd
  rw [← hd, h]

theorem BreaksBefore.append {more : List α} (h : BreaksBefore part rest)
    (hmore : BreaksBefore part more) : BreaksBefore part (rest ++ more) := by
  cases rest with
  | nil => exact hmore
  | cons c rest => exact .cons (h c rfl)

/-- The end of a run of characters. -/
theorem BreaksBefore.dropWhile : BreaksBefore part (text.dropWhile part) := by
  intro c hc
  rw [← List.find?_not_eq_head?_dropWhile] at hc
  have hnot := List.find?_some hc
  simpa using hnot

theorem BreaksAfter.append {before front : List α} (hfront : BreaksAfter part front)
    (h : BreaksAfter part before) : BreaksAfter part (front ++ before) := by
  intro c hc
  rw [List.getLast?_append] at hc
  cases hlast : before.getLast? with
  | none =>
    rw [hlast, Option.none_or] at hc
    exact hfront c hc
  | some d =>
    rw [hlast, Option.some_or] at hc
    exact h c (hlast ▸ hc)

/-- A word of a piece is a word of the whole, where no word goes on over the ends of the
piece. -/
theorem Occurs.within {before after : List α} (h : Occurs part text w rest)
    (hbefore : BreaksAfter part before) (hafter : BreaksBefore part after) :
    Occurs part (before ++ (text ++ after)) w (rest ++ after) := by
  obtain ⟨front, rfl, hfront, hne, hall, hrest⟩ := h
  refine ⟨before ++ front, ?_, hbefore.append hfront, hne, hall, hrest.append hafter⟩
  simp only [List.append_assoc]

theorem takeWhile_word (hall : ∀ c ∈ w, part c = true) (hrest : BreaksBefore part rest) :
    (w ++ rest).takeWhile part = w := by
  rw [List.takeWhile_append_of_pos hall]
  cases rest with
  | nil => rw [List.takeWhile_nil, List.append_nil]
  | cons c rest =>
    rw [List.takeWhile_cons_of_neg (by rw [hrest c rfl]; decide), List.append_nil]

theorem dropWhile_word (hall : ∀ c ∈ w, part c = true) (hrest : BreaksBefore part rest) :
    (w ++ rest).dropWhile part = rest := by
  rw [List.dropWhile_append_of_pos hall]
  cases rest with
  | nil => rfl
  | cons c rest => rw [List.dropWhile_cons_of_neg (by rw [hrest c rfl]; decide)]

/-- The words are found. The induction is on the text in front of the word; `inside` says
that its last character was in a word, so at the word itself it is false. -/
theorem mem_findall_append {before : List α} {inside : Bool}
    (hinside : before = [] → inside = false) (hbefore : BreaksAfter part before) (hne : w ≠ [])
    (hall : ∀ c ∈ w, part c = true) (hrest : BreaksBefore part rest) :
    (w, rest) ∈ findall part part inside (before ++ (w ++ rest)) := by
  induction before generalizing inside with
  | nil =>
    obtain ⟨c, tail, rfl⟩ := List.exists_cons_of_ne_nil hne
    have hfirst : part c = true := hall c List.mem_cons_self
    have htake := takeWhile_word hall hrest
    have hdrop := dropWhile_word hall hrest
    rw [List.cons_append] at htake hdrop
    rw [hinside rfl, List.nil_append, List.cons_append, findall_start hfirst, htake, hdrop]
    exact List.mem_cons_self
  | cons c before ih =>
    have hbefore' : BreaksAfter part before := hbefore.of_cons
    have hlast : before = [] → part c = false := by
      rintro rfl
      exact hbefore c rfl
    rw [List.cons_append]
    cases inside with
    | true =>
      rw [findall_inside]
      exact ih hlast hbefore'
    | false =>
      cases hc : part c with
      | true =>
        rw [findall_start hc]
        apply List.mem_cons_of_mem
        exact ih (fun hnil => by rw [hlast hnil] at hc; cases hc) hbefore'
      | false =>
        rw [findall_skip hc]
        exact ih (fun _ => rfl) hbefore'

theorem Occurs.mem_findall (h : Occurs part text w rest) :
    (w, rest) ∈ findall part part false text := by
  obtain ⟨before, rfl, hbefore, hne, hall, hrest⟩ := h
  exact mem_findall_append (fun _ => rfl) hbefore hne hall hrest

/-! ## A match in its word -/

/-- What is left of a place in its word, where no match is under way: characters that start
none. -/
def Reached (start part : α → Bool) (before : List α) : Prop :=
  ∃ front skipped, before = front ++ skipped ∧ BreaksAfter part front ∧
    ∀ c ∈ skipped, part c = true ∧ start c = false

/-- One more character that starts no match. -/
theorem Reached.skip {before : List α} {c : α} (h : Reached start part before)
    (hc : start c = false) : Reached start part (before ++ [c]) := by
  obtain ⟨front, skipped, rfl, hfront, hskipped⟩ := h
  cases hpart : part c with
  | true =>
    refine ⟨front, skipped ++ [c], List.append_assoc .., hfront, ?_⟩
    intro d hd
    rw [List.mem_append, List.mem_singleton] at hd
    rcases hd with hd | rfl
    · exact hskipped d hd
    · exact ⟨hpart, hc⟩
  | false =>
    refine ⟨front ++ skipped ++ [c], [], (List.append_nil _).symm, .concat hpart, ?_⟩
    intro d hd
    cases hd

theorem Reached.fresh {before : List α} {c : α} (hpart : part c = false) :
    Reached start part (before ++ [c]) :=
  ⟨before ++ [c], [], (List.append_nil _).symm, .concat hpart, fun _ hd => by cases hd⟩

/-- The induction is on the text, with what is before it. -/
theorem exists_occurs_of_mem_findall_from (hpart : ∀ c, start c = true → part c = true)
    {before : List α} {inside : Bool} (hbefore : inside = false → Reached start part before)
    (h : (w, rest) ∈ findall start part inside text) :
    ∃ skipped, (∀ c ∈ skipped, start c = false) ∧ (∃ c ∈ w.head?, start c = true) ∧
      Occurs part (before ++ text) (skipped ++ w) rest := by
  induction text generalizing before inside with
  | nil =>
    rw [findall] at h
    cases h
  | cons c text ih =>
    have hshift : before ++ c :: text = before ++ [c] ++ text := by
      rw [List.append_assoc, List.singleton_append]
    cases inside with
    | true =>
      rw [findall_inside] at h
      rw [hshift]
      exact ih (fun hc => .fresh hc) h
    | false =>
      cases hc : start c with
      | false =>
        rw [findall_skip hc] at h
        rw [hshift]
        exact ih (fun _ => (hbefore rfl).skip hc) h
      | true =>
        rw [findall_start hc, List.mem_cons] at h
        rcases h with h | h
        · -- the match begins here
          rw [Prod.mk.injEq] at h
          obtain ⟨rfl, rfl⟩ := h
          have hne : (c :: text).takeWhile part = c :: text.takeWhile part :=
            List.takeWhile_cons_of_pos (hpart c hc)
          obtain ⟨front, skipped, rfl, hfront, hskipped⟩ := hbefore rfl
          refine ⟨skipped, fun d hd => (hskipped d hd).2, ⟨c, by rw [hne]; rfl, hc⟩,
            front, ?_, hfront, ?_, ?_, .dropWhile⟩
          · rw [List.append_assoc skipped, List.takeWhile_append_dropWhile, List.append_assoc]
          · rw [hne]
            simp
          · intro d hd
            rw [List.mem_append] at hd
            rcases hd with hd | hd
            · exact (hskipped d hd).1
            · exact List.mem_takeWhile_imp hd
        · rw [hshift]
          exact ih (fun hfalse => by cases hfalse) h

/-- **A match is the end of a word**, and the characters before it in the word start none. -/
theorem exists_occurs_of_mem_findall (hpart : ∀ c, start c = true → part c = true)
    (h : (w, rest) ∈ findall start part false text) :
    ∃ skipped, (∀ c ∈ skipped, start c = false) ∧ (∃ c ∈ w.head?, start c = true) ∧
      Occurs part text (skipped ++ w) rest := by
  have hfirst : Reached start part [] := ⟨[], [], rfl, .nil, fun _ hd => by cases hd⟩
  exact exists_occurs_of_mem_findall_from hpart (fun _ => hfirst) h

end PaCopilot.Words
