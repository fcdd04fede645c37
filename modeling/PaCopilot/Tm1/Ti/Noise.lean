/-
The three strippers of TI code.

`tm1/ti/parser.py` and `tm1/functions/__init__.py` blank out literals and comments with a
regular expression over the whole code; `ti_analysis` cuts them out of one line at a time. Here
a code is read once, and each character is placed in the code, in a literal or in a comment.
Where each literal is closed the expression blanks exactly what is not code (`mask_eq`), and
where literals close on their lines a line that is cut differs from a line that is blanked in
its white space alone (`respaced_strip_noise`).
-/
import Mathlib.Data.Bool.AllAny
import PaCopilot.Change.Legitimate

set_option autoImplicit false

namespace PaCopilot.ti

open Python (isspace)
open rules (Text splitlines isLineBreak)
open ti_analysis (Reading isIdPart opensCall)

/-! ## The regular expression -/

/-- `(?:[^']|'')*'` at the front of a text: how long the match is. Where the literal is never
closed the expression goes back to the first quote of the last doubled one. -/
def literalEnd : Text → Option ℕ
  | [] => none
  | '\'' :: '\'' :: rest => some ((literalEnd rest).elim 1 (· + 2))
  | c :: rest => if c == '\'' then some 1 else (literalEnd rest).map (· + 1)

/-- `_NOISE` at the front of a text: how long the match is, zero where there is none. -/
def _NOISE : Text → ℕ
  | [] => 0
  | c :: rest =>
    if c == '\'' then (literalEnd rest).elim 0 (· + 1)
    else if c == '#' then (rest.takeWhile (· != '\n')).length + 1
    else 0

/-- What stands in the place of a character of a match. -/
def blank (c : Char) : Char := if c == '\n' then '\n' else ' '

/-- `_NOISE.sub(blank, code)`, with so many characters of a match left. -/
def subNoise : ℕ → Text → Text
  | _, [] => []
  | n + 1, c :: rest => blank c :: subNoise n rest
  | 0, c :: rest =>
    match _NOISE (c :: rest) with
    | 0 => c :: subNoise 0 rest
    | n + 1 => blank c :: subNoise n rest

namespace parser

def _mask (code : Text) : Text := subNoise 0 code

end parser

namespace functions

/-- The expression is `_NOISE_PATTERN` there, and the same. -/
def _strip_noise (code : Text) : Text := subNoise 0 code

end functions

/-! ### What it leaves of a text -/

theorem subNoise_matched (body rest : Text) :
    subNoise body.length (body ++ rest) = body.map blank ++ subNoise 0 rest := by
  induction body with
  | nil => rfl
  | cons c body ih =>
    rw [List.length_cons, List.cons_append, subNoise, ih]
    rfl

theorem subNoise_code {c : Char} {rest : Text} (h : _NOISE (c :: rest) = 0) :
    subNoise 0 (c :: rest) = c :: subNoise 0 rest := by
  rw [subNoise, h]

theorem subNoise_match {c : Char} {rest : Text} {n : ℕ} (h : _NOISE (c :: rest) = n + 1) :
    subNoise 0 (c :: rest) = blank c :: subNoise n rest := by
  rw [subNoise, h]

theorem blank_newline_iff (c : Char) : blank c = '\n' ↔ c = '\n' := by
  unfold blank
  by_cases hc : c = '\n'
  · rw [if_pos (beq_iff_eq.mpr hc)]
    exact iff_of_true rfl hc
  · rw [if_neg (by simpa using hc)]
    exact iff_of_false (by decide) hc

/-- Each character is left as it is, or blanked. -/
theorem subNoise_forall (n : ℕ) (code : Text) :
    List.Forall₂ (fun left c => left = c ∨ left = blank c) (subNoise n code) code := by
  fun_induction subNoise n code with
  | case1 => exact .nil
  | case2 n c rest ih => exact .cons (.inr rfl) ih
  | case3 c rest h ih => exact .cons (.inl rfl) ih
  | case4 c rest n h ih => exact .cons (.inr rfl) ih

/-- A newline stays where it is, and none is new. -/
theorem getElem?_newline_iff {left code : Text}
    (h : List.Forall₂ (fun left c => left = c ∨ left = blank c) left code) (i : ℕ) :
    left[i]? = some '\n' ↔ code[i]? = some '\n' := by
  induction h generalizing i with
  | nil => rfl
  | cons hfirst hrest ih =>
    cases i with
    | zero =>
      rw [List.getElem?_cons_zero, List.getElem?_cons_zero, Option.some.injEq, Option.some.injEq]
      rcases hfirst with rfl | rfl
      · rfl
      · exact blank_newline_iff _
    | succ i =>
      rw [List.getElem?_cons_succ, List.getElem?_cons_succ]
      exact ih i

/-! ## A code read as a whole -/

/-- What a character is part of. The quotes of a literal belong to it, the newline after a
comment does not. -/
def part (c : Char) : Reading → Reading
  | .code => if c == '\'' then .literal else if c == '#' then .comment else .code
  | .literal => .literal
  | .comment => if c == '\n' then .code else .comment

/-- Where the reader is after a character. -/
def next (c : Char) : Reading → Reading
  | .code => if c == '\'' then .literal else if c == '#' then .comment else .code
  | .literal => if c == '\'' then .code else .literal
  | .comment => if c == '\n' then .code else .comment

/-- The characters of a text, each with what it is part of. -/
def placed : Reading → Text → List (Char × Reading)
  | _, [] => []
  | reading, c :: rest => (c, part c reading) :: placed (next c reading) rest

/-- Where the reader is at the end of a text. -/
def readTo (reading : Reading) (text : Text) : Reading :=
  text.foldl (fun reading c => next c reading) reading

/-- The only line breaks are newlines, and each literal closes on the line it opens on. -/
structure ClosedLines (code : Text) : Prop where
  newline : ∀ c ∈ code, isLineBreak c = true → c = '\n'
  literal : ∀ m ∈ placed .code code, m.2 = .literal → m.1 ≠ '\n'
  closed : readTo .code code ≠ .literal

/-- What is left of a character: itself in the code, a blank elsewhere. -/
def shown (m : Char × Reading) : Char := if m.2 = .code then m.1 else blank m.1

@[simp] theorem readTo_cons (reading : Reading) (c : Char) (rest : Text) :
    readTo reading (c :: rest) = readTo (next c reading) rest := rfl

theorem placed_append (reading : Reading) (s t : Text) :
    placed reading (s ++ t) = placed reading s ++ placed (readTo reading s) t := by
  induction s generalizing reading with
  | nil => rfl
  | cons c s ih => rw [List.cons_append, placed, placed, ih, readTo_cons, List.cons_append]

theorem readTo_append (reading : Reading) (s t : Text) :
    readTo reading (s ++ t) = readTo (readTo reading s) t := List.foldl_append ..

theorem map_fst_placed (reading : Reading) (s : Text) : (placed reading s).map Prod.fst = s := by
  induction s generalizing reading with
  | nil => rfl
  | cons c s ih => rw [placed, List.map_cons, ih]

/-- Nothing of a stretch is code. -/
theorem shown_noise {body : List (Char × Reading)} (h : ∀ m ∈ body, m.2 ≠ .code) :
    body.map shown = (body.map Prod.fst).map blank := by
  rw [List.map_map]
  apply List.map_congr_left
  intro m hm
  exact if_neg (h m hm)

/-! ### A literal and a comment -/

/-- A literal that is closed somewhere is matched up to where the reader leaves it. -/
theorem literalEnd_spec {s : Text} (h : readTo .literal s ≠ .literal) :
    ∃ body rest, s = body ++ rest ∧ literalEnd s = some body.length ∧
      (∀ m ∈ placed .literal body, m.2 ≠ .code) ∧ readTo .literal body = .code := by
  fun_induction literalEnd s with
  | case1 => exact absurd rfl h
  | case2 rest ih =>
    -- a doubled quote: the reader leaves the literal and is in it again
    obtain ⟨body, after, rfl, hend, hbody, hread⟩ := ih h
    refine ⟨'\'' :: '\'' :: body, after, rfl, ?_, ?_, hread⟩
    · rw [hend]
      rfl
    · intro m hm
      rw [placed, placed, List.mem_cons, List.mem_cons] at hm
      rcases hm with rfl | rfl | hm
      · decide
      · decide
      · exact hbody m hm
  | case3 c rest hpair hc =>
    -- the quote that closes it
    rw [beq_iff_eq] at hc
    subst hc
    refine ⟨['\''], rest, rfl, rfl, ?_, rfl⟩
    intro m hm
    rw [placed, placed, List.mem_singleton] at hm
    rw [hm]
    decide
  | case4 c rest hpair hc ih =>
    have hnext : next c .literal = .literal := if_neg hc
    rw [readTo_cons, hnext] at h
    obtain ⟨body, after, rfl, hend, hbody, hread⟩ := ih h
    refine ⟨c :: body, after, rfl, ?_, ?_, ?_⟩
    · rw [hend]
      rfl
    · intro m hm
      rw [placed, hnext, List.mem_cons] at hm
      rcases hm with rfl | hm
      · exact Reading.noConfusion
      · exact hbody m hm
    · rw [readTo_cons, hnext, hread]

/-- A comment goes on to the end of its line. -/
theorem comment_spec {body : Text} (h : '\n' ∉ body) :
    (∀ m ∈ placed .comment body, m.2 ≠ .code) ∧ readTo .comment body = .comment := by
  induction body with
  | nil => exact ⟨fun _ hm => absurd hm List.not_mem_nil, rfl⟩
  | cons c body ih =>
    rw [List.mem_cons, not_or] at h
    have hc : (c == '\n') = false := beq_false_of_ne fun heq => h.1 heq.symm
    have hpart : part c .comment = .comment := if_neg (by rw [hc]; decide)
    have hnext : next c .comment = .comment := if_neg (by rw [hc]; decide)
    obtain ⟨hbody, hread⟩ := ih h.2
    refine ⟨?_, by rw [readTo_cons, hnext, hread]⟩
    intro m hm
    rw [placed, hpart, hnext, List.mem_cons] at hm
    rcases hm with rfl | hm
    · exact Reading.noConfusion
    · exact hbody m hm

theorem noise_literal (rest : Text) :
    _NOISE ('\'' :: rest) = (literalEnd rest).elim 0 (· + 1) := rfl

theorem noise_comment (rest : Text) :
    _NOISE ('#' :: rest) = (rest.takeWhile (· != '\n')).length + 1 := rfl

/-- A comment, and what follows it. -/
theorem comment_line (rest : Text) :
    ∃ body after, rest = body ++ after ∧ '\n' ∉ body ∧
      _NOISE ('#' :: (body ++ after)) = body.length + 1 ∧
      (after = [] ∨ ∃ more, after = '\n' :: more) := by
  have hsplit := List.takeWhile_append_dropWhile (p := (· != '\n')) (l := rest)
  refine ⟨rest.takeWhile (· != '\n'), rest.dropWhile (· != '\n'), hsplit.symm, ?_, ?_, ?_⟩
  · intro hmem
    have hne := List.mem_takeWhile_imp hmem
    exact absurd rfl (bne_iff_ne.mp hne)
  · rw [hsplit, noise_comment]
  · cases hdrop : rest.dropWhile (· != '\n') with
    | nil => exact .inl rfl
    | cons c more =>
      have hbreak : Words.BreaksBefore (· != '\n') (rest.dropWhile (· != '\n')) := .dropWhile
      have hc := hbreak c (by rw [hdrop]; rfl)
      have hnewline : c = '\n' := by simpa using hc
      exact .inr ⟨more, by rw [hnewline]⟩

theorem noise_code {c : Char} (rest : Text) (hquote : c ≠ '\'') (hhash : c ≠ '#') :
    _NOISE (c :: rest) = 0 := by
  rw [_NOISE, if_neg (by simpa using hquote), if_neg (by simpa using hhash)]

theorem next_code {c : Char} (hquote : c ≠ '\'') (hhash : c ≠ '#') : next c .code = .code := by
  rw [next, if_neg (by simpa using hquote), if_neg (by simpa using hhash)]

theorem part_code {c : Char} (hquote : c ≠ '\'') (hhash : c ≠ '#') : part c .code = .code := by
  rw [part, if_neg (by simpa using hquote), if_neg (by simpa using hhash)]

/-- **What the expression leaves**, of a text whose last literal is closed: the code, with
blanks for the rest. -/
theorem mask_eq {code : Text} (h : readTo .code code ≠ .literal) :
    subNoise 0 code = (placed .code code).map shown := by
  induction hn : code.length using Nat.strong_induction_on generalizing code with
  | h n ih =>
    cases code with
    | nil => rfl
    | cons c rest =>
      rw [List.length_cons] at hn
      by_cases hquote : c = '\''
      · subst hquote
        have hnext : next '\'' .code = .literal := rfl
        rw [readTo_cons, hnext] at h
        obtain ⟨body, after, rfl, hend, hbody, hread⟩ := literalEnd_spec h
        rw [readTo_append, hread] at h
        have hmatch : _NOISE ('\'' :: (body ++ after)) = body.length + 1 := by
          rw [noise_literal, hend]
          rfl
        have hlt : after.length < n := by
          rw [List.length_append] at hn
          omega
        rw [subNoise_match hmatch, subNoise_matched, ih _ hlt h rfl, placed, hnext,
          placed_append, hread, List.map_cons, List.map_append, shown_noise hbody, map_fst_placed]
        rfl
      · by_cases hhash : c = '#'
        · subst hhash
          have hnext : next '#' .code = .comment := rfl
          rw [readTo_cons, hnext] at h
          obtain ⟨body, after, rfl, hline, hmatch, hafter⟩ := comment_line rest
          obtain ⟨hbody, hread⟩ := comment_spec hline
          rw [readTo_append, hread] at h
          have hlt : after.length < n := by
            rw [List.length_append] at hn
            omega
          -- a newline is code, for a reader of a comment as for a reader of code
          have hcode : readTo .code after ≠ .literal ∧
              placed .comment after = placed .code after := by
            rcases hafter with rfl | ⟨more, rfl⟩
            · exact ⟨Reading.noConfusion, rfl⟩
            · exact ⟨h, rfl⟩
          rw [subNoise_match hmatch, subNoise_matched, ih _ hlt hcode.1 rfl, placed, hnext,
            placed_append, hread, hcode.2, List.map_cons, List.map_append, shown_noise hbody,
            map_fst_placed]
          rfl
        · rw [subNoise_code (noise_code rest hquote hhash), placed, part_code hquote hhash,
            next_code hquote hhash, List.map_cons]
          rw [readTo_cons, next_code hquote hhash] at h
          rw [ih rest.length (by omega) h rfl]
          rfl

/-! ## Blanks do not count -/

/-- A text with more blanks, each before white space or at the end. -/
inductive Respaced : Text → Text → Prop
  | nil : Respaced [] []
  | cons (c : Char) {s t : Text} (h : Respaced s t) : Respaced (c :: s) (c :: t)
  | blank {s t : Text} (hspace : ∀ c ∈ t.head?, isspace c = true) (h : Respaced s t) :
      Respaced (' ' :: s) t

/-- The names of a text, each with its line and whether a parenthesis follows it. -/
def sightings (start : Char → Bool) (text : Text) : List (Text × ℕ × Bool) :=
  (Words.findall start isIdPart false text).map fun found =>
    (found.1, 1 + (text.count '\n' - found.2.count '\n'), opensCall found.2)

theorem Respaced.refl (s : Text) : Respaced s s := by
  induction s with
  | nil => exact .nil
  | cons c s ih => exact .cons c ih

theorem Respaced.blanks (n : ℕ) : Respaced (List.replicate n ' ') [] := by
  induction n with
  | zero => exact .nil
  | succ n ih => exact .blank (fun c hc => by cases hc) ih

theorem Respaced.append {s t s' t' : Text} (h : Respaced s t) (h' : Respaced s' t')
    (hspace : ∀ c ∈ t'.head?, isspace c = true) : Respaced (s ++ s') (t ++ t') := by
  induction h with
  | nil => exact h'
  | cons c h ih => exact .cons c ih
  | blank ht h ih =>
    refine .blank (fun c hc => ?_) ih
    rw [List.head?_append] at hc
    rename_i t
    cases t with
    | nil => exact hspace c hc
    | cons d t => exact ht c hc

/-- The characters of a name, by their numbers. -/
theorem toNat_of_isIdPart {c : Char} (h : isIdPart c = true) :
    (48 ≤ c.toNat ∧ c.toNat ≤ 57) ∨ (65 ≤ c.toNat ∧ c.toNat ≤ 90) ∨
      (97 ≤ c.toNat ∧ c.toNat ≤ 122) ∨ c.toNat = 95 := by
  rw [isIdPart, Bool.or_eq_true, beq_iff_eq] at h
  rcases h with h | rfl
  · rcases Bool.or_eq_true_iff.mp h with halpha | hdigit
    · rcases Bool.or_eq_true_iff.mp halpha with hupper | hlower
      · exact .inr (.inl (of_decide_eq_true hupper))
      · have hrange := Bool.and_eq_true_iff.mp hlower
        exact .inr (.inr (.inl ⟨of_decide_eq_true hrange.1, of_decide_eq_true hrange.2⟩))
    · have hrange := Bool.and_eq_true_iff.mp hdigit
      exact .inl ⟨of_decide_eq_true hrange.1, of_decide_eq_true hrange.2⟩
  · exact .inr (.inr (.inr rfl))

theorem isIdPart_of_isspace {c : Char} (h : isspace c = true) : isIdPart c = false := by
  by_contra hpart
  have hrange := toNat_of_isIdPart (Bool.not_eq_false _ ▸ hpart)
  simp only [isspace, Bool.or_eq_true, Bool.and_eq_true, decide_eq_true_eq, beq_iff_eq] at h
  omega

theorem Respaced.count {s t : Text} (h : Respaced s t) : s.count '\n' = t.count '\n' := by
  induction h with
  | nil => rfl
  | cons c h ih => rw [List.count_cons, List.count_cons, ih]
  | blank hspace h ih => rw [List.count_cons_of_ne (by decide), ih]

theorem Respaced.opensCall {s t : Text} (h : Respaced s t) : opensCall s = opensCall t := by
  induction h with
  | nil => rfl
  | cons c h ih =>
    rename_i s t
    unfold ti_analysis.opensCall at ih ⊢
    cases hc : isspace c with
    | true => rw [List.dropWhile_cons_of_pos hc, List.dropWhile_cons_of_pos hc, ih]
    | false =>
      rw [List.dropWhile_cons_of_neg (by simp [hc]), List.dropWhile_cons_of_neg (by simp [hc])]
      rfl
  | blank hspace h ih =>
    rw [← ih]
    unfold ti_analysis.opensCall
    rw [List.dropWhile_cons_of_pos (by decide)]

/-- The name at the front of a text, and what follows it. -/
theorem Respaced.name {s t : Text} (h : Respaced s t) :
    s.takeWhile isIdPart = t.takeWhile isIdPart ∧
      Respaced (s.dropWhile isIdPart) (t.dropWhile isIdPart) := by
  induction h with
  | nil => exact ⟨rfl, .nil⟩
  | cons c h ih =>
    cases hc : isIdPart c with
    | true =>
      rw [List.takeWhile_cons_of_pos hc, List.takeWhile_cons_of_pos hc,
        List.dropWhile_cons_of_pos hc, List.dropWhile_cons_of_pos hc, ih.1]
      exact ⟨rfl, ih.2⟩
    | false =>
      have hneg : ¬ isIdPart c = true := by simp [hc]
      rw [List.takeWhile_cons_of_neg hneg, List.takeWhile_cons_of_neg hneg,
        List.dropWhile_cons_of_neg hneg, List.dropWhile_cons_of_neg hneg]
      exact ⟨rfl, .cons c h⟩
  | blank hspace h ih =>
    rename_i s t
    have hneg : ¬ isIdPart ' ' = true := by decide
    rw [List.takeWhile_cons_of_neg hneg, List.dropWhile_cons_of_neg hneg]
    cases t with
    | nil => exact ⟨rfl, .blank hspace h⟩
    | cons d t =>
      have hd : ¬ isIdPart d = true := by simp [isIdPart_of_isspace (hspace d rfl)]
      rw [List.takeWhile_cons_of_neg hd, List.dropWhile_cons_of_neg hd]
      exact ⟨rfl, .blank hspace h⟩

/-- Before white space it does not matter whether the last character was in a name. -/
theorem findall_space {start : Char → Bool} (hstart : ∀ c, start c = true → isIdPart c = true)
    {t : Text} (hspace : ∀ c ∈ t.head?, isspace c = true) :
    Words.findall start isIdPart true t = Words.findall start isIdPart false t := by
  cases t with
  | nil => rfl
  | cons d t =>
    have hpart := isIdPart_of_isspace (hspace d rfl)
    have hskip : start d = false := by
      by_contra h
      rw [Bool.not_eq_false] at h
      rw [hstart d h] at hpart
      cases hpart
    rw [Words.findall_inside, hpart, Words.findall_skip hskip]

theorem Respaced.findall {start : Char → Bool} (hstart : ∀ c, start c = true → isIdPart c = true)
    {s t : Text} (h : Respaced s t) (inside : Bool) :
    List.Forall₂ (fun found found' => found.1 = found'.1 ∧ Respaced found.2 found'.2)
      (Words.findall start isIdPart inside s) (Words.findall start isIdPart inside t) := by
  induction h generalizing inside with
  | nil => cases inside <;> exact .nil
  | cons c h ih =>
    cases inside with
    | true =>
      rw [Words.findall_inside, Words.findall_inside]
      exact ih _
    | false =>
      cases hc : start c with
      | true =>
        rw [Words.findall_start hc, Words.findall_start hc]
        exact .cons (Respaced.cons c h).name (ih _)
      | false =>
        rw [Words.findall_skip hc, Words.findall_skip hc]
        exact ih _
  | blank hspace h ih =>
    have hblank : start ' ' = false := by
      by_contra hstartblank
      rw [Bool.not_eq_false] at hstartblank
      exact absurd (hstart ' ' hstartblank) (by decide)
    cases inside with
    | true =>
      rw [Words.findall_inside, findall_space hstart hspace]
      exact ih _
    | false =>
      rw [Words.findall_skip hblank]
      exact ih _

/-- **Blanks do not count.** -/
theorem Respaced.sightings {start : Char → Bool} (hstart : ∀ c, start c = true → isIdPart c = true)
    {s t : Text} (h : Respaced s t) : sightings start s = sightings start t := by
  unfold ti.sightings
  rw [h.count, ← List.forall₂_eq_eq_eq, List.forall₂_map_left_iff, List.forall₂_map_right_iff]
  refine (h.findall hstart false).imp fun found found' hfound => ?_
  rw [hfound.1, hfound.2.count, hfound.2.opensCall]

/-! ## Line by line -/

/-- The blank that the opening quote left, in a string. -/
def opened (inString : Bool) : Text := if inString then [' '] else []

theorem blank_eq {c : Char} (h : c ≠ '\n') : blank c = ' ' := by
  rw [blank, if_neg (by simpa using h)]

/-- One more blank after the one of the opening quote. -/
theorem Respaced.more {s t : Text} (h : Respaced (' ' :: s) (' ' :: t)) :
    Respaced (' ' :: ' ' :: s) (' ' :: t) :=
  .blank (fun c hc => by rw [← Option.some.inj hc]; decide) h

/-- **A line that is cut and a line that is blanked** differ in blanks alone. -/
theorem respaced_strip_noise (inString : Bool) {line : Text} (hline : '\n' ∉ line) :
    Respaced (opened inString ++ (placed (ti_analysis.readingOf inString) line).map shown)
      (opened inString ++ ti_analysis._strip_noise inString line) := by
  fun_induction ti_analysis._strip_noise inString line with
  | case1 => exact .refl _
  | case2 rest ih =>
    rw [List.mem_cons, List.mem_cons, not_or, not_or] at hline
    exact (ih hline.2.2).more.more
  | case3 c rest hpair ih =>
    rw [List.mem_cons, not_or] at hline
    have hne : c ≠ '\n' := fun h => hline.1 h.symm
    have ih := ih hline.2
    have hshown : (placed .literal (c :: rest)).map shown
        = ' ' :: (placed (next c .literal) rest).map shown := by
      rw [placed, List.map_cons, shown, if_neg Reading.noConfusion, blank_eq hne]
    show Respaced (' ' :: (placed .literal (c :: rest)).map shown) _
    rw [hshown]
    by_cases hc : c = '\''
    · -- the string closes
      subst hc
      exact (Respaced.cons ' ' ih).more
    · have hbne : (c != '\'') = true := bne_iff_ne.mpr hc
      have hnext : next c .literal = .literal := if_neg (by simpa using hc)
      rw [hbne] at ih ⊢
      rw [hnext]
      exact ih.more
  | case4 c rest hc ih =>
    rw [List.mem_cons, not_or] at hline
    rw [beq_iff_eq] at hc
    subst hc
    exact ih hline.2
  | case5 c rest hc hhash =>
    rw [List.mem_cons, not_or] at hline
    rw [beq_iff_eq] at hhash
    subst hhash
    obtain ⟨hbody, -⟩ := comment_spec hline.2
    have hblanks : (placed .code ('#' :: rest)).map shown
        = List.replicate (rest.length + 1) ' ' := by
      have hrest : ((placed .comment rest).map shown) = List.replicate rest.length ' ' := by
        rw [shown_noise hbody, map_fst_placed, List.eq_replicate_iff]
        refine ⟨List.length_map _, fun d hd => ?_⟩
        obtain ⟨c, hc, rfl⟩ := List.mem_map.mp hd
        exact blank_eq fun h => hline.2 (h ▸ hc)
      rw [placed, List.map_cons, show next '#' .code = .comment from rfl, hrest]
      rfl
    show Respaced ((placed .code ('#' :: rest)).map shown) []
    rw [hblanks]
    exact .blanks _
  | case6 c rest hc hhash ih =>
    rw [List.mem_cons, not_or] at hline
    have hquote : c ≠ '\'' := by simpa using hc
    have hcomment : c ≠ '#' := by simpa using hhash
    show Respaced ((placed .code (c :: rest)).map shown) (c :: ti_analysis._strip_noise false rest)
    rw [placed, part_code hquote hcomment, next_code hquote hcomment]
    exact .cons c (ih hline.2)

/-- Where literals close on their lines, a line ends outside of them. -/
theorem ClosedLines.first {line more : Text} (h : ClosedLines (line ++ '\n' :: more)) :
    placed (readTo .code line) ('\n' :: more) = ('\n', .code) :: placed .code more ∧
      ClosedLines more := by
  have hplaced := placed_append .code line ('\n' :: more)
  have hne : readTo .code line ≠ .literal := by
    intro hread
    rw [hread] at hplaced
    refine h.literal ('\n', .literal) ?_ rfl rfl
    rw [hplaced]
    exact List.mem_append_right _ List.mem_cons_self
  have hsplit : placed (readTo .code line) ('\n' :: more) = ('\n', .code) :: placed .code more ∧
      readTo (readTo .code line) ('\n' :: more) = readTo .code more := by
    cases hread : readTo .code line with
    | literal => exact absurd hread hne
    | code => exact ⟨rfl, rfl⟩
    | comment => exact ⟨rfl, rfl⟩
  refine ⟨hsplit.1, fun c hc => ?_, fun m hm => ?_, ?_⟩
  · exact h.newline c (List.mem_append_right _ (List.mem_cons_of_mem _ hc))
  · refine h.literal m ?_
    rw [hplaced, hsplit.1]
    exact List.mem_append_right _ (List.mem_cons_of_mem _ hm)
  · have hclosed := h.closed
    rwa [readTo_append, hsplit.2] at hclosed

/-- The line breaks of what the expression leaves are those of the code. -/
theorem splitlines_line {line : Text} (hline : ∀ c ∈ line, isLineBreak c = false) (more : Text) :
    splitlines (line ++ '\n' :: more) = line :: splitlines more := by
  induction line with
  | nil =>
    have hcr : ∀ after, '\n' = '\r' → more = '\n' :: after → False := by
      intro after hcr
      cases hcr
    rw [List.nil_append, rules.splitlines_cons hcr, if_pos (by decide)]
  | cons c line ih =>
    rw [List.forall_mem_cons] at hline
    have hcr : ∀ after, c = '\r' → line ++ '\n' :: more = '\n' :: after → False := by
      rintro after rfl -
      exact absurd hline.1 (by decide)
    rw [List.cons_append, rules.splitlines_cons hcr, if_neg (by rw [hline.1]; decide),
      ih hline.2]
    rfl

theorem splitlines_single {line : Text} (hline : ∀ c ∈ line, isLineBreak c = false)
    (hne : line ≠ []) : splitlines line = [line] := by
  induction line with
  | nil => exact absurd rfl hne
  | cons c line ih =>
    rw [List.forall_mem_cons] at hline
    have hcr : ∀ after, c = '\r' → line = '\n' :: after → False := by
      rintro after rfl -
      exact absurd hline.1 (by decide)
    rw [rules.splitlines_cons hcr, if_neg (by rw [hline.1]; decide)]
    by_cases hnil : line = []
    · rw [hnil]
      rfl
    · rw [ih hline.2 hnil]
      rfl

/-- A line has no break, and what is left of it has none. -/
theorem not_isLineBreak_shown {line : Text} (hline : ∀ c ∈ line, isLineBreak c = false) :
    ∀ c ∈ (placed .code line).map shown, isLineBreak c = false := by
  intro c hc
  obtain ⟨m, hm, rfl⟩ := List.mem_map.mp hc
  have hmem : m.1 ∈ line := by
    rw [← map_fst_placed .code line]
    exact List.mem_map_of_mem hm
  unfold shown
  split
  · exact hline _ hmem
  · have hbreak := hline _ hmem
    rw [blank_eq]
    · decide
    · intro heq
      rw [heq] at hbreak
      cases hbreak

/-- **The lines** that are blanked are the lines that are cut, but for blanks. -/
theorem ClosedLines.respaced {code : Text} (h : ClosedLines code) :
    List.Forall₂ (fun masked line => Respaced masked (ti_analysis._strip_noise false line))
      (splitlines ((placed .code code).map shown)) (splitlines code) := by
  induction hn : code.length using Nat.strong_induction_on generalizing code with
  | h n ih =>
    by_cases hne : code = []
    · subst hne
      exact .nil
    obtain ⟨line, after, rfl, hline, hlines⟩ := ti_analysis.splitlines_first h.newline hne
    have hbreak : ∀ c ∈ line, isLineBreak c = false := by
      intro c hc
      by_contra hc'
      rw [Bool.not_eq_false] at hc'
      have hnewline := h.newline c (List.mem_append_left _ hc) hc'
      exact hline (hnewline ▸ hc)
    have hfirst : Respaced ((placed .code line).map shown) (ti_analysis._strip_noise false line) :=
      respaced_strip_noise false hline
    -- the last line, or one that is followed by a newline in code
    rcases hlines with ⟨rfl, hlines⟩ | ⟨more, rfl, hlines⟩
    · rw [hlines]
      rw [List.append_nil] at hne ⊢
      rw [splitlines_single (not_isLineBreak_shown hbreak)]
      · exact .cons hfirst .nil
      · intro hnil
        apply hne
        rw [← map_fst_placed .code line, List.map_eq_nil_iff.mp hnil]
        rfl
    · obtain ⟨hplaced, hmore⟩ := h.first
      have hlt : more.length < n := by
        rw [← hn, List.length_append, List.length_cons]
        omega
      rw [hlines, placed_append, hplaced, List.map_append, List.map_cons,
        show shown ('\n', .code) = '\n' from rfl, splitlines_line (not_isLineBreak_shown hbreak)]
      exact .cons hfirst (ih _ hlt hmore rfl)

/-- The same for the lines together. -/
theorem Respaced.intercalate {masked cut : List Text} (h : List.Forall₂ Respaced masked cut) :
    Respaced (List.intercalate ['\n'] masked) (List.intercalate ['\n'] cut) := by
  induction h with
  | nil => exact .nil
  | cons hfirst hrest ih =>
    cases hrest with
    | nil =>
      rw [List.intercalate_singleton, List.intercalate_singleton]
      exact hfirst
    | cons hnext hrest =>
      rw [List.intercalate_cons_cons, List.intercalate_cons_cons, List.append_assoc,
        List.append_assoc]
      refine hfirst.append (.cons '\n' ih) fun c hc => ?_
      rw [← Option.some.inj hc]
      decide

/-- A name that is left is code, letter by letter. -/
theorem code_of_mem_findall {start : Char → Bool} (hstart : ∀ c, start c = true → isIdPart c = true)
    {code : Text} {found : Text × Text}
    (h : found ∈ Words.findall start isIdPart false ((placed .code code).map shown)) :
    ∃ before after, placed .code code
        = before ++ (found.1.map fun c => (c, Reading.code)) ++ after ∧
      after.length = found.2.length := by
  obtain ⟨skipped, -, -, before, hsplit, -, -, hall, -⟩ :=
    Words.exists_occurs_of_mem_findall hstart h
  rw [List.append_assoc skipped, ← List.append_assoc before, List.map_eq_append_iff] at hsplit
  obtain ⟨front, back, hplaced, -, hback⟩ := hsplit
  rw [List.map_eq_append_iff] at hback
  obtain ⟨name, after, rfl, hname, hafter⟩ := hback
  have hcode : (found.1.map fun c => (c, Reading.code)) = name := by
    rw [← hname, List.map_map]
    refine (List.map_congr_left fun m hm => ?_).trans (List.map_id _)
    have hpart : isIdPart (shown m) = true := by
      apply hall
      rw [← hname]
      exact List.mem_append_right _ (List.mem_map_of_mem hm)
    -- a blank is no part of a name
    by_cases hm2 : m.2 = .code
    · show (shown m, Reading.code) = m
      rw [shown, if_pos hm2, ← hm2]
    · rw [shown, if_neg hm2, blank] at hpart
      split at hpart
      · exact absurd hpart (by decide)
      · exact absurd hpart (by decide)
  refine ⟨front, after, by rw [hplaced, hcode, List.append_assoc], ?_⟩
  rw [← hafter, List.length_map]

/-! ## The three together -/

/-- **The strippers agree** on code whose literals close on their lines: each line has the same
names and calls however it is stripped, and so have the lines together. The expressions keep
the length and each newline, and a name that is left is code. -/
theorem strippers_agree {code : Text} (h : ClosedLines code) :
    functions._strip_noise code = parser._mask code ∧
      (parser._mask code).length = code.length ∧
      (∀ i : ℕ, (parser._mask code)[i]? = some '\n' ↔ code[i]? = some '\n') ∧
      ∀ start : Char → Bool, (∀ c, start c = true → isIdPart c = true) →
        (splitlines (parser._mask code)).map (sightings start)
            = (splitlines code).map
              (fun line => sightings start (ti_analysis._strip_noise false line)) ∧
          sightings start (List.intercalate ['\n'] (splitlines (parser._mask code)))
            = sightings start (List.intercalate ['\n']
              ((splitlines code).map (ti_analysis._strip_noise false))) ∧
          ∀ found ∈ Words.findall start isIdPart false (parser._mask code),
            ∃ before after, placed .code code
                = before ++ (found.1.map fun c => (c, Reading.code)) ++ after ∧
              after.length = found.2.length := by
  have hlength := (subNoise_forall 0 code).length_eq
  have hmask : parser._mask code = (placed .code code).map shown := mask_eq h.closed
  refine ⟨rfl, hlength, fun i => ?_, fun start hstart => ?_⟩
  · exact getElem?_newline_iff (subNoise_forall 0 code) i
  · rw [hmask]
    refine ⟨?_, ?_, fun found hfound => code_of_mem_findall hstart hfound⟩
    · rw [← List.forall₂_eq_eq_eq, List.forall₂_map_left_iff, List.forall₂_map_right_iff]
      exact h.respaced.imp fun masked line hline => hline.sightings hstart
    · refine (Respaced.intercalate ?_).sightings hstart
      rw [List.forall₂_map_right_iff]
      exact h.respaced

/-- A code with a doubled quote, a `#` in a literal and a quote in a comment. -/
def quoted : Text := "sMask = '#,##0'; # don't\nASCIIOutput( 'it''s', sMask );".toList

/-- `strippers_agree` of it. -/
theorem quoted_agrees :
    ClosedLines quoted ∧
      (splitlines (parser._mask quoted)).map (sightings ti_analysis.isIdStart)
        = (splitlines quoted).map
          (fun line => sightings ti_analysis.isIdStart (ti_analysis._strip_noise false line)) := by
  have hclosed : ClosedLines quoted := by
    refine ⟨List.all_iff_forall_prop.mp (by decide +kernel),
      List.all_iff_forall_prop.mp (by decide +kernel), by decide +kernel⟩
  exact ⟨hclosed, ((strippers_agree hclosed).2.2.2 _ ti_analysis.isIdPart_of_isIdStart).1⟩

end PaCopilot.ti
