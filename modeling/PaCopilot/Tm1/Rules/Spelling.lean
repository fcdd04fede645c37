/-
A rule text and the same text with letters in another case.

The parser looks at no letter, except through `str.upper` for the words of the rules
language. So it cuts both texts at the same places, and what it finds in one is what it
finds in the other up to the spelling. The analysis then compares names as they are
spelled. Only `trace_cell` asks for lower case, when it looks for the statements that apply.
-/
import PaCopilot.Lib.Alike
import PaCopilot.Tm1.Rules.Analysis

set_option autoImplicit false

namespace PaCopilot.rules

open Python (isspace strip)
open List (Forall₂)

/-! ## Spellings -/

/-- A character that the rules language, or white space, uses. -/
def isMark (c : Char) : Bool := isspace c || c ∈ ['\'', '"', '#', ';', '[', ']', '=', '>', ':']

/-- The letters of a casing. Two characters are the same letter when they are one, or two
spellings of it, which `str.upper` and `str.lower` do not tell apart. -/
structure Letters (casing : Casing) where
  same : Char → Char → Prop
  refl : ∀ c, same c c
  letter : ∀ c d, same c d → c = d ∨ isMark c = false ∧ isMark d = false
  upper : ∀ s t, Forall₂ same s t → casing.upper s = casing.upper t
  lower : ∀ s t, Forall₂ same s t → casing.lower s = casing.lower t

variable {casing : Casing} (letters : Letters casing)

/-- The texts differ in the case of letters only. -/
abbrev Letters.Alike (s t : Text) : Prop := Forall₂ letters.same s t

variable {letters} {s t : Text} {c d : Char}

/-- A mark is spelled in one way. -/
theorem eq_of_mark (h : letters.same c d) (hmark : isMark c = true ∨ isMark d = true) : c = d := by
  rcases letters.letter c d h with heq | ⟨hc, hd⟩
  · exact heq
  · rcases hmark with hmark | hmark
    · rw [hc] at hmark
      cases hmark
    · rw [hd] at hmark
      cases hmark

/-- Whether a character is one of a class of marks does not depend on the spelling. -/
theorem agree (test : Char → Bool) (htest : ∀ c, test c = true → isMark c = true) :
    ∀ c d, letters.same c d → test c = test d := by
  intro c d h
  rcases letters.letter c d h with rfl | ⟨hc, hd⟩
  · rfl
  · have hfalse : ∀ x, isMark x = false → test x = false := fun x hx =>
      eq_false_of_ne_true fun ht => by
        rw [htest x ht] at hx
        cases hx
    rw [hfalse c hc, hfalse d hd]

theorem isspace_agree (c d : Char) (h : letters.same c d) : isspace c = isspace d :=
  agree isspace (fun c hc => by simp [isMark, hc]) c d h

theorem mark_of_isQuote {c : Char} (h : isQuote c = true) : isMark c = true := by
  rw [isQuote, Bool.or_eq_true, beq_iff_eq, beq_iff_eq] at h
  rcases h with rfl | rfl <;> decide

theorem isQuote_agree (c d : Char) (h : letters.same c d) : isQuote c = isQuote d :=
  agree isQuote (fun _ hc => mark_of_isQuote hc) c d h

theorem isLineBreak_agree (c d : Char) (h : letters.same c d) : isLineBreak c = isLineBreak d := by
  refine agree isLineBreak (fun c hc => ?_) c d h
  have hspace : isspace c = true := by
    simp only [isLineBreak, isspace, Bool.or_eq_true, Bool.and_eq_true, decide_eq_true_eq,
      beq_iff_eq] at hc ⊢
    omega
  rw [isMark, hspace]
  rfl

theorem beq_agree {mark : Char} (hmark : isMark mark = true) (c d : Char) (h : letters.same c d) :
    (c == mark) = (d == mark) :=
  agree (fun c => c == mark) (fun c hc => by rw [beq_iff_eq.mp hc]; exact hmark) c d h

theorem bne_agree {mark : Char} (hmark : isMark mark = true) (c d : Char) (h : letters.same c d) :
    (c != mark) = (d != mark) := by
  rw [bne, bne, beq_agree hmark c d h]

namespace Letters.Alike

theorem rfl' (letters : Letters casing) (s : Text) : letters.Alike s s := by
  induction s with
  | nil => exact .nil
  | cons c s ih => exact .cons (letters.refl c) ih

theorem strip (h : letters.Alike s t) : letters.Alike (Python.strip s) (Python.strip t) := by
  have hfront := PaCopilot.Alike.dropWhile h isspace_agree
  have hback := PaCopilot.Alike.dropWhile (List.rel_reverse hfront) isspace_agree
  exact List.rel_reverse hback

theorem lstrip (h : letters.Alike s t) : letters.Alike (rules.lstrip s) (rules.lstrip t) :=
  PaCopilot.Alike.dropWhile h isspace_agree

theorem eq_nil_iff (h : letters.Alike s t) : s = [] ↔ t = [] := by
  cases h <;> simp

theorem squeeze (h : letters.Alike s t) : letters.Alike (rules.squeeze s) (rules.squeeze t) := by
  have hwords : Forall₂ letters.Alike (Python.split s) (Python.split t) := by
    refine PaCopilot.Alike.filter (PaCopilot.Alike.splitOnP h isspace_agree) fun x hx => ?_
    have hword := List.forall₂_zip (PaCopilot.Alike.splitOnP h isspace_agree) hx
    rw [PaCopilot.Alike.isEmpty_eq hword]
  exact PaCopilot.Alike.intercalate (rfl' letters [' ']) hwords

theorem consLine (hc : letters.same c d) {lines lines' : List Text}
    (h : Forall₂ letters.Alike lines lines') :
    Forall₂ letters.Alike (rules.consLine c lines) (rules.consLine d lines') := by
  cases h with
  | nil => exact .cons (.cons hc .nil) .nil
  | cons hline hlines => exact .cons (.cons hc hline) hlines

/-- A pair of marks does not appear with the spelling. -/
theorem no_pair {first second : Char} (hfirst : isMark first = true) (hsecond : isMark second = true)
    {rest rest' : Text} (hcd : letters.same c d) (hrest : letters.Alike rest rest')
    (hnot : ∀ after, c = first → rest = second :: after → False) :
    ∀ after, d = first → rest' = second :: after → False := by
  rintro after rfl rfl
  obtain ⟨e, after', he, -, rfl⟩ := List.forall₂_cons_right_iff.mp hrest
  have hc := eq_of_mark hcd (.inr hfirst)
  have he' := eq_of_mark he (.inr hsecond)
  exact hnot after' hc (by rw [he'])

theorem splitlines (h : letters.Alike s t) :
    Forall₂ letters.Alike (rules.splitlines s) (rules.splitlines t) := by
  induction s using rules.splitlines.induct generalizing t with
  | case1 =>
    cases h
    exact .nil
  | case2 rest ih =>
    cases h with
    | cons hcr htail =>
      cases htail with
      | cons hlf hrest =>
        rw [← eq_of_mark hcr (.inl (by decide)), ← eq_of_mark hlf (.inl (by decide))]
        exact .cons .nil (ih hrest)
  | case3 c rest hnot hbreak ih =>
    cases h with
    | @cons _ d _ rest' hcd hrest =>
      rw [splitlines_cons hnot, splitlines_cons (no_pair (by decide) (by decide) hcd hrest hnot),
        if_pos hbreak, if_pos (by rw [← isLineBreak_agree c d hcd]; exact hbreak)]
      exact .cons .nil (ih hrest)
  | case4 c rest hnot hbreak ih =>
    cases h with
    | @cons _ d _ rest' hcd hrest =>
      rw [splitlines_cons hnot, splitlines_cons (no_pair (by decide) (by decide) hcd hrest hnot),
        if_neg hbreak, if_neg (by rw [← isLineBreak_agree c d hcd]; exact hbreak)]
      exact consLine hcd (ih hrest)

/-- A line up to its comment. The quote that it is in is a mark. -/
theorem cutComment (h : letters.Alike s t) (quote : Option Char)
    (hquote : ∀ q, quote = some q → isMark q = true) :
    letters.Alike (rules.cutComment quote s) (rules.cutComment quote t) := by
  induction h generalizing quote with
  | nil => cases quote <;> exact .nil
  | @cons c d s t hcd htail ih =>
    cases quote with
    | some q =>
      have hq := hquote q rfl
      rw [rules.cutComment, rules.cutComment, ← beq_agree hq c d hcd]
      refine .cons hcd (ih _ fun r hr => ?_)
      split at hr
      · cases hr
      · rw [← Option.some.inj hr]
        exact hq
    | none =>
      rw [rules.cutComment, rules.cutComment, ← isQuote_agree c d hcd,
        ← beq_agree (by decide) c d hcd]
      by_cases hopens : isQuote c = true
      · rw [if_pos hopens, if_pos hopens]
        have hmark := mark_of_isQuote hopens
        rw [← eq_of_mark hcd (.inl hmark)]
        refine .cons (letters.refl c) (ih _ fun r hr => ?_)
        rw [← Option.some.inj hr]
        exact hmark
      · rw [if_neg hopens, if_neg hopens]
        split
        · exact .nil
        · exact .cons hcd (ih none (by simp))

theorem _strip_comments (h : letters.Alike s t) :
    letters.Alike (rules._strip_comments s) (rules._strip_comments t) := by
  refine PaCopilot.Alike.intercalate (rfl' letters ['\n']) ?_
  rw [List.forall₂_map_left_iff, List.forall₂_map_right_iff]
  exact (splitlines h).imp fun _ _ hline => cutComment hline none (by simp)

end Letters.Alike

/-! ### Statements -/

/-- Scans of two spellings of a text. -/
structure SameScan (letters : Letters casing) (scan scan' : Scan) : Prop where
  buffer : letters.Alike scan.buffer scan'.buffer
  line_number : scan.line_number = scan'.line_number
  start_line : scan.start_line = scan'.start_line
  quote : scan.quote = scan'.quote
  mark : ∀ q, scan.quote = some q → isMark q = true

/-- Statements on the same line, of two spellings of a text. -/
def SameRaw (letters : Letters casing) (raw raw' : ℕ × Text) : Prop :=
  raw.1 = raw'.1 ∧ letters.Alike raw.2 raw'.2

namespace SameScan

variable {scan scan' : Scan}

theorem blank (h : SameScan letters scan scan') :
    strip scan.buffer = [] ↔ strip scan'.buffer = [] :=
  h.buffer.strip.eq_nil_iff

theorem flush (h : SameScan letters scan scan') :
    Forall₂ (SameRaw letters) scan.flush scan'.flush := by
  unfold Scan.flush
  by_cases hblank : strip scan.buffer = []
  · rw [if_pos hblank, if_pos (h.blank.mp hblank)]
    exact .nil
  · rw [if_neg hblank, if_neg fun hblank' => hblank (h.blank.mpr hblank')]
    exact .cons ⟨h.start_line, h.buffer.strip⟩ .nil

theorem count (h : SameScan letters scan scan') (hcd : letters.same c d) :
    SameScan letters (scan.count c) (scan'.count d) := by
  unfold Scan.count
  rw [← beq_agree (by decide) c d hcd]
  split
  · refine ⟨h.buffer, congrArg (· + 1) h.line_number, ?_, h.quote, h.mark⟩
    dsimp only
    rw [h.line_number, h.start_line]
    exact if_congr h.blank rfl rfl
  · exact h

/-- One character, in two spellings. -/
theorem next (h : SameScan letters scan scan') (hcd : letters.same c d) :
    Forall₂ (SameRaw letters) (scan.next c).1 (scan'.next d).1 ∧
      SameScan letters (scan.next c).2 (scan'.next d).2 := by
  have hcount := h.count hcd
  have hbuffer : letters.Alike ((scan.count c).buffer ++ [c]) ((scan'.count d).buffer ++ [d]) :=
    List.rel_append hcount.buffer (.cons hcd .nil)
  unfold Scan.next
  dsimp only
  rcases hquote : (scan.count c).quote with _ | quote
  · rw [← hcount.quote, hquote]
    dsimp only
    rw [← isQuote_agree c d hcd, ← beq_agree (by decide) c d hcd]
    by_cases hopens : isQuote c = true
    · rw [if_pos hopens, if_pos hopens]
      -- quotes are marks, so both scanners are inside the same literal
      have hmark := mark_of_isQuote hopens
      have hcd' := eq_of_mark hcd (.inl hmark)
      refine ⟨.nil, hbuffer, hcount.line_number, hcount.start_line, congrArg some hcd', ?_⟩
      intro q hq
      rw [← Option.some.inj hq]
      exact hmark
    · rw [if_neg hopens, if_neg hopens]
      split
      · exact ⟨hcount.flush, .nil, hcount.line_number, hcount.line_number, rfl, by simp⟩
      · exact ⟨.nil, hbuffer, hcount.line_number, hcount.start_line, rfl, by simp⟩
  · rw [← hcount.quote, hquote]
    dsimp only
    have hmark := hcount.mark quote hquote
    refine ⟨.nil, hbuffer, hcount.line_number, hcount.start_line, ?_, fun q hq => ?_⟩
    · dsimp only
      rw [beq_agree hmark c d hcd]
    · dsimp only at hq
      split at hq
      · cases hq
      · rw [← Option.some.inj hq]
        exact hmark

theorem statementsFrom (h : SameScan letters scan scan') (hs : letters.Alike s t) :
    Forall₂ (SameRaw letters) (rules.statementsFrom scan s) (rules.statementsFrom scan' t) := by
  induction hs generalizing scan scan' with
  | nil => exact h.flush
  | cons hcd _ ih =>
    obtain ⟨hraw, hnext⟩ := h.next hcd
    exact List.rel_append hraw (ih hnext)

end SameScan

/-- **Two spellings of a text have the same statements.** -/
theorem Letters.Alike.rawStatements (h : letters.Alike s t) :
    Forall₂ (SameRaw letters) (rules.rawStatements s) (rules.rawStatements t) := by
  unfold rules.rawStatements
  by_cases hblank : Python.strip s = []
  · rw [if_pos hblank, if_pos (h.strip.eq_nil_iff.mp hblank)]
    exact .nil
  · rw [if_neg hblank, if_neg fun hblank' => hblank (h.strip.eq_nil_iff.mpr hblank')]
    have hscan : SameScan letters {} {} := ⟨.nil, rfl, rfl, rfl, by simp⟩
    exact hscan.statementsFrom h._strip_comments

/-! ### Areas -/

/-- A cut at one place of two spellings. -/
def SameCut (letters : Letters casing) (cut cut' : Text × Text) : Prop :=
  letters.Alike cut.1 cut'.1 ∧ letters.Alike cut.2 cut'.2

theorem bracketGroup_of_ne {rest : Text} (h : c ≠ '[') : bracketGroup (c :: rest) = none := by
  rw [bracketGroup.eq_def]
  split
  · rename_i heq
    exact absurd (List.cons.inj heq).1 h
  · rfl

/-- A match that starts at a mark, which the spelling neither adds nor takes away. -/
theorem splitArrow_cons {rest : Text} (h : ∀ after, c = '=' → rest = '>' :: after → False) :
    splitArrow (c :: rest) =
      (splitArrow rest).map fun (before, target) => (c :: before, target) := by
  rw [splitArrow]
  exact h

theorem afterEquals_of_ne {rest : Text} (h : c ≠ '=') : afterEquals (c :: rest) = c :: rest := by
  rw [afterEquals.eq_def]
  split
  · rename_i heq
    exact absurd (List.cons.inj heq).1 h
  · rfl

namespace Letters.Alike

theorem span_bracket (h : letters.Alike s t) :
    SameCut letters (s.span (· != ']')) (t.span (· != ']')) := by
  rw [List.span_eq_takeWhile_dropWhile, List.span_eq_takeWhile_dropWhile]
  exact ⟨PaCopilot.Alike.takeWhile h (bne_agree (by decide)),
    PaCopilot.Alike.dropWhile h (bne_agree (by decide))⟩

theorem bracketGroup (h : letters.Alike s t) :
    Option.Rel (SameCut letters) (rules.bracketGroup s) (rules.bracketGroup t) := by
  cases h with
  | nil => exact .none
  | @cons c d rest rest' hcd hrest =>
    by_cases hc : c = '['
    · subst hc
      rw [← eq_of_mark hcd (.inl (by decide)), rules.bracketGroup, rules.bracketGroup]
      obtain ⟨hcontent, htail⟩ := span_bracket hrest
      generalize rest.span (· != ']') = cut at hcontent htail
      generalize rest'.span (· != ']') = cut' at hcontent htail
      obtain ⟨content, tail⟩ := cut
      obtain ⟨content', tail'⟩ := cut'
      cases htail with
      | nil => exact .none
      | cons hclose hafter =>
        exact .some ⟨.cons (letters.refl _) (List.rel_append hcontent (.cons hclose .nil)), hafter⟩
    · have hd : d ≠ '[' := by
        rintro rfl
        exact hc (eq_of_mark hcd (.inr (by decide)))
      rw [bracketGroup_of_ne hc, bracketGroup_of_ne hd]
      exact .none

theorem bracketGroups (fuel : ℕ) (h : letters.Alike s t) :
    SameCut letters (rules.bracketGroups fuel s) (rules.bracketGroups fuel t) := by
  induction fuel generalizing s t with
  | zero => exact ⟨.nil, h⟩
  | succ fuel ih =>
    rw [rules.bracketGroups, rules.bracketGroups]
    have hgroup := h.bracketGroup
    generalize rules.bracketGroup s = found at hgroup
    generalize rules.bracketGroup t = found' at hgroup
    cases hgroup with
    | none => exact ⟨.nil, h⟩
    | some hcut =>
      obtain ⟨harea, hafter⟩ := hcut
      have hspace := PaCopilot.Alike.takeWhile hafter isspace_agree
      have hmore := ih (PaCopilot.Alike.dropWhile hafter isspace_agree)
      exact ⟨List.rel_append (List.rel_append harea hspace) hmore.1, hmore.2⟩

theorem _AREA (h : letters.Alike s t) :
    Option.Rel (SameCut letters) (rules._AREA s) (rules._AREA t) := by
  unfold rules._AREA
  dsimp only
  have hgroups := bracketGroups (rules.lstrip s).length h.lstrip
  rw [← h.lstrip.length_eq]
  generalize rules.bracketGroups (rules.lstrip s).length (rules.lstrip s) = found at hgroups
  generalize rules.bracketGroups (rules.lstrip s).length (rules.lstrip t) = found' at hgroups
  obtain ⟨area, rest⟩ := found
  obtain ⟨area', rest'⟩ := found'
  obtain ⟨harea, hrest⟩ := hgroups
  cases harea with
  | nil => exact .none
  | cons hcd harea => exact .some ⟨.cons hcd harea, hrest⟩

theorem _QUOTED (fuel : ℕ) (h : letters.Alike s t) :
    Forall₂ letters.Alike (rules._QUOTED fuel s) (rules._QUOTED fuel t) := by
  induction fuel generalizing s t with
  | zero =>
    cases h with
    | nil => exact .nil
    | cons _ _ => exact .nil
  | succ fuel ih =>
    cases h with
    | nil => exact .nil
    | @cons c d rest rest' hcd hrest =>
      rw [rules._QUOTED, rules._QUOTED, ← isQuote_agree c d hcd]
      by_cases hquote : isQuote c = true
      · have hmark := mark_of_isQuote hquote
        rw [if_pos hquote, if_pos hquote, ← eq_of_mark hcd (.inl hmark),
          List.span_eq_takeWhile_dropWhile, List.span_eq_takeWhile_dropWhile]
        have hvalue := PaCopilot.Alike.takeWhile hrest (bne_agree hmark)
        have hafter := PaCopilot.Alike.dropWhile hrest (bne_agree hmark)
        generalize rest.dropWhile (· != c) = after at hafter
        generalize rest'.dropWhile (· != c) = after' at hafter
        cases hafter with
        | nil => exact ih hrest
        | cons _ hafter => exact .cons hvalue (ih hafter)
      · rw [if_neg hquote, if_neg hquote]
        exact ih hrest

theorem _elements_of (h : letters.Alike s t) :
    Forall₂ letters.Alike (rules._elements_of s) (rules._elements_of t) := by
  unfold rules._elements_of
  rw [← h.length_eq]
  have hstripped : Forall₂ letters.Alike ((rules._QUOTED s.length s).map Python.strip)
      ((rules._QUOTED s.length t).map Python.strip) := by
    rw [List.forall₂_map_left_iff, List.forall₂_map_right_iff]
    exact (h._QUOTED s.length).imp fun _ _ hvalue => hvalue.strip
  refine PaCopilot.Alike.filter hstripped fun x hx => ?_
  rw [PaCopilot.Alike.isEmpty_eq (List.forall₂_zip hstripped hx)]

theorem _parse_target (h : letters.Alike s t) :
    Forall₂ letters.Alike (rules._parse_target s).1 (rules._parse_target t).1 ∧
      (rules._parse_target s).2 = (rules._parse_target t).2 := by
  unfold rules._parse_target
  have harea := h._AREA
  generalize rules._AREA s = found at harea
  generalize rules._AREA t = found' at harea
  cases harea with
  | none => exact ⟨.nil, rfl⟩
  | some hcut => exact ⟨hcut.1._elements_of, rfl⟩

theorem areaOf (h : letters.Alike s t) : SameCut letters (rules.areaOf s) (rules.areaOf t) := by
  unfold rules.areaOf
  have harea := h._AREA
  generalize rules._AREA s = found at harea
  generalize rules._AREA t = found' at harea
  cases harea with
  | none => exact ⟨.nil, h⟩
  | some hcut => exact hcut

theorem area_isSome (h : letters.Alike s t) : (rules._AREA s).isSome = (rules._AREA t).isSome := by
  have harea := h._AREA
  generalize rules._AREA s = found at harea
  generalize rules._AREA t = found' at harea
  cases harea <;> rfl

theorem splitArrow (h : letters.Alike s t) :
    Option.Rel (SameCut letters) (rules.splitArrow s) (rules.splitArrow t) := by
  induction s using rules.splitArrow.induct generalizing t with
  | case1 =>
    cases h
    exact .none
  | case2 rest =>
    cases h with
    | cons hequals htail =>
      cases htail with
      | cons harrow hrest =>
        rw [← eq_of_mark hequals (.inl (by decide)), ← eq_of_mark harrow (.inl (by decide))]
        exact .some ⟨.nil, hrest⟩
  | case3 c rest hnot ih =>
    cases h with
    | @cons _ d _ rest' hcd hrest =>
      rw [splitArrow_cons hnot, splitArrow_cons (no_pair (by decide) (by decide) hcd hrest hnot)]
      have hfound := ih hrest
      generalize rules.splitArrow rest = found at hfound
      generalize rules.splitArrow rest' = found' at hfound
      cases hfound with
      | none => exact .none
      | some hcut => exact .some ⟨.cons hcd hcut.1, hcut.2⟩

theorem afterEquals (h : letters.Alike s t) :
    letters.Alike (rules.afterEquals s) (rules.afterEquals t) := by
  cases h with
  | nil => exact .nil
  | @cons c d rest rest' hcd hrest =>
    by_cases hc : c = '='
    · subst hc
      rw [← eq_of_mark hcd (.inl (by decide))]
      exact hrest
    · have hd : d ≠ '=' := by
        rintro rfl
        exact hc (eq_of_mark hcd (.inr (by decide)))
      rw [afterEquals_of_ne hc, afterEquals_of_ne hd]
      exact .cons hcd hrest

/-- The qualifier is in upper case, whatever it is written in. -/
theorem _QUALIFIER (h : letters.Alike s t) :
    Option.Rel (fun x y => x.1 = y.1 ∧ letters.Alike x.2 y.2) (rules._QUALIFIER casing s)
      (rules._QUALIFIER casing t) := by
  unfold rules._QUALIFIER
  have hstrip := h.lstrip
  generalize rules.lstrip s = front at hstrip
  generalize rules.lstrip t = front' at hstrip
  cases hstrip with
  | nil => exact .none
  | @cons c d rest rest' hcd hrest =>
    have hupper := letters.upper [c] [d] (.cons hcd .nil)
    dsimp only
    rw [← hupper]
    by_cases hqualifier : casing.upper [c] ∈ [['N'], ['S'], ['C']]
    · rw [if_pos hqualifier, if_pos hqualifier]
      have hcolon := lstrip hrest
      generalize rules.lstrip rest = back at hcolon
      generalize rules.lstrip rest' = back' at hcolon
      cases hcolon with
      | nil => exact .none
      | @cons e f expression expression' hef hexpression =>
        -- a colon is a mark, and marks are spelled in one way
        by_cases he : e = ':'
        · subst he
          rw [← eq_of_mark hef (.inl (by decide))]
          exact .some ⟨rfl, hexpression⟩
        · have hf : f ≠ ':' := by
            rintro rfl
            exact he (eq_of_mark hef (.inr (by decide)))
          split
          · rename_i heq
            exact absurd (List.cons.inj heq).1 he
          · split
            · rename_i heq
              exact absurd (List.cons.inj heq).1 hf
            · exact .none
    · rw [if_neg hqualifier, if_neg hqualifier]
      exact .none

end Letters.Alike

/-! ### Rules -/

/-- One statement in two spellings. -/
structure SameStatement (letters : Letters casing) (x y : Statement) : Prop where
  line_number : x.line_number = y.line_number
  text : letters.Alike x.text y.text
  elements : Forall₂ letters.Alike x.elements y.elements
  qualifier : x.qualifier = y.qualifier
  expression : letters.Alike x.expression y.expression
  is_feeder : x.is_feeder = y.is_feeder
  target_elements : Forall₂ letters.Alike x.target_elements y.target_elements
  resolvable : x.resolvable = y.resolvable

/-- The same rules in two spellings. -/
structure SameRules (letters : Letters casing) (x y : ParsedRules) : Prop where
  directives : x.directives = y.directives
  calculations : Forall₂ (SameStatement letters) x.calculations y.calculations
  feeders : Forall₂ (SameStatement letters) x.feeders y.feeders
  has_feeders_section : x.has_feeders_section = y.has_feeders_section
  misplaced_calculations :
    Forall₂ (SameStatement letters) x.misplaced_calculations y.misplaced_calculations

inductive SameItem (letters : Letters casing) : Item → Item → Prop
  | directive (name : Text) : SameItem letters (.directive name) (.directive name)
  | marker : SameItem letters .marker .marker
  | feeder {x y : Statement} (same : SameStatement letters x y) :
      SameItem letters (.feeder x) (.feeder y)
  | calculation {x y : Statement} (same : SameStatement letters x y) :
      SameItem letters (.calculation x) (.calculation y)

namespace Letters.Alike

theorem bareStatement (line_number : ℕ) (h : letters.Alike s t) :
    SameStatement letters (rules.bareStatement line_number s) (rules.bareStatement line_number t) :=
  ⟨rfl, h.squeeze, h.areaOf.1._elements_of, rfl, .nil, rfl, .nil, h.area_isSome⟩

theorem feederStatement (line_number : ℕ) (h : letters.Alike s t) {target target' : Text}
    (htarget : letters.Alike target target') :
    SameStatement letters (rules.feederStatement line_number s target)
      (rules.feederStatement line_number t target') := by
  have hbare := h.bareStatement line_number
  obtain ⟨helements, hresolved⟩ := htarget._parse_target
  refine ⟨rfl, hbare.text, hbare.elements, rfl, .nil, rfl, helements, ?_⟩
  rw [rules.feederStatement, rules.feederStatement]
  dsimp only
  rw [h.area_isSome, hresolved]

theorem calculationStatement (line_number : ℕ) (h : letters.Alike s t) :
    SameStatement letters (rules.calculationStatement casing line_number s)
      (rules.calculationStatement casing line_number t) := by
  have hbare := h.bareStatement line_number
  have hexpression := h.areaOf.2.lstrip.afterEquals
  have hqualifier := hexpression._QUALIFIER
  unfold rules.calculationStatement
  dsimp only
  generalize rules._QUALIFIER casing (rules.afterEquals (rules.lstrip (rules.areaOf s).2)) = found
    at hqualifier
  generalize rules._QUALIFIER casing (rules.afterEquals (rules.lstrip (rules.areaOf t).2)) = found'
    at hqualifier
  cases hqualifier with
  | none =>
    exact ⟨rfl, hbare.text, hbare.elements, rfl, hexpression.strip, rfl, .nil, hbare.resolvable⟩
  | some hfound =>
    exact ⟨rfl, hbare.text, hbare.elements, congrArg some hfound.1, strip hfound.2, rfl, .nil,
      hbare.resolvable⟩

theorem item (line_number : ℕ) (h : letters.Alike s t) :
    SameItem letters (rules.item casing line_number s) (rules.item casing line_number t) := by
  have hupper : casing.upper (Python.strip s) = casing.upper (Python.strip t) :=
    letters.upper _ _ h.strip
  unfold rules.item
  dsimp only
  rw [← hupper]
  by_cases hdirective : casing.upper (Python.strip s) ∈ DIRECTIVES
  · rw [if_pos hdirective, if_pos hdirective]
    exact .directive _
  · rw [if_neg hdirective, if_neg hdirective]
    by_cases hmarker : casing.upper (Python.strip s) = FEEDERS_MARKER
    · rw [if_pos hmarker, if_pos hmarker]
      exact .marker
    · rw [if_neg hmarker, if_neg hmarker]
      have harrow := h.areaOf.2.splitArrow
      generalize rules.splitArrow (rules.areaOf s).2 = found at harrow
      generalize rules.splitArrow (rules.areaOf t).2 = found' at harrow
      cases harrow with
      | none => exact .calculation (h.calculationStatement line_number)
      | some hcut => exact .feeder (h.feederStatement line_number hcut.2)

end Letters.Alike

theorem SameRules.add {x y : ParsedRules} (h : SameRules letters x y) {new new' : Item}
    (hnew : SameItem letters new new') : SameRules letters (x.add new) (y.add new') := by
  cases hnew with
  | directive name =>
    exact ⟨congrArg (· ++ [name]) h.directives, h.calculations, h.feeders, h.has_feeders_section,
      h.misplaced_calculations⟩
  | marker => exact ⟨h.directives, h.calculations, h.feeders, rfl, h.misplaced_calculations⟩
  | feeder same =>
    exact ⟨h.directives, h.calculations, List.rel_append h.feeders (.cons same .nil),
      h.has_feeders_section, h.misplaced_calculations⟩
  | calculation same =>
    unfold ParsedRules.add
    dsimp only
    rw [h.has_feeders_section]
    split
    · exact ⟨h.directives, h.calculations, h.feeders, rfl,
        List.rel_append h.misplaced_calculations (.cons same .nil)⟩
    · exact ⟨h.directives, List.rel_append h.calculations (.cons same .nil), h.feeders, rfl,
        h.misplaced_calculations⟩

theorem SameRules.foldl {x y : ParsedRules} (h : SameRules letters x y) {items items' : List Item}
    (hitems : Forall₂ (SameItem letters) items items') :
    SameRules letters (items.foldl ParsedRules.add x) (items'.foldl ParsedRules.add y) := by
  induction hitems generalizing x y with
  | nil => exact h
  | cons hnew _ ih => exact ih (h.add hnew)

/-- **Two spellings of a text parse to two spellings of the same rules.** -/
theorem Letters.Alike.parse_rules (h : letters.Alike s t) :
    SameRules letters (rules.parse_rules casing s) (rules.parse_rules casing t) := by
  have hitems : Forall₂ (SameItem letters)
      ((rules.rawStatements s).map fun raw => rules.item casing raw.1 raw.2)
      ((rules.rawStatements t).map fun raw => rules.item casing raw.1 raw.2) := by
    rw [List.forall₂_map_left_iff, List.forall₂_map_right_iff]
    refine h.rawStatements.imp fun raw raw' hraw => ?_
    rw [hraw.1]
    exact item raw'.1 hraw.2
  have hstart : SameRules letters {} {} := ⟨rfl, .nil, .nil, rfl, .nil⟩
  exact hstart.foldl hitems

end PaCopilot.rules
