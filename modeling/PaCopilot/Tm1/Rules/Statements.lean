/-
The statements of a rule text.

`_strip_comments` goes through a text line by line and `_split_statements` goes through what
is left character by character; each keeps its own account of the string literal it is in.
Here a text is read once, and each character is marked with its line and with what it is
part of. The statements are the stretches between the semicolons that are code, without
their comments. Both functions together find exactly these, as long as no line break is
anything but a newline and no literal goes on to the next line.
-/
import Mathlib.Data.Bool.AllAny
import Mathlib.Data.List.TakeWhile
import PaCopilot.Tm1.Rules.Parser

set_option autoImplicit false

namespace PaCopilot.rules

open Python (isspace strip)

/-! ## What a character is part of -/

inductive Kind
  | code
  | literal
  | comment
  deriving DecidableEq

/-- Where a reader of a text is. -/
inductive Mode
  | code
  | literal (quote : Char)
  | comment
  deriving DecidableEq

/-- What a character is part of. The quotes of a literal belong to it, the newline after a
comment does not. -/
def Mode.kind (c : Char) : Mode → Kind
  | .code => if isQuote c then .literal else if c == '#' then .comment else .code
  | .literal _ => .literal
  | .comment => if c == '\n' then .code else .comment

def Mode.next (c : Char) : Mode → Mode
  | .code => if isQuote c then .literal c else if c == '#' then .comment else .code
  | .literal quote => if c == quote then .code else .literal quote
  | .comment => if c == '\n' then .code else .comment

/-- A character of a text, with its line and what it is part of. -/
structure Mark where
  line : ℕ
  char : Char
  kind : Kind
  deriving DecidableEq

def marksFrom : Mode → ℕ → Text → List Mark
  | _, _, [] => []
  | mode, line, c :: rest =>
    ⟨line, c, mode.kind c⟩ :: marksFrom (mode.next c) (if c == '\n' then line + 1 else line) rest

def marks (text : Text) : List Mark := marksFrom .code 1 text

/-- Where a reader is at the end of a text. -/
def modeAfter (mode : Mode) (text : Text) : Mode := text.foldl (fun mode c => mode.next c) mode

/-- The characters that are not part of a comment. -/
def visible (marks : List Mark) : List Mark := marks.filter fun m => m.kind ≠ .comment

theorem visible_cons (m : Mark) (marks : List Mark) :
    visible (m :: marks) = (if m.kind = .comment then [] else [m]) ++ visible marks := by
  by_cases hcomment : m.kind = .comment
  · rw [if_pos hcomment, visible, List.filter_cons_of_neg (by simp [hcomment])]
    rfl
  · rw [if_neg hcomment, visible, List.filter_cons_of_pos (by simp [hcomment])]
    rfl

theorem visible_append (marks marks' : List Mark) :
    visible (marks ++ marks') = visible marks ++ visible marks' := List.filter_append ..

/-- A semicolon that is code. -/
def Mark.ends (m : Mark) : Bool := m.kind == .code && m.char == ';'

/-- The stretches between the semicolons that are code, without comments. The last one is
what follows the last semicolon. -/
def stretches (text : Text) : List (List Mark) := (visible (marks text)).splitOnP Mark.ends

/-- The statement in a stretch, with the line of its first character that is not blank. -/
def statementOf (stretch : List Mark) : Option (ℕ × Text) :=
  (stretch.find? fun m => !isspace m.char).map fun first =>
    (first.line, strip (stretch.map Mark.char))

/-- The only line breaks are newlines, and each literal closes on the line it opens on. -/
structure ClosedLines (text : Text) : Prop where
  newline : ∀ c ∈ text, isLineBreak c = true → c = '\n'
  literal : ∀ m ∈ marks text, m.kind = .literal → m.char ≠ '\n'
  closed : ∀ quote, modeAfter .code text ≠ .literal quote

theorem map_char_marksFrom (mode : Mode) (line : ℕ) (s : Text) :
    (marksFrom mode line s).map Mark.char = s := by
  induction s generalizing mode line with
  | nil => rfl
  | cons c s ih => rw [marksFrom, List.map_cons, ih]

theorem marksFrom_append (mode : Mode) (line : ℕ) (s t : Text) :
    marksFrom mode line (s ++ t) =
      marksFrom mode line s ++ marksFrom (modeAfter mode s) (line + s.count '\n') t := by
  induction s generalizing mode line with
  | nil => rfl
  | cons c s ih =>
    have hcount : (if c == '\n' then line + 1 else line) + s.count '\n' =
        line + (c :: s).count '\n' := by
      rw [List.count_cons]
      split <;> omega
    rw [List.cons_append, marksFrom, marksFrom, ih, hcount]
    rfl

theorem modeAfter_append (mode : Mode) (s t : Text) :
    modeAfter mode (s ++ t) = modeAfter (modeAfter mode s) t := List.foldl_append ..

example : stretches "A#;\n;'x;' ".toList =
    [[⟨1, 'A', .code⟩, ⟨1, '\n', .code⟩],
     [⟨2, '\'', .literal⟩, ⟨2, 'x', .literal⟩, ⟨2, ';', .literal⟩, ⟨2, '\'', .literal⟩,
      ⟨2, ' ', .code⟩]] := by decide


/-! ## White space at the ends -/

theorem strip_append_space (s : Text) {c : Char} (hc : isspace c = true) :
    strip (s ++ [c]) = strip s := by
  rw [strip, strip, List.dropWhile_append]
  split
  · rename_i hempty
    rw [List.isEmpty_iff] at hempty
    rw [hempty, List.dropWhile_cons_of_pos hc]
    rfl
  · rw [List.reverse_append, List.reverse_singleton, List.singleton_append,
      List.dropWhile_cons_of_pos hc]

/-- A text is blank when it has no other character than white space. -/
theorem strip_eq_nil_iff (s : Text) : strip s = [] ↔ s.find? (fun c => !isspace c) = none := by
  rw [strip, List.reverse_eq_nil_iff, List.dropWhile_eq_nil_iff, List.find?_eq_none]
  constructor
  · intro h c hc
    by_contra hspace
    have hdrop : s.dropWhile isspace ≠ [] := by
      intro hnil
      rw [List.dropWhile_eq_nil_iff] at hnil
      simp [hnil c hc] at hspace
    -- The first character that is left is not white space.
    have hhead := List.head_dropWhile_not isspace hdrop
    have hall := h _ (List.mem_reverse.mpr (List.head_mem hdrop))
    rw [hall] at hhead
    cases hhead
  · intro h c hc
    have hmem := List.dropWhile_subset isspace (List.mem_reverse.mp hc)
    simpa using h c hmem

/-! ## The comment stripper -/

/-- The first line from where a reader is, up to its comment. -/
def cutLine : Mode → Text → Text
  | .code, line => cutComment none line
  | .literal quote, line => cutComment (some quote) line
  | .comment, _ => []

/-- The lines of a text up to their comments. -/
def cutLines (mode : Mode) (text : Text) : List Text :=
  match splitlines text with
  | [] => []
  | line :: lines => cutLine mode line :: lines.map (cutComment none)

theorem cutLines_code (text : Text) :
    cutLines .code text = (splitlines text).map (cutComment none) := by
  unfold cutLines
  cases splitlines text <;> rfl

theorem cutLine_nil (mode : Mode) : cutLine mode [] = [] := by
  cases mode <;> rfl

theorem cutLine_cons {c : Char} (hc : c ≠ '\n') (mode : Mode) (line : Text) :
    cutLine mode (c :: line) =
      (if mode.kind c = .comment then [] else [c]) ++ cutLine (mode.next c) line := by
  have hbeq : (c == '\n') = false := beq_false_of_ne hc
  cases mode with
  | code =>
    rw [cutLine, cutComment, Mode.kind, Mode.next]
    split
    · rfl
    · split <;> rfl
  | literal quote =>
    rw [cutLine, cutComment, Mode.kind, Mode.next]
    split <;> rfl
  | comment =>
    rw [cutLine, Mode.kind, Mode.next, hbeq]
    rfl

theorem intercalate_append_head (s line : Text) (lines : List Text) :
    List.intercalate ['\n'] ((s ++ line) :: lines) =
      s ++ List.intercalate ['\n'] (line :: lines) := by
  cases lines with
  | nil => rw [List.intercalate_singleton, List.intercalate_singleton]
  | cons next lines =>
    simp only [List.intercalate_cons_cons, List.append_assoc]

/-- A character that is not a line break goes in front of its line. -/
theorem cutLines_cons {c : Char} (hbreak : isLineBreak c = false) (mode : Mode) (rest : Text) :
    List.intercalate ['\n'] (cutLines mode (c :: rest)) =
      (if mode.kind c = .comment then [] else [c]) ++
        List.intercalate ['\n'] (cutLines (mode.next c) rest) := by
  have hc : ∀ d, isLineBreak d = true → c ≠ d := fun d hd heq => by
    rw [heq, hd] at hbreak
    cases hbreak
  have hlines : splitlines (c :: rest) = consLine c (splitlines rest) := by
    rw [splitlines_cons fun _ hcr _ => hc '\r' rfl hcr, if_neg (by rw [hbreak]; decide)]
  unfold cutLines
  rw [hlines]
  cases splitlines rest with
  | nil => simp [consLine, cutLine_cons (hc '\n' rfl), cutLine_nil]
  | cons line lines =>
    simp only [consLine]
    rw [cutLine_cons (hc '\n' rfl), intercalate_append_head]

theorem splitlines_ne_nil {s : Text} (hs : s ≠ []) : splitlines s ≠ [] := by
  fun_cases splitlines s with
  | case1 => exact absurd rfl hs
  | case2 => simp
  | case3 => simp
  | case4 c rest =>
    cases hlines : splitlines rest <;> simp [consLine]

/-- A newline outside a literal is code, and code follows it. -/
theorem newline_spec {mode : Mode} (h : mode.kind '\n' ≠ .literal) :
    mode.kind '\n' = .code ∧ mode.next '\n' = .code := by
  cases mode with
  | code => exact ⟨rfl, rfl⟩
  | literal quote => exact absurd rfl h
  | comment => exact ⟨rfl, rfl⟩

theorem cutLines_newline (mode : Mode) (rest : Text) :
    cutLines mode ('\n' :: rest) = [] :: cutLines .code rest := by
  have hsplit : splitlines ('\n' :: rest) = [] :: splitlines rest := by
    rw [splitlines_cons fun _ hcr _ => by cases hcr]
    rfl
  rw [cutLines_code, cutLines, hsplit]
  exact congrArg (· :: _) (cutLine_nil mode)

theorem cutLines_ne_nil (mode : Mode) {rest : Text} (hrest : rest ≠ []) :
    cutLines mode rest ≠ [] := by
  unfold cutLines
  cases hlines : splitlines rest with
  | nil => exact absurd hlines (splitlines_ne_nil hrest)
  | cons line lines => simp

/-- What the comment stripper leaves of the front of a text is what is not a comment. -/
theorem intercalate_cutLines_append {mode : Mode} (line : ℕ) {s t : Text}
    (hnewline : ∀ c ∈ s, isLineBreak c = true → c = '\n')
    (hliteral : ∀ m ∈ marksFrom mode line s, m.kind = .literal → m.char ≠ '\n') (ht : t ≠ []) :
    List.intercalate ['\n'] (cutLines mode (s ++ t)) =
      (visible (marksFrom mode line s)).map Mark.char ++
        List.intercalate ['\n'] (cutLines (modeAfter mode s) t) := by
  induction s generalizing mode line with
  | nil => rfl
  | cons c s ih =>
    rw [marksFrom, List.forall_mem_cons] at hliteral
    rw [List.forall_mem_cons] at hnewline
    have ih := ih _ hnewline.2 hliteral.2
    rw [List.cons_append, marksFrom, visible_cons, List.map_append, List.append_assoc,
      modeAfter, List.foldl_cons, ← modeAfter]
    by_cases hc : c = '\n'
    · subst hc
      obtain ⟨hkind, hnext⟩ := newline_spec fun hkind => hliteral.1 hkind rfl
      rw [hnext] at ih
      obtain ⟨first, lines, heq⟩ := List.exists_cons_of_ne_nil
        (cutLines_ne_nil .code (List.append_ne_nil_of_right_ne_nil s ht))
      rw [cutLines_newline, heq, List.intercalate_cons_cons, ← heq, ih, hkind, hnext]
      rfl
    · have hbreak : isLineBreak c = false := by
        by_contra h
        exact hc (hnewline.1 (by simpa using h))
      rw [cutLines_cons hbreak, ih]
      split <;> rfl

/-- What the comment stripper leaves is what is not a comment, but for a last newline. -/
theorem strip_comments_eq {text : Text} (h : ClosedLines text) :
    ∃ last, (visible (marks text)).map Mark.char = _strip_comments text ++ last ∧
      (last = [] ∨ last = ['\n']) := by
  rcases List.eq_nil_or_concat text with rfl | ⟨s, c, hconcat⟩
  · exact ⟨[], rfl, .inl rfl⟩
  · rw [List.concat_eq_append] at hconcat
    subst hconcat
    have hmarks : marks (s ++ [c]) = marks s ++
        marksFrom (modeAfter .code s) (1 + s.count '\n') [c] := marksFrom_append ..
    have hfront := intercalate_cutLines_append 1
      (fun d hd => h.newline d (List.mem_append_left _ hd))
      (fun m hm => h.literal m (hmarks ▸ List.mem_append_left _ hm)) (List.cons_ne_nil c [])
    have hliteral := h.literal ⟨1 + s.count '\n', c, (modeAfter .code s).kind c⟩
      (hmarks ▸ List.mem_append_right _ (List.mem_singleton_self _))
    rw [cutLines_code] at hfront
    rw [_strip_comments, hfront, hmarks, visible_append, List.map_append]
    by_cases hc : c = '\n'
    · subst hc
      obtain ⟨hkind, -⟩ := newline_spec fun hkind => hliteral hkind rfl
      refine ⟨['\n'], ?_, .inr rfl⟩
      have hnone : List.intercalate ['\n'] ([] :: cutLines .code []) = [] := rfl
      rw [cutLines_newline, hnone, List.append_nil, marksFrom, marksFrom, hkind, visible_cons]
      rfl
    · have hbreak : isLineBreak c = false := by
        by_contra hbreak
        exact hc (h.newline c (by simp) (by simpa using hbreak))
      have hnone : List.intercalate ['\n'] (cutLines ((modeAfter .code s).next c) []) = [] := rfl
      refine ⟨[], ?_, .inl rfl⟩
      rw [cutLines_cons hbreak, hnone, marksFrom, marksFrom, visible_cons, List.append_nil,
        List.append_nil]
      split <;> rfl

/-! ## The scanner -/

/-- Where the scanner is when a reader is in `mode`, on `line`, with the characters of `acc`
since the last semicolon that is code. -/
structure Scan.At (scan : Scan) (mode : Mode) (line : ℕ) (acc : List Mark) : Prop where
  buffer : scan.buffer = acc.map Mark.char
  line_number : scan.line_number = line
  start_line : scan.start_line =
    ((acc.find? fun m => !isspace m.char).map Mark.line).getD line
  quote : scan.quote = match mode with
    | .literal quote => some quote
    | _ => none

/-- The line after a character. -/
def lineAfter (line : ℕ) (c : Char) : ℕ := if c == '\n' then line + 1 else line

section At

variable {scan : Scan} {mode : Mode} {line : ℕ} {acc : List Mark} {c : Char}

theorem blank_iff :
    strip (acc.map Mark.char) = [] ↔ (acc.find? fun m => !isspace m.char) = none := by
  rw [strip_eq_nil_iff, List.find?_map, Option.map_eq_none_iff]
  rfl

theorem Scan.At.flush (h : scan.At mode line acc) : scan.flush = (statementOf acc).toList := by
  rw [Scan.flush, h.buffer, statementOf]
  split
  · rename_i hblank
    rw [blank_iff.mp hblank]
    rfl
  · rename_i hblank
    obtain ⟨first, hfirst⟩ := Option.ne_none_iff_exists'.mp (mt blank_iff.mpr hblank)
    rw [h.start_line, hfirst]
    rfl

/-- The line count goes over a newline, and takes the start line of a blank buffer with it. -/
theorem Scan.At.count (h : scan.At mode line acc) :
    (scan.count c).At mode (lineAfter line c) acc := by
  rw [Scan.count, lineAfter]
  by_cases hc : (c == '\n') = true
  · rw [if_pos hc, if_pos hc]
    refine ⟨h.buffer, congrArg (· + 1) h.line_number, ?_, h.quote⟩
    dsimp only
    rw [h.buffer, h.line_number, h.start_line]
    split
    · rename_i hblank
      rw [blank_iff.mp hblank]
      rfl
    · rename_i hblank
      obtain ⟨first, hfirst⟩ := Option.ne_none_iff_exists'.mp (mt blank_iff.mpr hblank)
      rw [hfirst]
      rfl
  · rw [if_neg hc, if_neg hc]
    exact h

/-- The scanner keeps a character that ends no statement. -/
theorem Scan.At.push (h : scan.At mode (lineAfter line c) acc) (kind : Kind) :
    ({ scan with buffer := scan.buffer ++ [c] } : Scan).At mode (lineAfter line c)
      (acc ++ [⟨line, c, kind⟩]) := by
  refine ⟨by simp [h.buffer], h.line_number, ?_, h.quote⟩
  dsimp only
  rw [h.start_line, List.find?_append]
  cases hfirst : acc.find? fun m => !isspace m.char with
  | some first => rfl
  | none =>
    by_cases hspace : isspace c = true
    · simp [hspace]
    · have hc : (c == '\n') = false := by
        refine beq_false_of_ne fun heq => hspace ?_
        rw [heq]
        decide
      simp [hspace, lineAfter, hc]

/-- One character that is not part of a comment. -/
theorem Scan.At.next (h : scan.At mode line acc) (hkind : mode.kind c ≠ .comment) :
    if Mark.ends ⟨line, c, mode.kind c⟩ then
      (scan.next c).1 = (statementOf acc).toList ∧
        (scan.next c).2.At (mode.next c) (lineAfter line c) []
    else
      (scan.next c).1 = [] ∧
        (scan.next c).2.At (mode.next c) (lineAfter line c) (acc ++ [⟨line, c, mode.kind c⟩]) := by
  have hcount : (scan.count c).At mode (lineAfter line c) acc := h.count
  have hpush := hcount.push (mode.kind c)
  rw [Scan.next, hcount.quote]
  cases mode with
  | literal quote =>
    rw [if_neg (by simp [Mark.ends, Mode.kind])]
    refine ⟨rfl, hpush.buffer, hpush.line_number, hpush.start_line, ?_⟩
    rw [Mode.next]
    dsimp only
    split <;> rfl
  | code =>
    rw [Mode.kind] at hkind hpush ⊢
    rw [Mode.next]
    dsimp only
    by_cases hquote : isQuote c = true
    · rw [if_pos hquote] at hpush ⊢
      rw [if_pos hquote, if_pos hquote, if_neg (by simp [Mark.ends])]
      exact ⟨rfl, hpush.buffer, hpush.line_number, hpush.start_line, rfl⟩
    · rw [if_neg hquote] at hkind hpush ⊢
      rw [if_neg hquote, if_neg hquote]
      -- a `#` would begin a comment
      have hhash : ¬ (c == '#') = true := fun hhash => hkind (if_pos hhash)
      rw [if_neg hhash] at hpush ⊢
      rw [if_neg hhash]
      by_cases hend : (c == ';') = true
      · rw [if_pos hend, if_pos (by simpa [Mark.ends] using hend)]
        exact ⟨hcount.flush, rfl, hcount.line_number, hcount.line_number, rfl⟩
      · rw [if_neg hend, if_neg (by simpa [Mark.ends] using hend)]
        exact ⟨rfl, hpush.buffer, hpush.line_number, hpush.start_line, rfl⟩
  | comment =>
    -- the one character that ends a comment and is not part of it
    have hc : c = '\n' := by
      by_contra hne
      exact hkind (if_neg (by simpa using hne))
    subst hc
    rw [if_neg (by simp [Mark.ends])]
    exact ⟨rfl, hpush.buffer, hpush.line_number, hpush.start_line, rfl⟩

/-- A character of a comment. -/
theorem Scan.At.skip (h : scan.At mode line acc) (hkind : mode.kind c = .comment) :
    scan.At (mode.next c) (lineAfter line c) acc := by
  have hnext : mode.next c = .comment ∧ (c == '\n') = false := by
    cases mode with
    | code =>
      rw [Mode.kind] at hkind
      rw [Mode.next]
      split at hkind
      · cases hkind
      · rename_i hquote
        split at hkind
        · rename_i hhash
          rw [if_neg hquote, if_pos hhash, beq_iff_eq.mp hhash]
          exact ⟨rfl, rfl⟩
        · cases hkind
    | literal quote => cases hkind
    | comment =>
      rw [Mode.kind] at hkind
      rw [Mode.next]
      split at hkind
      · cases hkind
      · rename_i hc
        rw [if_neg hc]
        exact ⟨rfl, eq_false_of_ne_true hc⟩
  have hquote : scan.quote = none := by
    rw [h.quote]
    cases mode with
    | literal quote => cases hkind
    | code => rfl
    | comment => rfl
  rw [hnext.1, lineAfter, hnext.2]
  exact ⟨h.buffer, h.line_number, h.start_line, hquote⟩

/-- The scanner goes over the front of a text: it is done with all stretches but the last. -/
theorem statementsFrom_append {s : Text} (h : scan.At mode line acc) (t : Text) :
    ∃ done last scan',
      ((visible (marksFrom mode line s)).splitOnP Mark.ends).modifyHead (acc ++ ·) =
        done ++ [last] ∧
      Scan.At scan' (modeAfter mode s) (line + s.count '\n') last ∧
      statementsFrom scan ((visible (marksFrom mode line s)).map Mark.char ++ t) =
        done.filterMap statementOf ++ statementsFrom scan' t := by
  induction s generalizing scan mode line acc with
  | nil =>
    refine ⟨[], acc, scan, ?_, h, rfl⟩
    rw [marksFrom, visible, List.filter_nil, List.splitOnP_nil, List.modifyHead_cons,
      List.append_nil]
    rfl
  | cons c s ih =>
    have hcount : lineAfter line c + s.count '\n' = line + (c :: s).count '\n' := by
      rw [List.count_cons, lineAfter]
      split <;> omega
    rw [marksFrom, visible_cons, modeAfter, List.foldl_cons, ← modeAfter, ← hcount, ← lineAfter]
    -- a character of a comment is seen by neither side
    by_cases hkind : mode.kind c = .comment
    · rw [if_pos hkind, List.nil_append]
      exact ih (h.skip hkind)
    · rw [if_neg hkind, List.singleton_append, List.map_cons, List.cons_append, statementsFrom,
        List.splitOnP_cons_eq_if_modifyHead]
      have hnext := h.next hkind
      split at hnext
      · rename_i hends
        -- the character ends a statement, and the next one begins empty
        obtain ⟨done, last, scan', hsplit, hat, hscan⟩ := ih hnext.2
        have hempty : (fun l : List Mark => [] ++ l) = id := rfl
        rw [hempty, List.modifyHead_id, id] at hsplit
        refine ⟨acc :: done, last, scan', ?_, hat, ?_⟩
        · rw [if_pos hends, List.modifyHead_cons, List.append_nil, hsplit]
          rfl
        · rw [hnext.1, hscan, List.filterMap_cons]
          cases statementOf acc <;> rfl
      · rename_i hends
        -- the character is one more of the statement that is open
        obtain ⟨done, last, scan', hsplit, hat, hscan⟩ := ih hnext.2
        refine ⟨done, last, scan', ?_, hat, ?_⟩
        · rw [if_neg hends, List.modifyHead_modifyHead, ← hsplit]
          congr 1
          funext l
          exact (List.append_assoc acc [_] l).symm
        · rw [hnext.1, hscan]
          rfl

end At

/-- A last newline changes no statement. -/
theorem statementsFrom_newline (scan : Scan) (s : Text) :
    statementsFrom scan (s ++ ['\n']) = statementsFrom scan s := by
  induction s generalizing scan with
  | cons c s ih => rw [List.cons_append, statementsFrom, statementsFrom, ih]
  | nil =>
    -- The buffer is one newline longer, and its line is another one only when it is blank.
    have hflush : ∀ quote, ({ scan.count '\n' with
        buffer := scan.buffer ++ ['\n'], quote := quote } : Scan).flush = scan.flush := by
      intro quote
      rw [Scan.flush, Scan.flush]
      dsimp only
      rw [strip_append_space scan.buffer rfl]
      split
      · rfl
      · rename_i hblank
        rw [Scan.count, if_pos (by decide)]
        dsimp only
        rw [if_neg hblank]
    rw [List.nil_append, statementsFrom, statementsFrom, statementsFrom, Scan.next]
    split
    · exact hflush _
    · exact hflush none

theorem Scan.at_start : ({} : Scan).At .code 1 [] := ⟨rfl, rfl, rfl, rfl⟩

/-- What the scanner finds in the characters outside of comments. -/
theorem statementsFrom_visible (text : Text) :
    statementsFrom {} ((visible (marks text)).map Mark.char) =
      (stretches text).filterMap statementOf := by
  obtain ⟨done, last, scan', hsplit, hat, hscan⟩ :=
    statementsFrom_append (s := text) Scan.at_start []
  have hempty : (fun l : List Mark => [] ++ l) = id := rfl
  rw [hempty, List.modifyHead_id, id] at hsplit
  rw [stretches, marks, hsplit, List.filterMap_append, ← List.append_nil (List.map _ _), hscan,
    statementsFrom, hat.flush, List.filterMap_cons]
  cases statementOf last <;> rfl

/-- The stripper leaves those, but for a last newline. -/
theorem statementsFrom_strip_comments {text : Text} (h : ClosedLines text) :
    statementsFrom {} (_strip_comments text) =
      statementsFrom {} ((visible (marks text)).map Mark.char) := by
  obtain ⟨newline, hstripped, hlast⟩ := strip_comments_eq h
  rw [hstripped]
  rcases hlast with rfl | rfl
  · rw [List.append_nil]
  · rw [statementsFrom_newline]

/-- **The statements of a text are its stretches that are not blank, each with the line it
begins on.** -/
theorem split_statements_eq {text : Text} (h : ClosedLines text) :
    _split_statements (_strip_comments text) = (stretches text).filterMap statementOf := by
  rw [_split_statements, statementsFrom_strip_comments h, statementsFrom_visible]

theorem split_statements_eq_comment :
    _split_statements (_strip_comments "# no; 'it\n\n ['A'] = 'x;#'\n;;# end\nb".toList) =
      [(3, "['A'] = 'x;#'".toList), (5, ['b'])] := by
  have hclosed : ClosedLines "# no; 'it\n\n ['A'] = 'x;#'\n;;# end\nb".toList :=
    ⟨List.all_iff_forall_prop.mp (by decide +kernel), by decide, fun quote h => by cases h⟩
  rw [split_statements_eq hclosed]
  decide +kernel

end PaCopilot.rules
