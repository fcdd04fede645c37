/-
The comments of a process.

`_finalise` of `tm1/ti/parser.py` looks for a `#` in the raw code, whatever it stands in. Here
the comments are those that a reader of the code opens, who knows literals. Line by line the
search finds all that the reader finds, and what it finds begins at the first `#` of the line;
so the two lists are the same exactly if each line is (`filterMap_eq_iff`).
-/
import PaCopilot.Change.Draft
import PaCopilot.Tm1.Rules.Areas
import PaCopilot.Tm1.Ti.Noise

set_option autoImplicit false

namespace PaCopilot.ti

open Python (isspace strip rstrip)
open rules (Text)
open ti_analysis (Reading)

/-! ## What the parser records -/

/-- The four sections of a process, and the lines of the first one, which `parse_process` and
`parse_process_code` count each its own way. -/
structure Sections where
  prolog : Text
  metadata : Text
  data : Text
  epilog : Text
  prolog_lines : ℕ
  deriving DecidableEq

def Sections.list (p : Sections) : List Text := [p.prolog, p.metadata, p.data, p.epilog]

namespace parser

/-- `_COMMENT.findall`. -/
def _COMMENT (code : Text) : List Text :=
  (Words.findall (· == '#') (· != '\n') false code).map Prod.fst

/-- `line.strip("#")`. -/
def stripHash (line : Text) : Text :=
  ((line.dropWhile (· == '#')).reverse.dropWhile (· == '#')).reverse

/-- `line.strip().strip("#").strip()` is not empty. -/
def hasText (line : Text) : Bool := strip (stripHash (strip line)) ≠ []

/-- The comments as they are kept. -/
def kept (found : List Text) : List Text := (found.filter hasText).map strip

/-- `record.comments`. -/
def comments (p : Sections) : List Text := kept (_COMMENT (List.intercalate ['\n'] p.list))

/-- `record.header_comment`. -/
def header_comment (comments : List Text) : Text := List.intercalate ['\n'] (comments.take 12)

end parser

/-- The documentation finding of `tm1/ti/review.py`. -/
def documentation (p : Sections) (header_comment : Text) : Option change_service.ReviewFinding :=
  if 3 < p.prolog_lines ∧ header_comment = [] then
    some ⟨"info", "documentation", "no comment lines in the process"⟩
  else none

/-- Whether a process follows the convention `header_comment` of `tm1/ti/conventions.py`, where
it applies. -/
def headerConvention (p : Sections) (header_comment : Text) : Option Bool :=
  if 3 < p.prolog_lines then
    some ((p.prolog.dropWhile isspace).head? = some '#' || header_comment ≠ [])
  else none

/-! ## The comments that a reader opens -/

/-- The comments of a text: a `#` that is read in code, up to the end of its line. -/
def genuineFrom : Reading → Text → List Text
  | _, [] => []
  | reading, c :: rest =>
    if reading = .code ∧ c = '#' then
      (c :: rest.takeWhile (· != '\n')) :: genuineFrom .comment rest
    else genuineFrom (next c reading) rest

/-- The genuine comments of a process, of which those with a text are kept. -/
def genuine (p : Sections) : List Text := parser.kept (p.list.flatMap (genuineFrom .code))

/-- The last line of a text. -/
def lastLine (text : Text) : Text := (text.reverse.takeWhile (· != '\n')).reverse

/-- In a section a line's first `#` is part of a literal, and has a text behind it. -/
def Misleads (code : Text) : Prop :=
  ∃ before rest, code = before ++ '#' :: rest ∧ readTo .code before = .literal ∧
    '#' ∉ lastLine before ∧ parser.hasText ('#' :: rest.takeWhile (· != '\n')) = true

/-- What the parser records of a process, and what rests on it, is as the genuine comments
have it. -/
structure RecordsGenuine (p : Sections) : Prop where
  comments : parser.comments p = genuine p
  documentation : documentation p (parser.header_comment (parser.comments p))
    = documentation p (parser.header_comment (genuine p))
  convention : headerConvention p (parser.header_comment (parser.comments p))
    = headerConvention p (parser.header_comment (genuine p))

/-! ## Line by line -/

/-- A text is a line, or a line and a text. -/
theorem line_induction {P : Text → Prop} (single : ∀ line, '\n' ∉ line → P line)
    (more : ∀ line rest, '\n' ∉ line → P rest → P (line ++ '\n' :: rest)) (text : Text) :
    P text := by
  induction hn : text.length using Nat.strong_induction_on generalizing text with
  | h n ih =>
    obtain ⟨line, after, rfl, hline, -, hafter⟩ := comment_line text
    rcases hafter with rfl | ⟨rest, rfl⟩
    · rw [List.append_nil]
      exact single line hline
    · apply more line rest hline
      apply ih rest.length _ rest rfl
      rw [← hn, List.length_append, List.length_cons]
      omega

theorem takeWhile_line {line : Text} (h : '\n' ∉ line) (after : Text)
    (hafter : after = [] ∨ ∃ rest, after = '\n' :: rest) :
    (line ++ after).takeWhile (· != '\n') = line := by
  apply Words.takeWhile_word
  · intro c hc
    exact bne_iff_ne.mpr fun heq => h (heq ▸ hc)
  · rcases hafter with rfl | ⟨rest, rfl⟩
    · exact .nil
    · exact .cons (by decide)

/-- What the search finds on a line, and what it goes on with. -/
theorem findall_line {inside : Bool} {line : Text} (h : '\n' ∉ line) (after : Text)
    (hafter : after = [] ∨ ∃ rest, after = '\n' :: rest) :
    (Words.findall (· == '#') (· != '\n') inside (line ++ after)).map Prod.fst =
      (if inside = false ∧ '#' ∈ line then [line.dropWhile (· != '#')] else [])
        ++ parser._COMMENT after := by
  -- a match ends with its line, so after it the search begins anew
  have hstart : Words.findall (· == '#') (· != '\n') true after
      = Words.findall (· == '#') (· != '\n') false after := by
    rcases hafter with rfl | ⟨rest, rfl⟩
    · rfl
    · rw [Words.findall_inside, Words.findall_skip (by decide)]
      rfl
  induction line generalizing inside with
  | nil =>
    rw [List.nil_append, if_neg (fun hboth => absurd hboth.2 List.not_mem_nil)]
    cases inside with
    | true => rw [hstart]; rfl
    | false => rfl
  | cons c line ih =>
    rw [List.mem_cons, not_or] at h
    have hpart : (c != '\n') = true := bne_iff_ne.mpr fun heq => h.1 heq.symm
    rw [List.cons_append]
    cases inside with
    | true =>
      rw [Words.findall_inside, hpart, ih h.2, if_neg (by simp), if_neg (by simp)]
    | false =>
      -- the first `#` of the line takes all that follows
      by_cases hc : c = '#'
      · subst hc
        have hline : '\n' ∉ '#' :: line := by
          rw [List.mem_cons, not_or]
          exact h
        have htake : ('#' :: (line ++ after)).takeWhile (· != '\n') = '#' :: line :=
          takeWhile_line hline after hafter
        have hdrop : ('#' :: line).dropWhile (· != '#') = '#' :: line :=
          List.dropWhile_cons_of_neg (by decide)
        rw [Words.findall_start rfl, List.map_cons, ih h.2, if_neg (by simp), htake,
          if_pos ⟨rfl, List.mem_cons_self⟩, hdrop]
        rfl
      · rw [Words.findall_skip (by simpa using hc), ih h.2,
          List.dropWhile_cons_of_pos (by simpa using hc)]
        congr 1
        by_cases hmem : '#' ∈ line
        · rw [if_pos ⟨rfl, hmem⟩, if_pos ⟨rfl, List.mem_cons_of_mem _ hmem⟩]
        · rw [if_neg fun hboth => hmem hboth.2, if_neg]
          rintro ⟨-, hboth⟩
          rcases List.mem_cons.mp hboth with heq | hboth
          · exact hc heq.symm
          · exact hmem hboth

theorem readTo_comment {line : Text} (h : '\n' ∉ line) : readTo .comment line = .comment :=
  (comment_spec h).2

theorem genuineFrom_open (rest : Text) :
    genuineFrom .code ('#' :: rest) =
      ('#' :: rest.takeWhile (· != '\n')) :: genuineFrom .comment rest := by
  rw [genuineFrom, if_pos ⟨rfl, rfl⟩]

theorem genuineFrom_skip {reading : Reading} {c : Char} (rest : Text)
    (h : ¬(reading = .code ∧ c = '#')) :
    genuineFrom reading (c :: rest) = genuineFrom (next c reading) rest := by
  rw [genuineFrom, if_neg h]

/-- Without a `#` no comment is opened. -/
theorem genuineFrom_plain (reading : Reading) {x : Text} (h : '#' ∉ x) (after : Text) :
    genuineFrom reading (x ++ after) = genuineFrom (readTo reading x) after := by
  induction x generalizing reading with
  | nil => rfl
  | cons c x ih =>
    rw [List.mem_cons, not_or] at h
    have hskip : ¬(reading = .code ∧ c = '#') := fun hopen => h.1 hopen.2.symm
    rw [List.cons_append, genuineFrom_skip _ hskip, ih _ h.2, readTo_cons]

/-- In a comment none is opened. -/
theorem genuineFrom_comment {line : Text} (h : '\n' ∉ line) (after : Text) :
    genuineFrom .comment (line ++ after) = genuineFrom .comment after := by
  induction line with
  | nil => rfl
  | cons c line ih =>
    rw [List.mem_cons, not_or] at h
    have hc : ¬((c == '\n') = true) := by simpa using fun heq => h.1 heq.symm
    have hnext : next c .comment = .comment := if_neg hc
    rw [List.cons_append, genuineFrom_skip _ (fun hopen => Reading.noConfusion hopen.1), hnext,
      ih h.2]

/-- At most one comment is opened on a line, and it goes on to the end of it. -/
theorem genuineFrom_line (reading : Reading) {line : Text} (h : '\n' ∉ line) :
    ∃ comment : Option Text,
      (∀ after, (after = [] ∨ ∃ rest, after = '\n' :: rest) →
        genuineFrom reading (line ++ after)
          = comment.toList ++ genuineFrom (readTo reading line) after) ∧
      ∀ t, comment = some t → ∃ x rest, line = x ++ t ∧ t = '#' :: rest := by
  induction line generalizing reading with
  | nil =>
    refine ⟨none, fun after _ => rfl, ?_⟩
    intro t ht
    cases ht
  | cons c line ih =>
    have hline := h
    rw [List.mem_cons, not_or] at h
    by_cases hopen : reading = .code ∧ c = '#'
    · obtain ⟨rfl, rfl⟩ := hopen
      have hread : readTo .code ('#' :: line) = .comment := readTo_comment h.2
      refine ⟨some ('#' :: line), fun after hafter => ?_, fun t ht => ?_⟩
      · have htake := takeWhile_line hline after hafter
        rw [List.cons_append, List.takeWhile_cons_of_pos (by decide)] at htake
        rw [List.cons_append, genuineFrom_open, htake, genuineFrom_comment h.2, hread]
        rfl
      · rw [Option.some.injEq] at ht
        exact ⟨[], line, ht, ht.symm⟩
    · obtain ⟨comment, hcomment, hshape⟩ := ih (next c reading) h.2
      refine ⟨comment, fun after hafter => ?_, fun t ht => ?_⟩
      · rw [List.cons_append, genuineFrom_skip _ hopen, hcomment after hafter, readTo_cons]
      · obtain ⟨x, rest, rfl, hrest⟩ := hshape t ht
        exact ⟨c :: x, rest, rfl, hrest⟩

/-- A line without a `#` is not read into a comment. -/
theorem readTo_ne_comment {reading : Reading} {x : Text} (hreading : reading ≠ .comment)
    (h : '#' ∉ x) : readTo reading x ≠ .comment := by
  induction x generalizing reading with
  | nil => exact hreading
  | cons c x ih =>
    rw [List.mem_cons, not_or] at h
    rw [readTo_cons]
    apply ih _ h.2
    cases reading with
    | comment => exact absurd rfl hreading
    | literal => rw [next]; split <;> exact Reading.noConfusion
    | code =>
      rw [next]
      split
      · exact Reading.noConfusion
      · rw [if_neg (by simpa using fun heq => h.1 heq.symm)]
        exact Reading.noConfusion

theorem next_newline_ne_comment (reading : Reading) : next '\n' reading ≠ .comment := by
  cases reading <;> decide

theorem takeWhile_stop {α : Type} {p : α → Bool} {c : α} (hc : p c = false) (s t : List α) :
    (s ++ c :: t).takeWhile p = s.takeWhile p := by
  induction s with
  | nil => exact List.takeWhile_cons_of_neg (by rw [hc]; decide)
  | cons d s ih =>
    rw [List.cons_append, List.takeWhile_cons, List.takeWhile_cons, ih]

theorem lastLine_line {line : Text} (h : '\n' ∉ line) : lastLine line = line := by
  rw [lastLine, List.takeWhile_eq_self_iff.mpr, List.reverse_reverse]
  intro c hc
  exact bne_iff_ne.mpr fun heq => h (heq ▸ List.mem_reverse.mp hc)

theorem lastLine_append (line before : Text) :
    lastLine (line ++ '\n' :: before) = lastLine before := by
  rw [lastLine, List.reverse_append, List.reverse_cons, List.append_assoc, List.singleton_append,
    takeWhile_stop (by decide), ← lastLine]

/-- A first `#` of a line, read in a literal, with what the search takes for a comment. -/
def Hidden (reading : Reading) (text tail : Text) : Prop :=
  ∃ before rest, text = before ++ '#' :: rest ∧ readTo reading before = .literal ∧
    '#' ∉ lastLine before ∧ tail = '#' :: rest.takeWhile (· != '\n')

/-- There is one way to cut a text at its first `#`. -/
theorem first_hash_unique {x x' rest rest' : Text} (hx : '#' ∉ x) (hx' : '#' ∉ x')
    (h : x ++ '#' :: rest = x' ++ '#' :: rest') : x = x' ∧ rest = rest' := by
  induction x generalizing x' with
  | nil =>
    cases x' with
    | nil => exact ⟨rfl, (List.cons.inj h).2⟩
    | cons d x' =>
      rw [List.nil_append, List.cons_append, List.cons.injEq] at h
      exact absurd (h.1 ▸ List.mem_cons_self) hx'
  | cons c x ih =>
    cases x' with
    | nil =>
      rw [List.nil_append, List.cons_append, List.cons.injEq] at h
      exact absurd (h.1 ▸ List.mem_cons_self) hx
    | cons d x' =>
      rw [List.cons_append, List.cons_append, List.cons.injEq] at h
      rw [List.mem_cons, not_or] at hx hx'
      obtain ⟨rfl, h⟩ := h
      obtain ⟨rfl, hrest⟩ := ih hx.2 hx'.2 h
      exact ⟨rfl, hrest⟩

/-- A first `#` is on a line, or on one of those below. -/
theorem hidden_line {reading : Reading} {line : Text} (h : '\n' ∉ line) {tail : Text} :
    Hidden reading line tail ↔ ∃ x rest, line = x ++ '#' :: rest ∧ '#' ∉ x ∧
      readTo reading x = .literal ∧ tail = '#' :: rest := by
  constructor
  · rintro ⟨x, rest, rfl, hread, hfirst, rfl⟩
    rw [List.mem_append, List.mem_cons, not_or, not_or] at h
    rw [lastLine_line h.1] at hfirst
    have htake := takeWhile_line h.2.2 [] (.inl rfl)
    rw [List.append_nil] at htake
    exact ⟨x, rest, rfl, hfirst, hread, by rw [htake]⟩
  · rintro ⟨x, rest, rfl, hfirst, hread, rfl⟩
    rw [List.mem_append, List.mem_cons, not_or, not_or] at h
    have htake := takeWhile_line h.2.2 [] (.inl rfl)
    rw [List.append_nil] at htake
    exact ⟨x, rest, rfl, hread, by rwa [lastLine_line h.1], by rw [htake]⟩

theorem hidden_lines {reading : Reading} {line : Text} (h : '\n' ∉ line) (more tail : Text) :
    Hidden reading (line ++ '\n' :: more) tail ↔
      Hidden reading line tail ∨ Hidden (next '\n' (readTo reading line)) more tail := by
  constructor
  · rintro ⟨before, rest, hsplit, hread, hfirst, rfl⟩
    rcases List.append_eq_append_iff.mp hsplit with ⟨front, rfl, hfront⟩ | ⟨back, rfl, hback⟩
    · -- behind the end of the line
      cases front with
      | nil => cases hfront
      | cons c front =>
        rw [List.cons_append, List.cons.injEq] at hfront
        obtain ⟨rfl, rfl⟩ := hfront
        rw [readTo_append, readTo_cons] at hread
        rw [lastLine_append] at hfirst
        exact .inr ⟨front, rest, rfl, hread, hfirst, rfl⟩
    · cases back with
      | nil => cases hback
      | cons c back =>
        rw [List.cons_append, List.cons.injEq] at hback
        obtain ⟨rfl, rfl⟩ := hback
        rw [List.mem_append, List.mem_cons, not_or, not_or] at h
        rw [takeWhile_line h.2.2 _ (.inr ⟨more, rfl⟩)]
        have htake := takeWhile_line h.2.2 [] (.inl rfl)
        rw [List.append_nil] at htake
        exact .inl ⟨before, back, rfl, hread, hfirst, by rw [htake]⟩
  · rintro (⟨before, rest, rfl, hread, hfirst, rfl⟩ | ⟨before, rest, rfl, hread, hfirst, rfl⟩)
    · rw [List.mem_append, List.mem_cons, not_or, not_or] at h
      refine ⟨before, rest ++ '\n' :: more, by simp, hread, hfirst, ?_⟩
      have htake := takeWhile_line h.2.2 [] (.inl rfl)
      rw [List.append_nil] at htake
      rw [takeWhile_line h.2.2 _ (.inr ⟨more, rfl⟩), htake]
    · refine ⟨line ++ '\n' :: before, rest, by simp, ?_, ?_, rfl⟩
      · rw [readTo_append, readTo_cons, hread]
      · rwa [lastLine_append]

/-- What the search finds of a text, each with the comment that is opened on its line. -/
structure Pairs (reading : Reading) (text : Text) (P : List (Text × Option Text)) : Prop where
  found : ∀ after, (after = [] ∨ ∃ rest, after = '\n' :: rest) →
    parser._COMMENT (text ++ after) = P.map Prod.fst ++ parser._COMMENT after
  opened : ∀ after, (after = [] ∨ ∃ rest, after = '\n' :: rest) →
    genuineFrom reading (text ++ after)
      = P.filterMap Prod.snd ++ genuineFrom (readTo reading text) after
  within : ∀ p ∈ P, ∀ t, p.2 = some t → ∃ x rest, p.1 = x ++ t ∧ t = '#' :: rest ∧
    ∀ c ∈ x.head?, c = '#'
  hidden : ∀ tail, Hidden reading text tail ↔ ∃ p ∈ P, p.1 = tail ∧ p.2 ≠ some tail

theorem pairs_none {reading : Reading} {line : Text} (hline : '\n' ∉ line) (h : '#' ∉ line) :
    Pairs reading line [] := by
  constructor
  · intro after hafter
    rw [parser._COMMENT, findall_line hline after hafter, if_neg fun hboth => h hboth.2]
    rfl
  · intro after hafter
    exact genuineFrom_plain reading h after
  · intro p hp
    cases hp
  · intro tail
    rw [hidden_line hline]
    constructor
    · rintro ⟨x, rest, rfl, -⟩
      exact absurd (List.mem_append_right _ List.mem_cons_self) h
    · rintro ⟨p, hp, -⟩
      cases hp

/-- The comment of a line that begins with a `#`: it is the line itself where the `#` is read in
code, and something shorter in a literal. -/
theorem opened_whole {reading : Reading} {rest : Text} {comment : Option Text}
    (hreading : reading ≠ .comment) (hrest : '\n' ∉ '#' :: rest)
    (hcomment : ∀ after, (after = [] ∨ ∃ more, after = '\n' :: more) →
      genuineFrom reading ('#' :: rest ++ after)
        = comment.toList ++ genuineFrom (readTo reading ('#' :: rest)) after) :
    comment = some ('#' :: rest) ↔ reading ≠ .literal := by
  have hinner : '\n' ∉ rest := fun hmem => hrest (List.mem_cons_of_mem _ hmem)
  have hopened : genuineFrom reading ('#' :: rest) = comment.toList := by
    have h := hcomment [] (.inl rfl)
    rwa [List.append_nil, genuineFrom, List.append_nil] at h
  constructor
  · intro hwhole hread
    -- a comment that is found later in the literal is shorter than the whole rest
    subst hread
    obtain ⟨inner, hinnerline, hshape⟩ := genuineFrom_line .literal hinner
    have hinneropened := hinnerline [] (.inl rfl)
    rw [List.append_nil, genuineFrom, List.append_nil] at hinneropened
    have hskip : genuineFrom .literal ('#' :: rest) = genuineFrom .literal rest :=
      genuineFrom_skip rest fun hopen => Reading.noConfusion hopen.1
    rw [hwhole, hskip, hinneropened] at hopened
    have heq : inner = some ('#' :: rest) := by
      cases inner with
      | none => cases hopened
      | some t => rw [(List.cons.inj hopened).1]
    obtain ⟨x, more, hsplit, -⟩ := hshape _ heq
    have hlength := congrArg List.length hsplit
    rw [List.length_append, List.length_cons] at hlength
    omega
  · intro hread
    -- in code the first `#` opens the comment
    have hcode : reading = .code := by
      cases reading with
      | code => rfl
      | literal => exact absurd rfl hread
      | comment => exact absurd rfl hreading
    subst hcode
    have htake := takeWhile_line hinner [] (.inl rfl)
    have hnone := genuineFrom_comment hinner []
    rw [List.append_nil] at htake hnone
    rw [genuineFrom_open, htake, hnone, genuineFrom] at hopened
    cases comment with
    | none => cases hopened
    | some t => rw [(List.cons.inj hopened).1]

theorem pairs_hash {reading : Reading} (hreading : reading ≠ .comment) {x rest : Text}
    (hline : '\n' ∉ x ++ '#' :: rest) (hx : '#' ∉ x) :
    ∃ comment, Pairs reading (x ++ '#' :: rest) [('#' :: rest, comment)] := by
  have hrest : '\n' ∉ '#' :: rest := fun hmem => hline (List.mem_append_right _ hmem)
  have hdrop : (x ++ '#' :: rest).dropWhile (· != '#') = '#' :: rest := by
    apply Words.dropWhile_word
    · intro c hc
      exact bne_iff_ne.mpr fun heq => hx (heq ▸ hc)
    · exact .cons (by decide)
  have hfound : ∀ after, (after = [] ∨ ∃ more, after = '\n' :: more) →
      parser._COMMENT ((x ++ '#' :: rest) ++ after) = ['#' :: rest] ++ parser._COMMENT after := by
    intro after hafter
    rw [parser._COMMENT, findall_line hline after hafter, hdrop,
      if_pos ⟨rfl, List.mem_append_right _ List.mem_cons_self⟩]
  obtain ⟨comment, hcomment, hshape⟩ := genuineFrom_line (readTo reading x) hrest
  have hopened : ∀ after, (after = [] ∨ ∃ more, after = '\n' :: more) →
      genuineFrom reading ((x ++ '#' :: rest) ++ after)
        = comment.toList ++ genuineFrom (readTo reading (x ++ '#' :: rest)) after := by
    intro after hafter
    rw [List.append_assoc, genuineFrom_plain reading hx, hcomment after hafter, readTo_append]
  -- the comment is the whole tail exactly if the first `#` is read in code
  have hwhole : comment = some ('#' :: rest) ↔ readTo reading x ≠ .literal :=
    opened_whole (readTo_ne_comment hreading hx) hrest hcomment
  refine ⟨comment, hfound, fun after hafter => ?_, fun p hp t ht => ?_, fun tail => ?_⟩
  · rw [hopened after hafter]
    cases comment <;> rfl
  · rw [List.mem_singleton] at hp
    subst hp
    obtain ⟨y, more, hsplit, hmore⟩ := hshape t ht
    refine ⟨y, more, hsplit, hmore, fun c hc => ?_⟩
    cases y with
    | nil => cases hc
    | cons d y =>
      rw [List.cons_append, List.cons.injEq] at hsplit
      rw [← Option.some.inj hc, hsplit.1]
  · rw [hidden_line hline]
    constructor
    · rintro ⟨x', rest', hsplit, hx', hread, rfl⟩
      obtain ⟨rfl, rfl⟩ := first_hash_unique hx hx' hsplit
      exact ⟨_, List.mem_singleton_self _, rfl, fun heq => hwhole.mp heq hread⟩
    · rintro ⟨p, hp, rfl, hne⟩
      rw [List.mem_singleton] at hp
      subst hp
      refine ⟨x, rest, rfl, hx, ?_, rfl⟩
      by_contra hread
      exact hne (hwhole.mpr hread)

theorem comment_newline (text : Text) : parser._COMMENT ('\n' :: text) = parser._COMMENT text := by
  rw [parser._COMMENT, Words.findall_skip (by decide), ← parser._COMMENT]

/-- A line, and the lines below it. -/
theorem Pairs.append {reading : Reading} {line more : Text} {P Q : List (Text × Option Text)}
    (hline : '\n' ∉ line) (h : Pairs reading line P)
    (hmore : Pairs (next '\n' (readTo reading line)) more Q) :
    Pairs reading (line ++ '\n' :: more) (P ++ Q) := by
  have hskip : ¬(readTo reading line = .code ∧ '\n' = '#') := fun hopen => by cases hopen.2
  constructor
  · intro after hafter
    rw [List.append_assoc, List.cons_append, h.found _ (.inr ⟨more ++ after, rfl⟩),
      comment_newline, hmore.found after hafter, List.map_append, List.append_assoc]
  · intro after hafter
    rw [List.append_assoc, List.cons_append, h.opened _ (.inr ⟨more ++ after, rfl⟩),
      genuineFrom_skip _ hskip, hmore.opened after hafter, List.filterMap_append,
      List.append_assoc, readTo_append, readTo_cons]
  · intro p hp
    rcases List.mem_append.mp hp with hp | hp
    · exact h.within p hp
    · exact hmore.within p hp
  · intro tail
    rw [hidden_lines hline, h.hidden, hmore.hidden]
    simp only [List.mem_append, or_and_right, exists_or]

/-- **What the search finds**, of every text. -/
theorem exists_pairs {reading : Reading} (hreading : reading ≠ .comment) (text : Text) :
    ∃ P, Pairs reading text P := by
  have hline : ∀ (reading : Reading) (line : Text), reading ≠ .comment → '\n' ∉ line →
      ∃ P, Pairs reading line P := by
    intro reading line hreading hline
    by_cases hhash : '#' ∈ line
    · obtain ⟨x, rest, rfl, hx⟩ := List.eq_append_cons_of_mem hhash
      obtain ⟨comment, hpairs⟩ := pairs_hash hreading hline hx
      exact ⟨_, hpairs⟩
    · exact ⟨[], pairs_none hline hhash⟩
  induction text using line_induction generalizing reading with
  | single line h => exact hline reading line hreading h
  | more line rest h ih =>
    obtain ⟨P, hP⟩ := hline reading line hreading h
    obtain ⟨Q, hQ⟩ := ih (next_newline_ne_comment (readTo reading line))
    exact ⟨P ++ Q, hP.append h hQ⟩

/-- The sections of a process, one below the other. Each is read anew. -/
theorem exists_pairs_sections (sections : List Text) :
    ∃ P : List (Text × Option Text),
      parser._COMMENT (List.intercalate ['\n'] sections) = P.map Prod.fst ∧
      sections.flatMap (genuineFrom .code) = P.filterMap Prod.snd ∧
      (∀ p ∈ P, ∀ t, p.2 = some t → ∃ x rest, p.1 = x ++ t ∧ t = '#' :: rest ∧
        ∀ c ∈ x.head?, c = '#') ∧
      ∀ tail, (∃ code ∈ sections, Hidden .code code tail) ↔
        ∃ p ∈ P, p.1 = tail ∧ p.2 ≠ some tail := by
  induction sections with
  | nil => exact ⟨[], rfl, rfl, by simp, by simp⟩
  | cons code sections ih =>
    obtain ⟨Q, hfound, hopened, hwithin, hhidden⟩ := ih
    have hcode : Reading.code ≠ .comment := Reading.noConfusion
    obtain ⟨P, hP⟩ := exists_pairs hcode code
    have hgenuine := hP.opened [] (.inl rfl)
    rw [List.append_nil, genuineFrom, List.append_nil] at hgenuine
    refine ⟨P ++ Q, ?_, ?_, fun p hp => ?_, fun tail => ?_⟩
    · rw [List.map_append, ← hfound]
      -- the newline between two sections is none of a comment's
      cases sections with
      | nil =>
        have hlast := hP.found [] (.inl rfl)
        rw [List.append_nil] at hlast
        rw [List.intercalate_singleton, hlast]
        rfl
      | cons following sections =>
        rw [List.intercalate_cons_cons, List.append_assoc, List.singleton_append,
          hP.found _ (.inr ⟨_, rfl⟩), comment_newline]
    · rw [List.flatMap_cons, hopened, hgenuine, List.filterMap_append]
    · rcases List.mem_append.mp hp with hp | hp
      · exact hP.within p hp
      · exact hwithin p hp
    · simp only [List.mem_cons, List.mem_append, or_and_right, exists_or, exists_eq_left,
        hP.hidden, hhidden]

/-! ## What is kept -/

theorem stripHash_append {line : Text} (x : Text) (h : parser.stripHash line ≠ []) :
    ∃ y, parser.stripHash (x ++ line) = y ++ parser.stripHash line := by
  have hfront : ∃ y, (x ++ line).dropWhile (· == '#') = y ++ line.dropWhile (· == '#') := by
    rw [List.dropWhile_append]
    split
    · exact ⟨[], rfl⟩
    · refine ⟨x.dropWhile (· == '#') ++ line.takeWhile (· == '#'), ?_⟩
      rw [List.append_assoc, List.takeWhile_append_dropWhile]
  obtain ⟨y, hy⟩ := hfront
  refine ⟨y, ?_⟩
  unfold parser.stripHash at h ⊢
  rw [hy, List.reverse_append, List.dropWhile_append]
  split
  · rename_i hempty
    rw [List.isEmpty_iff] at hempty
    rw [hempty] at h
    exact absurd rfl h
  · rw [List.reverse_append, List.reverse_reverse]

/-- A comment that begins further to the left. -/
theorem strip_within {x rest : Text} (hx : ∀ c ∈ x.head?, c = '#') :
    strip (x ++ '#' :: rest) = x ++ strip ('#' :: rest) := by
  have hhash : isspace '#' = false := by decide
  have hshort := rules.strip_append_cons [] (fun c hc => by cases hc) hhash rest
  rw [List.nil_append] at hshort
  cases x with
  | nil => rfl
  | cons c x =>
    have hc : c = '#' := hx c rfl
    subst hc
    have hlong := rules.strip_append_cons [] (fun c hc => by cases hc) hhash (x ++ '#' :: rest)
    rw [List.nil_append, rules.rstrip_append_cons hhash] at hlong
    rw [List.cons_append, hlong, hshort]
    rfl

theorem hasText_within {x rest : Text} (hx : ∀ c ∈ x.head?, c = '#')
    (h : parser.hasText ('#' :: rest) = true) : parser.hasText (x ++ '#' :: rest) = true := by
  rw [parser.hasText, decide_eq_true_eq] at h ⊢
  have hne : parser.stripHash (strip ('#' :: rest)) ≠ [] := by
    intro hnil
    rw [hnil] at h
    exact h rfl
  obtain ⟨y, hy⟩ := stripHash_append x hne
  rw [strip_within hx, hy]
  rw [ne_eq, rules.strip_eq_nil_iff] at h ⊢
  rw [List.find?_append, Option.or_eq_none_iff]
  exact fun hboth => h hboth.2

theorem length_filterMap_le {α β : Type} {f g : α → Option β} {P : List α}
    (h : ∀ p ∈ P, (g p).isSome → (f p).isSome) :
    (P.filterMap g).length ≤ (P.filterMap f).length := by
  rw [List.length_filterMap_eq_countP, List.length_filterMap_eq_countP]
  exact List.countP_mono_left h

/-- Where a function gives no less than another, both give the same list only where they are the
same. -/
theorem filterMap_eq_iff {α β : Type} {f g : α → Option β} {P : List α}
    (h : ∀ p ∈ P, (g p).isSome → (f p).isSome) :
    P.filterMap f = P.filterMap g ↔ ∀ p ∈ P, f p = g p := by
  induction P with
  | nil => exact iff_of_true rfl fun p hp => absurd hp List.not_mem_nil
  | cons p P ih =>
    rw [List.forall_mem_cons] at h
    rw [List.forall_mem_cons, ← ih h.2]
    cases hg : g p with
    | some b =>
      have hsome := h.1 (by rw [hg]; rfl)
      obtain ⟨a, ha⟩ := Option.isSome_iff_exists.mp hsome
      rw [List.filterMap_cons_some ha, List.filterMap_cons_some hg, ha, List.cons.injEq,
        Option.some.injEq]
    | none =>
      cases hf : f p with
      | none =>
        rw [List.filterMap_cons_none hf, List.filterMap_cons_none hg, eq_self_iff_true, true_and]
      | some a =>
        rw [List.filterMap_cons_some hf, List.filterMap_cons_none hg]
        refine iff_of_false (fun heq => ?_) (fun hboth => by cases hboth.1)
        -- one list is longer already
        have hlength := congrArg List.length heq
        have hle := length_filterMap_le h.2
        rw [List.length_cons] at hlength
        omega

theorem kept_eq (found : List Text) :
    parser.kept found
      = found.filterMap fun t => if parser.hasText t then some (strip t) else none := by
  rw [parser.kept, ← List.filterMap_eq_filter, List.map_filterMap]
  apply List.filterMap_congr
  intro t _
  cases h : parser.hasText t <;> simp [Option.guard, h]

/-- What is kept of the search is what is kept of the comments, exactly if the search finds each
comment that has a text where it begins. -/
theorem kept_eq_iff {P : List (Text × Option Text)}
    (hwithin : ∀ p ∈ P, ∀ t, p.2 = some t → ∃ x rest, p.1 = x ++ t ∧ t = '#' :: rest ∧
      ∀ c ∈ x.head?, c = '#') :
    parser.kept (P.map Prod.fst) = parser.kept (P.filterMap Prod.snd) ↔
      ∀ p ∈ P, parser.hasText p.1 = true → p.2 = some p.1 := by
  rw [kept_eq, kept_eq, List.filterMap_map, List.filterMap_filterMap, filterMap_eq_iff]
  · apply forall₂_congr
    intro p hp
    rw [Function.comp_apply]
    cases hsnd : p.2 with
    -- no comment here: the search must find no text either
    | none =>
      cases h : parser.hasText p.1 <;> simp
    | some t =>
      obtain ⟨x, rest, hfst, rfl, hx⟩ := hwithin p hp t hsnd
      rw [hfst, Option.bind_some, Option.some.injEq]
      cases h : parser.hasText (x ++ '#' :: rest) with
      | false =>
        -- the comment is the end of what the search finds, so it has no text either
        have hshort : parser.hasText ('#' :: rest) = false := by
          by_contra hshort
          rw [Bool.not_eq_false] at hshort
          rw [hasText_within hx hshort] at h
          cases h
        simp [hshort]
      | true =>
        rw [if_pos rfl, strip_within hx]
        constructor
        -- after stripping, the two are one only if the search began at the comment
        · intro heq _
          by_cases hshort : parser.hasText ('#' :: rest) = true
          · rw [if_pos hshort, Option.some.injEq] at heq
            rw [List.self_eq_append_left.mp heq.symm]
            rfl
          · rw [if_neg hshort] at heq
            cases heq
        · intro heq
          have hsame := heq rfl
          rw [← hsame] at h
          rw [if_pos h, List.self_eq_append_left.mp hsame]
          rfl
  · intro p hp hsome
    rw [Function.comp_apply]
    cases hsnd : p.2 with
    | none =>
      rw [hsnd] at hsome
      cases hsome
    | some t =>
      obtain ⟨x, rest, hfst, rfl, hx⟩ := hwithin p hp t hsnd
      rw [hsnd, Option.bind_some] at hsome
      have hshort : parser.hasText ('#' :: rest) = true := by
        by_contra hshort
        rw [if_neg hshort] at hsome
        cases hsome
      rw [hfst, if_pos (hasText_within hx hshort)]
      rfl

/-! ## The comments of a process -/

theorem misleads_iff (code : Text) :
    Misleads code ↔ ∃ tail, Hidden .code code tail ∧ parser.hasText tail = true := by
  constructor
  · rintro ⟨before, rest, hcode, hread, hfirst, htext⟩
    exact ⟨_, ⟨before, rest, hcode, hread, hfirst, rfl⟩, htext⟩
  · rintro ⟨tail, ⟨before, rest, hcode, hread, hfirst, rfl⟩, htext⟩
    exact ⟨before, rest, hcode, hread, hfirst, htext⟩

/-- **The recorded comments are the genuine ones**, and the documentation finding and the
header convention as they have it, exactly if no section misleads the search. -/
theorem recordsGenuine_iff (p : Sections) :
    RecordsGenuine p ↔ ∀ code ∈ p.list, ¬Misleads code := by
  obtain ⟨P, hfound, hopened, hwithin, hhidden⟩ := exists_pairs_sections p.list
  have hcomments : parser.comments p = genuine p ↔ ∀ code ∈ p.list, ¬Misleads code := by
    rw [parser.comments, genuine, hfound, hopened, kept_eq_iff hwithin]
    constructor
    · intro h code hcode hmisleads
      obtain ⟨tail, htail, htext⟩ := (misleads_iff code).mp hmisleads
      obtain ⟨pair, hpair, rfl, hne⟩ := (hhidden tail).mp ⟨code, hcode, htail⟩
      exact hne (h pair hpair htext)
    · intro h pair hpair htext
      by_contra hne
      obtain ⟨code, hcode, htail⟩ := (hhidden pair.1).mpr ⟨pair, hpair, rfl, hne⟩
      exact h code hcode ((misleads_iff code).mpr ⟨pair.1, htail, htext⟩)
  rw [← hcomments]
  constructor
  · intro h
    exact h.comments
  · intro h
    exact ⟨h, by rw [h], by rw [h]⟩

/-- A process of four lines with no comment, and a number format in the first. -/
def masked : Sections :=
  ⟨"sMask = '#,##0';\nnRow = 1;\nnRow = 2;\nnRow = 3;".toList, [], [], [], 4⟩

/-- The format is recorded, and passes for documentation. -/
theorem masked_recorded : ¬RecordsGenuine masked := by
  intro h
  have hfinding := h.documentation
  have hrecorded : parser.comments masked = ["#,##0';".toList] := by decide +kernel
  have hgenuine : genuine masked = [] := by decide +kernel
  have hlines : masked.prolog_lines = 4 := rfl
  have hheader : parser.header_comment ["#,##0';".toList] ≠ [] := by decide +kernel
  rw [hrecorded, hgenuine, documentation, documentation, hlines, if_neg fun hboth => hheader hboth.2,
    if_pos ⟨by decide, rfl⟩] at hfinding
  cases hfinding

end PaCopilot.ti
