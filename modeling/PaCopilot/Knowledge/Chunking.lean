/-
The chunks of a document, `knowledge/chunking.py`.

White space is all that a chunk may be without: the ends of lines, what is stripped, and what
stands between paragraphs. So a text is compared with its chunks by its other characters,
its `letters`, and of these each chunk has a stretch (`Cover.Covers`). A block that is cut has
stretches that overlap, and where blocks are packed each stretch begins where the last one
ended.
-/
import Mathlib.Data.List.DropRight
import PaCopilot.Lib.Cover
import PaCopilot.Tm1.Rules.Parser

set_option autoImplicit false

namespace PaCopilot.chunking

open Cover
open Python (isspace strip afterWord sameLetter)
open rules (Text splitlines splitlines_cons isLineBreak consLine)

/-! ## The patterns -/

section Patterns

-- `str.isalnum` of one character, by the tables of Unicode
variable (isalnum : Char → Bool)

/-- `_TI_SECTION.match(line)`. -/
def _TI_SECTION (line : Text) : Bool :=
  (afterWord "#section".toList (line.dropWhile isspace)).any fun rest =>
    rest.head?.any isspace && (rest.dropWhile isspace).head?.any fun c => isalnum c || c = '_'

/-- `_MARKDOWN_HEADING.match(line)`. -/
def _MARKDOWN_HEADING (line : Text) : Bool :=
  let marks := line.takeWhile (· = '#')
  let rest := line.dropWhile (· = '#')
  1 ≤ marks.length && marks.length ≤ 6 && rest.head?.any isspace && rest.dropWhile isspace ≠ []

/-- `_ENTRY_HEADING.match(line)`. -/
def _ENTRY_HEADING (line : Text) : Bool :=
  match line with
  | [] => false
  | c :: rest =>
    let name := rest.takeWhile fun c => c.isAlphanum || c = '_'
    c.isAlpha && 2 ≤ name.length && name.length ≤ 40 && (rest.drop name.length).all isspace

/-- The words of `_REFERENCE_MARKER`, with what is optional at their ends. -/
def markerWords : List Text :=
  ["syntax", "purpose", "argument", "arguments", "example", "return", "returns", "description",
    "note"].map String.toList

/-- `_REFERENCE_MARKER.match(line)`. -/
def _REFERENCE_MARKER (line : Text) : Bool :=
  let closes (rest : Text) : Bool := (rest.dropWhile isspace).head?.any fun c => c = ':' || c = '-'
  markerWords.any fun word => (afterWord word (line.dropWhile isspace)).any fun rest =>
    closes rest || (afterWord ['s'] rest).any closes

def _is_boundary (line : Text) (next_lines : List Text) : Bool :=
  _TI_SECTION isalnum line || _MARKDOWN_HEADING line
    || (_ENTRY_HEADING line && (next_lines.take 4).any _REFERENCE_MARKER)

/-! ## Blocks -/

/-- The loop of `_blocks`: the lines in groups, of which `current` is the one that is open. -/
def grouped : List Text → List Text → List (List Text)
  | current, [] => if current ≠ [] then [current] else []
  | current, line :: rest =>
    if current ≠ [] ∧ _is_boundary isalnum line rest = true then current :: grouped [line] rest
    else grouped (current ++ [line]) rest

end Patterns

/-- `\n\s*\n` at the front of a text: how long the match is, zero where there is none. The
white space is taken as far as a last newline goes. -/
def blankLines : Text → ℕ
  | [] => 0
  | c :: rest =>
    if c = '\n' then
      let gap := (rest.takeWhile isspace).rdropWhile (· ≠ '\n')
      if gap = [] then 0 else gap.length + 1
    else 0

/-- `re.split(r"\n\s*\n", text)`, with so many characters of a match left. -/
def splitBlank : ℕ → Text → List Text
  | _, [] => [[]]
  | n + 1, _ :: rest => splitBlank n rest
  | 0, c :: rest =>
    match blankLines (c :: rest) with
    | 0 => consLine c (splitBlank 0 rest)
    | n + 1 => [] :: splitBlank n rest

def _blocks (isalnum : Char → Bool) (text : Text) : List Text :=
  let joined := (grouped isalnum [] (splitlines text)).map fun block =>
    strip (List.intercalate ['\n'] block)
  let structured := joined.filter fun block => !block.isEmpty
  -- nothing structural to go on
  if structured.length ≤ 1 then
    ((splitBlank 0 text).map strip).filter fun paragraph => !paragraph.isEmpty
  else structured

/-! ## Chunks -/

/-- The loop of `_split_oversized`, for at most `fuel` passes. -/
def cut (block : Text) (chunk_size overlap : ℕ) : ℕ → ℕ → Option (List Text)
  | 0, _ => none
  | fuel + 1, start =>
    if start < block.length then
      let finish := start + chunk_size
      let piece := strip ((block.take finish).drop start)
      if block.length ≤ finish then some [piece]
      else (cut block chunk_size overlap fuel (finish - overlap)).map (piece :: ·)
    else some []

/-- `_split_oversized`. The loop has no more passes than the block has characters, unless it
makes no progress and never ends: then there is no result. -/
def _split_oversized (block : Text) (chunk_size overlap : ℕ) : Option (List Text) :=
  (cut block chunk_size overlap (block.length + 1) 0).map
    (List.filter fun piece => !piece.isEmpty)

/-- The variables of the loop of `chunk_text`. -/
structure Packing where
  chunks : List Text := []
  current : Text := []
  deriving DecidableEq

/-- The chunks with the one that is being packed, if it has anything. -/
def Packing.flush (packing : Packing) : List Text :=
  if packing.current ≠ [] then packing.chunks ++ [packing.current] else packing.chunks

/-- One block. -/
def Packing.add (chunk_size overlap : ℕ) (packing : Packing) (block : Text) : Option Packing :=
  if chunk_size < block.length then do
    let pieces ← _split_oversized block chunk_size overlap
    return ⟨packing.flush ++ pieces, []⟩
  else
    let candidate :=
      if packing.current ≠ [] then packing.current ++ ['\n', '\n'] ++ block else block
    if chunk_size < candidate.length then some ⟨packing.chunks ++ [packing.current], block⟩
    else some ⟨packing.chunks, candidate⟩

def chunk_text (isalnum : Char → Bool) (text : Text) (chunk_size overlap : ℕ) :
    Option (List Text) :=
  let text := strip text
  if text = [] then some []
  else do
    let packing ← (_blocks isalnum text).foldlM (Packing.add chunk_size overlap) {}
    return packing.flush.filter fun chunk => !chunk.isEmpty

/-! ## The characters of a text -/

/-- The characters that are not white space. -/
def letters (text : Text) : Text := text.filter fun c => !isspace c

section Letters

variable {text rest : Text} {c : Char} {parts : List Text}

theorem letters_append (first second : Text) :
    letters (first ++ second) = letters first ++ letters second :=
  List.filter_append ..

theorem letters_cons_space (h : isspace c = true) : letters (c :: text) = letters text :=
  List.filter_cons_of_neg (by rw [h]; decide)

theorem letters_nil : letters [] = [] := List.filter_nil

theorem letters_newline : letters ('\n' :: text) = letters text := letters_cons_space (by decide)

theorem letters_eq_nil (h : ∀ c ∈ text, isspace c = true) : letters text = [] := by
  rw [letters, List.filter_eq_nil_iff]
  intro c hc
  rw [h c hc]
  decide

theorem letters_dropWhile (text : Text) : letters (text.dropWhile isspace) = letters text := by
  have hspace : letters (text.takeWhile isspace) = [] :=
    letters_eq_nil fun c hc => List.mem_takeWhile_imp hc
  calc letters (text.dropWhile isspace)
      = letters (text.takeWhile isspace) ++ letters (text.dropWhile isspace) := by
        rw [hspace, List.nil_append]
    _ = letters text := by rw [← letters_append, List.takeWhile_append_dropWhile]

theorem letters_reverse (text : Text) : letters text.reverse = (letters text).reverse :=
  List.filter_reverse ..

theorem letters_strip (text : Text) : letters (strip text) = letters text := by
  rw [strip, letters_reverse, letters_dropWhile, letters_reverse, letters_dropWhile,
    List.reverse_reverse]

/-- Parts that were changed in their white space alone. -/
theorem letters_flatten_map {β : Type} {f g : β → Text} {items : List β}
    (h : ∀ x ∈ items, letters (f x) = letters (g x)) :
    letters (items.map f).flatten = letters (items.map g).flatten := by
  induction items with
  | nil => rfl
  | cons x items ih =>
    rw [List.map_cons, List.map_cons, List.flatten_cons, List.flatten_cons, letters_append,
      letters_append, h x List.mem_cons_self, ih fun y hy => h y (List.mem_cons_of_mem _ hy)]

theorem flatten_consLine (c : Char) (lines : List Text) :
    (consLine c lines).flatten = c :: lines.flatten := by
  cases lines with
  | nil => rfl
  | cons line lines => rfl

theorem isspace_of_isLineBreak (h : isLineBreak c = true) : isspace c = true := by
  simp only [isLineBreak, isspace, Bool.or_eq_true, Bool.and_eq_true, decide_eq_true_eq,
    beq_iff_eq] at h ⊢
  omega

/-- A line ends at white space. -/
theorem letters_splitlines (text : Text) : letters (splitlines text).flatten = letters text := by
  induction text using rules.splitlines.induct with
  | case1 => rfl
  | case2 rest ih =>
    have hsplit : splitlines ('\r' :: '\n' :: rest) = [] :: splitlines rest := rfl
    rw [hsplit, List.flatten_cons, List.nil_append, ih, letters_cons_space (by decide),
      letters_newline]
  | case3 c rest hnot hbreak ih =>
    rw [splitlines_cons hnot, if_pos hbreak, List.flatten_cons, List.nil_append, ih,
      letters_cons_space (isspace_of_isLineBreak hbreak)]
  | case4 c rest hnot hbreak ih =>
    rw [splitlines_cons hnot, if_neg hbreak, flatten_consLine, ← List.singleton_append,
      letters_append, ih, ← letters_append]
    rfl

theorem letters_intercalate (lines : List Text) :
    letters (List.intercalate ['\n'] lines) = letters lines.flatten := by
  induction lines with
  | nil => rfl
  | cons line lines ih =>
    cases lines with
    | nil => rw [List.intercalate_singleton, List.flatten_cons, List.flatten_nil, List.append_nil]
    | cons next lines =>
      rw [List.intercalate_cons_cons, letters_append, letters_append, ih, letters_newline,
        letters_nil, List.append_nil, ← letters_append]
      rfl

/-! ## The blocks of a text -/

/-- The lines of the blocks are the lines. -/
theorem flatten_grouped (isalnum : Char → Bool) (current lines : List Text) :
    (grouped isalnum current lines).flatten = current ++ lines := by
  fun_induction grouped isalnum current lines with
  | case1 current h =>
    rw [List.flatten_cons, List.flatten_nil]
  | case2 current h =>
    -- no line was open
    rw [not_not.mp h]
    rfl
  | case3 current line rest h ih =>
    rw [List.flatten_cons, ih, List.singleton_append]
  | case4 current line rest h ih =>
    rw [ih, List.append_assoc, List.singleton_append]

/-- What a paragraph ends at is white space. -/
theorem isspace_of_blankLines {c : Char} (h : c ∈ text.take (blankLines text)) :
    isspace c = true := by
  cases text with
  | nil => cases h
  | cons d rest =>
    rw [blankLines] at h
    by_cases hd : d = '\n'
    · rw [if_pos hd] at h
      dsimp only at h
      split at h
      · cases h
      · have hgap : (rest.takeWhile isspace).rdropWhile (· ≠ '\n') <+: rest :=
          (List.rdropWhile_prefix _ _).trans (List.takeWhile_prefix _)
        rw [List.take_succ_cons, List.mem_cons, ← List.prefix_iff_eq_take.mp hgap] at h
        rcases h with rfl | h
        · rw [hd]
          decide
        · exact List.mem_takeWhile_imp ((List.rdropWhile_prefix _ _).subset h)
    · rw [if_neg hd] at h
      cases h

theorem letters_splitBlank (n : ℕ) (text : Text) (hspace : ∀ c ∈ text.take n, isspace c = true) :
    letters (splitBlank n text).flatten = letters text := by
  fun_induction splitBlank n text with
  | case1 => rfl
  | case2 n c rest ih =>
    rw [List.take_succ_cons] at hspace
    rw [ih fun d hd => hspace d (List.mem_cons_of_mem _ hd),
      letters_cons_space (hspace c List.mem_cons_self)]
  | case3 c rest h ih =>
    rw [flatten_consLine, ← List.singleton_append, letters_append, ih (by simp), ← letters_append]
    rfl
  | case4 c rest n h ih =>
    -- the rest of the match is skipped
    have hmatch : ∀ d ∈ (c :: rest).take (n + 1), isspace d = true := fun d hd =>
      isspace_of_blankLines (by rwa [h])
    rw [List.take_succ_cons] at hmatch
    rw [List.flatten_cons, List.nil_append,
      ih fun d hd => hmatch d (List.mem_cons_of_mem _ hd),
      letters_cons_space (hmatch c List.mem_cons_self)]

/-- **The blocks have all characters of the text, but for white space.** -/
theorem letters_blocks (isalnum : Char → Bool) (text : Text) :
    letters (_blocks isalnum text).flatten = letters text := by
  -- the lines in their groups are all lines, and joining them adds white space
  have hlines : letters ((grouped isalnum [] (splitlines text)).map fun block =>
      strip (List.intercalate ['\n'] block)).flatten = letters text := by
    rw [letters_flatten_map (g := List.flatten) fun block _ => by
      rw [letters_strip, letters_intercalate]]
    rw [← List.flatten_flatten, flatten_grouped, List.nil_append, letters_splitlines]
  unfold _blocks
  dsimp only
  split
  · rw [List.flatten_filter_not_isEmpty,
      letters_flatten_map (g := id) fun part _ => letters_strip part, List.map_id,
      letters_splitBlank 0 text (by simp)]
  · rw [List.flatten_filter_not_isEmpty, hlines]

end Letters

/-! ## A block that is cut -/

section Cut

variable {block : Text} {chunk_size overlap : ℕ}

/-- **The loop ends, and what it cuts covers the block.** A pass begins at `start`, in front of
what the passes before it have covered, and each goes further than the one before. -/
theorem cut_spec (hsizes : overlap < chunk_size) {fuel start began covered : ℕ}
    (hfuel : block.length < fuel + start) (hbegan : began ≤ start) (hstart : start ≤ covered)
    (hcovered : covered ≤ start + chunk_size)
    (hinside : start < block.length ∨ block = [] ∧ start = 0) :
    ∃ pieces, cut block chunk_size overlap fuel start = some (pieces.map strip) ∧
      (∀ piece ∈ pieces, piece.length ≤ chunk_size) ∧
      CoversFrom block (block.take began) (block.take covered) pieces := by
  induction fuel generalizing start began covered with
  | zero =>
    rcases hinside with hlt | ⟨rfl, rfl⟩
    · omega
    · cases hfuel
  | succ fuel ih =>
    rw [cut]
    rcases hinside with hlt | ⟨rfl, rfl⟩
    swap
    · -- a block that is empty is left at once
      refine ⟨[], by simp, by simp, ?_⟩
      rw [List.take_nil, List.take_nil]
      exact .nil List.nil_prefix
    rw [if_pos hlt]
    dsimp only
    have htake : block.take start ++ (block.take (start + chunk_size)).drop start
        = block.take (start + chunk_size) := by
      have hmin : (block.take (start + chunk_size)).take start = block.take start := by
        rw [List.take_take, Nat.min_eq_left (Nat.le_add_right _ _)]
      rw [← hmin, List.take_append_drop]
    have hlength : ((block.take (start + chunk_size)).drop start).length ≤ chunk_size := by
      rw [List.length_drop, List.length_take]
      omega
    have hcons : ∀ pieces, CoversFrom block (block.take start) (block.take (start + chunk_size))
        pieces → CoversFrom block (block.take began) (block.take covered)
          ((block.take (start + chunk_size)).drop start :: pieces) := by
      intro pieces hpieces
      apply CoversFrom.cons (List.take_prefix_take_left hbegan) (List.take_prefix_take_left hstart)
      · rw [htake]
        exact List.take_prefix_take_left hcovered
      · rw [htake]
        exact List.take_prefix _ _
      · rwa [htake]
    by_cases hlast : block.length ≤ start + chunk_size
    · refine ⟨[(block.take (start + chunk_size)).drop start], ?_, ?_, ?_⟩
      · rw [if_pos hlast]
        rfl
      · intro piece hpiece
        rw [List.mem_singleton.mp hpiece]
        exact hlength
      · apply hcons
        rw [List.take_of_length_le hlast]
        exact .nil (List.take_prefix _ _)
    · -- the next pass begins further on, and in front of where this one ends
      obtain ⟨pieces, hpieces, hfits, hcovers⟩ : ∃ pieces,
          cut block chunk_size overlap fuel (start + chunk_size - overlap)
            = some (pieces.map strip) ∧
          (∀ piece ∈ pieces, piece.length ≤ chunk_size) ∧
          CoversFrom block (block.take start) (block.take (start + chunk_size)) pieces :=
        ih (by omega) (by omega) (by omega) (by omega) (.inl (by omega))
      refine ⟨(block.take (start + chunk_size)).drop start :: pieces, ?_, ?_, hcons pieces hcovers⟩
      · rw [if_neg hlast, hpieces]
        rfl
      · intro piece hpiece
        rcases List.mem_cons.mp hpiece with rfl | hpiece
        · exact hlength
        · exact hfits piece hpiece

theorem length_strip_le (text : Text) : (strip text).length ≤ text.length := by
  rw [strip, List.length_reverse]
  have hfirst := (List.dropWhile_sublist isspace : (text.dropWhile isspace).Sublist text).length_le
  have hsecond := (List.dropWhile_sublist isspace :
    ((text.dropWhile isspace).reverse.dropWhile isspace).Sublist _).length_le
  rw [List.length_reverse] at hsecond
  exact hsecond.trans hfirst

/-- A text that is dropped because it is empty. -/
theorem letters_of_isEmpty {text : Text} (h : (!text.isEmpty) = false) : letters text = [] := by
  rw [Bool.not_eq_false', List.isEmpty_iff] at h
  rw [h]
  rfl

theorem split_oversized_spec (hsizes : overlap < chunk_size) (block : Text) :
    ∃ pieces, _split_oversized block chunk_size overlap = some pieces ∧
      (∀ piece ∈ pieces, piece.length ≤ chunk_size) ∧
      Covers (letters block) (pieces.map letters) := by
  have hinside : 0 < block.length ∨ block = [] ∧ 0 = 0 := by
    rcases Nat.eq_zero_or_pos block.length with hzero | hpos
    · exact .inr ⟨List.length_eq_zero_iff.mp hzero, rfl⟩
    · exact .inl hpos
  obtain ⟨pieces, hpieces, hfits, hcovers⟩ := cut_spec hsizes (Nat.lt_succ_self block.length)
    (le_refl 0) (le_refl 0) (Nat.zero_le _) hinside
  refine ⟨(pieces.map strip).filter fun piece => !piece.isEmpty, ?_, ?_, ?_⟩
  · rw [_split_oversized, hpieces]
    rfl
  · intro piece hpiece
    obtain ⟨raw, hraw, rfl⟩ := List.mem_map.mp (List.mem_of_mem_filter hpiece)
    exact (length_strip_le raw).trans (hfits raw hraw)
  · have hletters : (pieces.map strip).map letters = pieces.map letters := by
      rw [List.map_map]
      exact List.map_congr_left fun piece _ => letters_strip piece
    apply Covers.drop_empty _ fun piece _ => letters_of_isEmpty
    rw [hletters]
    exact CoversFrom.filter _ hcovers

end Cut

/-! ## The chunks -/

section Pack

variable {chunk_size overlap : ℕ} {text : Text} {packing : Packing}

/-- The blocks so far, of which `text` are the letters, are in the chunks and in the one that
is being packed. -/
structure Packed (chunk_size : ℕ) (text : Text) (packing : Packing) : Prop where
  fits : ∀ chunk ∈ packing.chunks, chunk.length ≤ chunk_size
  current_fits : packing.current.length ≤ chunk_size
  covers : ∃ front, text = front ++ letters packing.current ∧
    Covers front (packing.chunks.map letters)

theorem Packed.flush_fits (h : Packed chunk_size text packing) :
    ∀ chunk ∈ packing.flush, chunk.length ≤ chunk_size := by
  intro chunk hchunk
  rw [Packing.flush] at hchunk
  split at hchunk
  · rcases List.mem_append.mp hchunk with hchunk | hchunk
    · exact h.fits chunk hchunk
    · rw [List.mem_singleton.mp hchunk]
      exact h.current_fits
  · exact h.fits chunk hchunk

/-- The chunk that was being packed, too, as one more. -/
theorem Packed.close (h : Packed chunk_size text packing) :
    Covers text ((packing.chunks ++ [packing.current]).map letters) := by
  obtain ⟨front, rfl, hfront⟩ := h.covers
  rw [List.map_append]
  exact hfront.append (covers_single _)

theorem Packed.flush (h : Packed chunk_size text packing) :
    Covers text (packing.flush.map letters) := by
  rw [Packing.flush]
  split
  · exact h.close
  · rename_i hnone
    obtain ⟨front, rfl, hfront⟩ := h.covers
    rw [not_not.mp hnone, letters_nil, List.append_nil]
    exact hfront

/-- **One more block.** -/
theorem Packed.add (hsizes : overlap < chunk_size) (h : Packed chunk_size text packing)
    (block : Text) : ∃ packing', packing.add chunk_size overlap block = some packing' ∧
      Packed chunk_size (text ++ letters block) packing' := by
  unfold Packing.add
  by_cases hlong : chunk_size < block.length
  · obtain ⟨pieces, hpieces, hfits, hcovers⟩ := split_oversized_spec hsizes block
    rw [if_pos hlong, hpieces]
    refine ⟨⟨packing.flush ++ pieces, []⟩, rfl, ?_, Nat.zero_le _, ?_⟩
    · intro chunk hchunk
      exact (List.mem_append.mp hchunk).elim (h.flush_fits chunk) (hfits chunk)
    · refine ⟨text ++ letters block, (List.append_nil _).symm, ?_⟩
      rw [List.map_append]
      exact h.flush.append hcovers
  · rw [if_neg hlong]
    have hblock : block.length ≤ chunk_size := Nat.not_lt.mp hlong
    have hletters : letters (if packing.current ≠ [] then packing.current ++ ['\n', '\n'] ++ block
        else block) = letters packing.current ++ letters block := by
      by_cases hcurrent : packing.current = []
      · rw [if_neg (not_not.mpr hcurrent), hcurrent]
        rfl
      · rw [if_pos hcurrent, letters_append, letters_append, letters_newline, letters_newline,
          letters_nil, List.append_nil]
    generalize (if packing.current ≠ [] then packing.current ++ ['\n', '\n'] ++ block
      else block) = candidate at hletters
    dsimp only
    by_cases hcandidate : chunk_size < candidate.length
    · -- the block begins a chunk of its own
      rw [if_pos hcandidate]
      refine ⟨_, rfl, ?_, hblock, text, rfl, h.close⟩
      intro chunk hchunk
      rcases List.mem_append.mp hchunk with hchunk | hchunk
      · exact h.fits chunk hchunk
      · rw [List.mem_singleton.mp hchunk]
        exact h.current_fits
    · rw [if_neg hcandidate]
      obtain ⟨front, rfl, hfront⟩ := h.covers
      refine ⟨_, rfl, h.fits, Nat.not_lt.mp hcandidate, front, ?_, hfront⟩
      rw [List.append_assoc, ← hletters]

theorem Packed.run (hsizes : overlap < chunk_size) (h : Packed chunk_size text packing)
    (blocks : List Text) : ∃ packing',
      blocks.foldlM (Packing.add chunk_size overlap) packing = some packing' ∧
        Packed chunk_size (text ++ letters blocks.flatten) packing' := by
  induction blocks generalizing text packing with
  | nil =>
    refine ⟨packing, rfl, ?_⟩
    rwa [List.flatten_nil, letters_nil, List.append_nil]
  | cons block blocks ih =>
    obtain ⟨next, hnext, hpacked⟩ := h.add hsizes block
    obtain ⟨last, hlast, hdone⟩ := ih hpacked
    refine ⟨last, ?_, ?_⟩
    · rw [List.foldlM_cons, hnext]
      exact hlast
    · rw [List.flatten_cons, letters_append, ← List.append_assoc]
      exact hdone

end Pack

/-- **The chunks of a text.** There is a result, its chunks are not empty and not too long,
and they cover all characters of the text but white space, in order: each chunk has a stretch
of them that begins in what the chunks before it have, or right after it. -/
theorem chunk_text_covers (isalnum : Char → Bool) (text : Text) (chunk_size overlap : ℕ)
    (hsizes : overlap < chunk_size) :
    ∃ chunks, chunk_text isalnum text chunk_size overlap = some chunks ∧
      (∀ chunk ∈ chunks, chunk ≠ [] ∧ chunk.length ≤ chunk_size) ∧
      Covers (letters text) (chunks.map letters) := by
  unfold chunk_text
  dsimp only
  by_cases hnone : strip text = []
  · refine ⟨[], if_pos hnone, fun chunk hchunk => absurd hchunk List.not_mem_nil, ?_⟩
    rw [← letters_strip, hnone]
    exact covers_nil
  -- nothing is packed yet
  · have hempty : Packed chunk_size [] ({} : Packing) :=
      ⟨fun chunk hchunk => absurd hchunk List.not_mem_nil, Nat.zero_le _, [], rfl, covers_nil⟩
    obtain ⟨packing, hpacking, hpacked⟩ :=
      hempty.run hsizes (_blocks isalnum (strip text))
    rw [List.nil_append, letters_blocks, letters_strip] at hpacked
    refine ⟨packing.flush.filter fun chunk => !chunk.isEmpty, ?_, ?_, ?_⟩
    · rw [if_neg hnone, hpacking]
      rfl
    · intro chunk hchunk
      obtain ⟨hmem, hkept⟩ := List.mem_filter.mp hchunk
      rw [Bool.not_eq_true', List.isEmpty_eq_false_iff] at hkept
      exact ⟨hkept, hpacked.flush_fits chunk hmem⟩
    · exact hpacked.flush.drop_empty fun chunk _ => letters_of_isEmpty

/-- `chunk_text_covers` at two paragraphs, of which the second is too long. -/
theorem paragraphs_covered :
    ∃ chunks, chunk_text Char.isAlphanum "one two\n\nthree four".toList 8 2 = some chunks ∧
      (∀ chunk ∈ chunks, chunk ≠ [] ∧ chunk.length ≤ 8) ∧
      Covers (letters "one two\n\nthree four".toList) (chunks.map letters) :=
  chunk_text_covers Char.isAlphanum "one two\n\nthree four".toList 8 2 (by decide)

example : chunk_text Char.isAlphanum "one two\n\nthree four".toList 8 2
    = some ["one two".toList, "three fo".toList, "four".toList] := by decide +kernel

end PaCopilot.chunking
