/-
The reader of `.pro` exports, `tm1/ti/format.py`.

A line `tag,rest` is a scalar, or the head of a block, of which `rest` counts the lines. What
the lines of a block say is not looked at, so the count alone keeps two blocks apart: reading
goes on behind the last counted line (`loop_block`), and a file is read entry by entry
(`loop_entries`).
-/
import PaCopilot.Lib.Dict
import PaCopilot.Lib.Words
import PaCopilot.Tm1.Rules.Areas

set_option autoImplicit false

namespace PaCopilot.ti.format

open Python (strip isspace)
open rules (Text)

/-! ## Numbers in a text -/

/-- Why `int` raises: the text is no number, or one of too many digits. -/
inductive ValueError
  | literal
  | limit
  deriving DecidableEq

/-- The zeros of Unicode, each with its nine other digits behind it. -/
def decimalZeros : List ℕ :=
  [0x30, 0x660, 0x6f0, 0x7c0, 0x966, 0x9e6, 0xa66, 0xae6, 0xb66, 0xbe6, 0xc66, 0xce6, 0xd66,
    0xde6, 0xe50, 0xed0, 0xf20, 0x1040, 0x1090, 0x17e0, 0x1810, 0x1946, 0x19d0, 0x1a80, 0x1a90,
    0x1b50, 0x1bb0, 0x1c40, 0x1c50, 0xa620, 0xa8d0, 0xa900, 0xa9d0, 0xa9f0, 0xaa50, 0xabf0,
    0xff10, 0x104a0, 0x10d30, 0x11066, 0x110f0, 0x11136, 0x111d0, 0x112f0, 0x11450, 0x114d0,
    0x11650, 0x116c0, 0x11730, 0x118e0, 0x11950, 0x11c50, 0x11d50, 0x11da0, 0x11f50, 0x16a60,
    0x16ac0, 0x16b50, 0x1d7ce, 0x1d7d8, 0x1d7e2, 0x1d7ec, 0x1d7f6, 0x1e140, 0x1e2f0, 0x1e4f0,
    0x1e950, 0x1fbf0]

/-- The value of a digit. -/
def decimal (c : Char) : Option ℕ :=
  (decimalZeros.find? fun first => first ≤ c.toNat ∧ c.toNat < first + 10).map (c.toNat - ·)

/-- `\d`. -/
def isdecimal (c : Char) : Bool := (decimal c).isSome

/-- `sys.int_info.default_max_str_digits`. -/
def maxStrDigits : ℕ := 4300

/-- The digits of a number, which may have single underscores between them. -/
def digitsOf (s : Text) : Option (List ℕ) :=
  let pieces := s.splitOn '_'
  if pieces.any List.isEmpty then none else pieces.flatten.mapM decimal

/-- The sign of a number, and the rest of it. -/
def signed : Text → ℤ × Text
  | '-' :: rest => (-1, rest)
  | '+' :: rest => (1, rest)
  | s => (1, s)

/-- `int(s)`. -/
def int (s : Text) : Except ValueError ℤ :=
  let number := signed (strip s)
  match digitsOf number.2 with
  | none => .error .literal
  | some digits =>
    if maxStrDigits < digits.length then .error .limit
    else .ok (number.1 * (digits.foldl (fun n digit => 10 * n + digit) 0 : ℕ))

/-! ## The file -/

/-- Tags whose value is a line count followed by that many raw lines. -/
def BLOCK_TAGS : List (ℕ × String) :=
  [(566, "datasource_query"), (560, "parameter_names"), (561, "parameter_types"),
    (590, "parameter_defaults"), (637, "parameter_prompts"), (577, "variable_names"),
    (578, "variable_types"), (579, "variable_positions"), (580, "variable_start_bytes"),
    (581, "variable_end_bytes"), (582, "variable_formulas"), (572, "prolog"),
    (573, "metadata"), (574, "data"), (575, "epilog")]

def SCALAR_TAGS : List (ℕ × String) :=
  [(601, "format_version"), (602, "name"), (562, "datasource_type"),
    (585, "datasource_name_client"), (586, "datasource_name_server"),
    (564, "datasource_username"), (565, "datasource_password"), (567, "delimiter"),
    (568, "quote_character"), (588, "decimal_separator"), (589, "thousand_separator"),
    (569, "skip_lines"), (576, "ui_data"), (593, "datasource_odbo_provider"),
    (594, "datasource_odbo_datasource"), (595, "datasource_odbo_catalog"),
    (596, "datasource_odbo_sap_client_id"), (597, "datasource_odbo_location"),
    (598, "datasource_odbo_hierarchy"), (599, "max_error_count"),
    (603, "has_security_access"), (638, "unicode_datasource")]

/-- `BLOCK_TAGS[tag]`. -/
def nameOf (tags : List (ℕ × String)) (tag : ℤ) : Option String :=
  (tags.find? fun declared => (declared.1 : ℤ) = tag).map Prod.snd

/-- `_TAG_LINE`. The digits are followed by a comma, which is none, so all of them are taken. -/
def _TAG_LINE (line : Text) : Option (Text × Text) :=
  let digits := line.takeWhile isdecimal
  match line.dropWhile isdecimal with
  | ',' :: rest => if 3 ≤ digits.length ∧ digits.length ≤ 4 then some (digits, rest) else none
  | _ => none

/-- Dictionaries as their entries, in the order in which the keys came in. -/
structure ProFile where
  scalars : List (String × Text)
  blocks : List (String × List Text)
  unknown_tags : List ℤ
  deriving DecidableEq

def ProFile.empty : ProFile := ⟨[], [], []⟩

def ProFile.setScalar (result : ProFile) (name : String) (value : Text) : ProFile :=
  { result with scalars := Dict.putEntry name value result.scalars }

def ProFile.setBlock (result : ProFile) (name : String) (lines : List Text) : ProFile :=
  { result with blocks := Dict.putEntry name lines result.blocks }

def ProFile.addUnknown (result : ProFile) (tag : ℤ) : ProFile :=
  { result with unknown_tags := result.unknown_tags ++ [tag] }

/-- `value.replace('""', '"')`. -/
def undouble : Text → Text
  | '"' :: '"' :: rest => '"' :: undouble rest
  | c :: rest => c :: undouble rest
  | [] => []

/-- `_unquote`. -/
def _unquote (value : Text) : Text :=
  let value := strip value
  if 2 ≤ value.length ∧ value.head? = some '"' ∧ value.getLast? = some '"' then
    undouble value.dropLast.tail
  else value

/-- The `while` loop of `read_pro`. -/
def loop (lines : List Text) (index : ℕ) (result : ProFile) : Except ValueError ProFile :=
  if h : index < lines.length then
    match _TAG_LINE lines[index] with
    | none => loop lines (index + 1) result
    | some (digits, rest) =>
      match int digits with
      | .error e => .error e
      | .ok tag =>
        match nameOf BLOCK_TAGS tag with
        | some name =>
          match int (strip rest) with
          -- a count that is no number is kept as a scalar, under the name of the block
          | .error _ => loop lines (index + 1) (result.setScalar name (_unquote rest))
          | .ok count =>
            let start := index + 1
            let stop := min (start + (max count 0).toNat) lines.length
            loop lines stop (result.setBlock name (lines.extract start stop))
        | none =>
          match nameOf SCALAR_TAGS tag with
          | some name => loop lines (index + 1) (result.setScalar name (_unquote rest))
          | none => loop lines (index + 1) (result.addUnknown tag)
  else .ok result
termination_by lines.length - index
decreasing_by all_goals omega

/-- The lines of a text, however they end. -/
def linesOf (text : Text) : List Text :=
  ((Python.newlines text).map fun c => if c = '\r' then '\n' else c).splitOn '\n'

def read_pro (text : Text) : Except ValueError ProFile := loop (linesOf text) 0 .empty

/-! ## What a file says -/

/-- A quoted scalar, or a block with its lines. -/
inductive Entry
  | scalar (tag : ℕ) (value : Text)
  | block (tag : ℕ) (lines : List Text)
  deriving DecidableEq

/-- `str(n)`. -/
def str (n : ℕ) : Text := Nat.toDigits 10 n

/-- A value in quotes, its own quotes doubled. -/
def quoted (value : Text) : Text :=
  '"' :: value.flatMap (fun c => if c = '"' then ['"', '"'] else [c]) ++ ['"']

namespace Entry

/-- The lines of an entry in a file. -/
def written : Entry → List Text
  | scalar tag value => [str tag ++ ',' :: quoted value]
  | block tag lines => (str tag ++ ',' :: str lines.length) :: lines

def OneLine (s : Text) : Prop := '\n' ∉ s ∧ '\r' ∉ s

/-- A block has a declared tag, a scalar any other of three or four digits. -/
def Valid : Entry → Prop
  | scalar tag value => 100 ≤ tag ∧ tag < 10000 ∧ nameOf BLOCK_TAGS tag = none ∧ OneLine value
  | block tag lines => (nameOf BLOCK_TAGS tag).isSome ∧ ∀ line ∈ lines, OneLine line

def tag : Entry → ℕ
  | scalar tag _ => tag
  | block tag _ => tag

/-- The name of the tag, where it is declared. -/
def name : Entry → Option String
  | scalar tag _ => nameOf SCALAR_TAGS tag
  | block tag _ => nameOf BLOCK_TAGS tag

def asScalar : Entry → Option (String × Text)
  | scalar tag value => (nameOf SCALAR_TAGS tag).map fun name => (name, value)
  | block .. => none

def asBlock : Entry → Option (String × List Text)
  | scalar .. => none
  | block tag lines => (nameOf BLOCK_TAGS tag).map fun name => (name, lines)

def asUnknown : Entry → Option ℤ
  | scalar tag _ => if (nameOf SCALAR_TAGS tag).isNone then some tag else none
  | block .. => none

end Entry

/-- A file's entries one below the other, and whether the last line is ended too. -/
def fileText (lineEnd : Text) (ended : Bool) (entries : List Entry) : Text :=
  List.intercalate lineEnd (entries.flatMap Entry.written) ++ if ended then lineEnd else []

/-- How lines may end. -/
def lineEnds : List Text := [['\n'], ['\r', '\n'], ['\r']]

/-- No text is longer. -/
def maxsize : ℕ := 2 ^ 63 - 1

/-! ## Numbers are read back -/

/-- Where the digits are. -/
theorem toNat_of_isdecimal {c : Char} (h : isdecimal c = true) :
    (0x30 ≤ c.toNat ∧ c.toNat ≤ 0x39) ∨ (0xa0 < c.toNat ∧ c.toNat < 0x1680) ∨
      (0x1680 < c.toNat ∧ c.toNat < 0x2000) ∨ 0x3000 < c.toNat := by
  have hfirsts : ∀ first ∈ decimalZeros, first = 0x30 ∨ (0xa0 < first ∧ first + 9 < 0x1680) ∨
      (0x1680 < first ∧ first + 9 < 0x2000) ∨ 0x3000 < first := by decide
  rw [isdecimal, decimal, Option.isSome_map, List.find?_isSome] at h
  obtain ⟨first, hmem, hrange⟩ := h
  rw [decide_eq_true_eq] at hrange
  have hfirst := hfirsts first hmem
  omega

/-- A digit is neither white space nor a sign nor an underscore. -/
theorem not_isspace_of_isdecimal {c : Char} (h : isdecimal c = true) : isspace c = false := by
  have hrange := toNat_of_isdecimal h
  simp only [isspace, Bool.or_eq_false_iff, Bool.and_eq_false_iff, decide_eq_false_iff_not,
    beq_eq_false_iff_ne]
  omega

theorem ne_of_isdecimal {c d : Char} (h : isdecimal c = true) (hd : isdecimal d = false) :
    c ≠ d := by
  rintro rfl
  rw [h] at hd
  cases hd

/-- The value of a text of digits. -/
def valueOf (s : Text) : ℕ := s.foldl (fun n c => 10 * n + (decimal c).getD 0) 0

theorem mapM_decimal {s : Text} (h : ∀ c ∈ s, isdecimal c = true) :
    s.mapM decimal = some (s.map fun c => (decimal c).getD 0) := by
  induction s with
  | nil => rfl
  | cons c s ih =>
    rw [List.forall_mem_cons] at h
    obtain ⟨digit, hdigit⟩ := Option.isSome_iff_exists.mp h.1
    rw [List.mapM_cons, ih h.2, hdigit, List.map_cons, hdigit]
    rfl

theorem digitsOf_of_decimals {s : Text} (hne : s ≠ []) (h : ∀ c ∈ s, isdecimal c = true) :
    digitsOf s = some (s.map fun c => (decimal c).getD 0) := by
  have hsplit : s.splitOn '_' = [s] := by
    apply List.splitOn_eq_singleton
    intro hmem
    exact ne_of_isdecimal (h _ hmem) (by decide) rfl
  have hempty : [s].any List.isEmpty = false := by
    rw [List.any_cons, List.any_nil, Bool.or_false, List.isEmpty_eq_false_iff]
    exact hne
  have hpieces : digitsOf s
      = if (s.splitOn '_').any List.isEmpty then none else (s.splitOn '_').flatten.mapM decimal := rfl
  rw [hpieces, hsplit, hempty, List.flatten_singleton, mapM_decimal h]
  rfl

theorem signed_of_isdecimal {c : Char} (h : isdecimal c = true) (rest : Text) :
    signed (c :: rest) = (1, c :: rest) := by
  unfold signed
  split
  · rename_i heq
    exact absurd (List.cons.inj heq).1 (ne_of_isdecimal h (by decide))
  · rename_i heq
    exact absurd (List.cons.inj heq).1 (ne_of_isdecimal h (by decide))
  · rfl

/-- A text of digits is a number, if there are not too many. -/
theorem int_of_decimals {s : Text} (hne : s ≠ []) (h : ∀ c ∈ s, isdecimal c = true)
    (hlength : s.length ≤ maxStrDigits) : int s = .ok (valueOf s) := by
  have hstrip : strip s = s := by
    apply rules.strip_eq_self
    · intro c hc
      exact not_isspace_of_isdecimal (h c (List.mem_of_head? hc))
    · intro c hc
      exact not_isspace_of_isdecimal (h c (List.mem_of_getLast? hc))
  have hsigned : signed s = (1, s) := by
    obtain ⟨c, rest, rfl⟩ := List.exists_cons_of_ne_nil hne
    exact signed_of_isdecimal (h c List.mem_cons_self) rest
  have hvalue : (s.map fun c => (decimal c).getD 0).foldl (fun n digit => 10 * n + digit) 0
      = valueOf s := List.foldl_map
  unfold int
  simp only [hstrip, hsigned, digitsOf_of_decimals hne h, List.length_map]
  rw [if_neg (Nat.not_lt.mpr hlength), hvalue, one_mul]

theorem toNat_of_isDigit {c : Char} (h : c.isDigit = true) : 48 ≤ c.toNat ∧ c.toNat ≤ 57 := by
  have hrange := Bool.and_eq_true_iff.mp h
  exact ⟨of_decide_eq_true hrange.1, of_decide_eq_true hrange.2⟩

theorem decimal_of_isDigit {c : Char} (h : c.isDigit = true) :
    decimal c = some (c.toNat - 48) := by
  have hrange := toNat_of_isDigit h
  rw [decimal, decimalZeros, List.find?_cons_of_pos]
  · rfl
  · rw [decide_eq_true_eq]
    omega

theorem isdecimal_of_mem_str {n : ℕ} {c : Char} (h : c ∈ str n) : isdecimal c = true := by
  have hdigit : c.isDigit = true := Nat.isDigit_of_mem_toDigits (by decide) (by decide) h
  rw [isdecimal, decimal_of_isDigit hdigit]
  rfl

theorem valueOf_str (n : ℕ) : valueOf (str n) = n := by
  have hdigits : ∀ (s : Text) (init : ℕ), (∀ c ∈ s, c.isDigit = true) →
      s.foldl (fun n c => 10 * n + (decimal c).getD 0) init = Nat.ofDigitChars 10 s init := by
    intro s
    induction s with
    | nil => exact fun _ _ => Nat.ofDigitChars_nil.symm
    | cons c s ih =>
      intro init h
      rw [List.forall_mem_cons] at h
      rw [List.foldl_cons, ih _ h.2, decimal_of_isDigit h.1, Nat.ofDigitChars_cons]
      rfl
  have hstr : ∀ c ∈ str n, c.isDigit = true := fun c hc =>
    Nat.isDigit_of_mem_toDigits (by decide) (by decide) hc
  rw [valueOf, hdigits _ _ hstr, str, Nat.ofDigitChars_ten_toDigits]

/-- **A number that is written is read back.** -/
theorem int_str {n : ℕ} (h : n ≤ maxsize) : int (str n) = .ok n := by
  have hlength : (str n).length ≤ maxStrDigits := by
    refine le_trans ((Nat.length_toDigits_le_iff (by decide) (by decide)).mpr ?_)
      (show 19 ≤ maxStrDigits by decide)
    unfold maxsize at h
    omega
  rw [int_of_decimals (s := str n) Nat.toDigits_ne_nil (fun c hc => isdecimal_of_mem_str hc)
    hlength, valueOf_str]

/-! ## Values and tags are read back -/

theorem undouble_doubled (value : Text) :
    undouble (value.flatMap fun c => if c = '"' then ['"', '"'] else [c]) = value := by
  induction value with
  | nil => rfl
  | cons c value ih =>
    rw [List.flatMap_cons]
    by_cases hc : c = '"'
    · rw [if_pos hc, hc, List.cons_append, List.cons_append, List.nil_append, undouble, ih]
    · rw [if_neg hc, List.singleton_append, undouble, ih]
      rintro rest rfl
      exact absurd rfl hc

theorem isspace_quote : isspace '"' = false := by decide

/-- **A quoted value is read back.** -/
theorem unquote_quoted (value : Text) : _unquote (quoted value) = value := by
  have hlast : (quoted value).getLast? = some '"' := List.getLast?_concat
  have hstrip : strip (quoted value) = quoted value := by
    apply rules.strip_eq_self
    · intro c hc
      rw [← Option.some.inj hc]
      exact isspace_quote
    · intro c hc
      rw [hlast] at hc
      rw [← Option.some.inj hc]
      exact isspace_quote
  have hlength : 2 ≤ (quoted value).length := by
    rw [quoted, List.length_append, List.length_cons, List.length_singleton]
    omega
  have hinner : (quoted value).dropLast.tail
      = value.flatMap fun c => if c = '"' then ['"', '"'] else [c] := by
    rw [quoted, List.dropLast_concat, List.tail_cons]
  have hunquote : _unquote (quoted value) = if 2 ≤ (strip (quoted value)).length ∧
      (strip (quoted value)).head? = some '"' ∧ (strip (quoted value)).getLast? = some '"'
      then undouble (strip (quoted value)).dropLast.tail else strip (quoted value) := rfl
  rw [hunquote, hstrip, if_pos ⟨hlength, rfl, hlast⟩, hinner, undouble_doubled]

/-- What `_TAG_LINE` matches. -/
theorem tagLine_eq_some {line digits rest : Text} :
    _TAG_LINE line = some (digits, rest) ↔ line = digits ++ ',' :: rest ∧
      (∀ c ∈ digits, isdecimal c = true) ∧ 3 ≤ digits.length ∧ digits.length ≤ 4 := by
  have hcomma : isdecimal ',' = false := by decide
  constructor
  · intro h
    have hsplit := List.takeWhile_append_dropWhile (p := isdecimal) (l := line)
    unfold _TAG_LINE at h
    split at h
    · rename_i after hdrop
      rw [hdrop] at hsplit
      by_cases hlength : 3 ≤ (line.takeWhile isdecimal).length ∧
          (line.takeWhile isdecimal).length ≤ 4
      · rw [if_pos hlength, Option.some.injEq, Prod.mk.injEq] at h
        obtain ⟨rfl, rfl⟩ := h
        exact ⟨hsplit.symm, fun c hc => List.mem_takeWhile_imp hc, hlength⟩
      · rw [if_neg hlength] at h
        cases h
    · cases h
  · rintro ⟨rfl, hdigits, hlength⟩
    have hbreak : Words.BreaksBefore isdecimal (',' :: rest) := .cons hcomma
    unfold _TAG_LINE
    rw [Words.takeWhile_word hdigits hbreak, Words.dropWhile_word hdigits hbreak]
    exact if_pos hlength

theorem length_str {n : ℕ} (hlow : 100 ≤ n) (hhigh : n < 10000) :
    3 ≤ (str n).length ∧ (str n).length ≤ 4 := by
  constructor
  · by_contra h
    have hle : (str n).length ≤ 2 := by omega
    rw [str, Nat.length_toDigits_le_iff (by decide) (by decide)] at hle
    omega
  · rw [str, Nat.length_toDigits_le_iff (by decide) (by decide)]
    omega

/-- The line of a tag is read as one. -/
theorem tagLine_str {tag : ℕ} (hlow : 100 ≤ tag) (hhigh : tag < 10000) (rest : Text) :
    _TAG_LINE (str tag ++ ',' :: rest) = some (str tag, rest) :=
  tagLine_eq_some.mpr ⟨rfl, fun _ hc => isdecimal_of_mem_str hc, length_str hlow hhigh⟩

/-- The number of a tag line is one that `int` takes. -/
theorem int_of_tagLine {line digits rest : Text} (h : _TAG_LINE line = some (digits, rest)) :
    int digits = .ok (valueOf digits) := by
  obtain ⟨-, hdigits, hlow, hhigh⟩ := tagLine_eq_some.mp h
  apply int_of_decimals
  · rintro rfl
    cases hlow
  · exact hdigits
  · exact le_trans hhigh (by decide)

/-! ## No text makes it raise -/

theorem loop_ok (lines : List Text) (index : ℕ) (result : ProFile) :
    ∃ pro, loop lines index result = .ok pro := by
  fun_induction loop lines index result with
  | case1 index result h hline ih => exact ih
  | case2 index result h digits rest hline e hint =>
    rw [int_of_tagLine hline] at hint
    cases hint
  | case3 index result h digits rest hline tag htag name hname e hcount ih => exact ih
  | case4 index result h digits rest hline tag htag name hname count hcount start stop ih => exact ih
  | case5 index result h digits rest hline tag htag hname name hscalar ih => exact ih
  | case6 index result h digits rest hline tag htag hname hscalar ih => exact ih
  | case7 index result h => exact ⟨result, rfl⟩

/-! ## What is read of a file -/

section

variable {before after : List Text} {line digits rest : Text} {result : ProFile}

theorem lt_length_mid : before.length < (before ++ line :: after).length := by
  rw [List.length_append, List.length_cons]
  omega

theorem getElem_mid (h : before.length < (before ++ line :: after).length) :
    (before ++ line :: after)[before.length] = line := by
  rw [List.getElem_append_right le_rfl]
  simp only [Nat.sub_self, List.getElem_cons_zero]

/-- A line that is no tag is passed over. -/
theorem loop_skip (h : _TAG_LINE line = none) :
    loop (before ++ line :: after) before.length result
      = loop (before ++ line :: after) (before.length + 1) result := by
  rw [loop, dif_pos lt_length_mid, getElem_mid]
  simp only [h]

theorem loop_scalar {tag : ℤ} {name : String} (hline : _TAG_LINE line = some (digits, rest))
    (htag : int digits = .ok tag) (hblock : nameOf BLOCK_TAGS tag = none)
    (hname : nameOf SCALAR_TAGS tag = some name) :
    loop (before ++ line :: after) before.length result
      = loop (before ++ line :: after) (before.length + 1)
          (result.setScalar name (_unquote rest)) := by
  rw [loop, dif_pos lt_length_mid, getElem_mid]
  simp only [hline, htag, hblock, hname]

theorem loop_unknown {tag : ℤ} (hline : _TAG_LINE line = some (digits, rest))
    (htag : int digits = .ok tag) (hblock : nameOf BLOCK_TAGS tag = none)
    (hname : nameOf SCALAR_TAGS tag = none) :
    loop (before ++ line :: after) before.length result
      = loop (before ++ line :: after) (before.length + 1) (result.addUnknown tag) := by
  rw [loop, dif_pos lt_length_mid, getElem_mid]
  simp only [hline, htag, hblock, hname]

/-- **A block** takes the lines that its head counts, whatever they are, and no other. -/
theorem loop_block {tag : ℤ} {name : String} {lines : List Text}
    (hline : _TAG_LINE line = some (digits, rest)) (htag : int digits = .ok tag)
    (hname : nameOf BLOCK_TAGS tag = some name)
    (hcount : int (strip rest) = .ok (lines.length : ℕ)) :
    loop (before ++ line :: (lines ++ after)) before.length result
      = loop (before ++ line :: (lines ++ after)) (before.length + 1 + lines.length)
          (result.setBlock name lines) := by
  have hstop : min (before.length + 1 + (max (lines.length : ℤ) 0).toNat)
      (before ++ line :: (lines ++ after)).length = before.length + 1 + lines.length := by
    rw [List.length_append, List.length_cons, List.length_append]
    omega
  have htaken : (before ++ line :: (lines ++ after)).extract (before.length + 1)
      (before.length + 1 + lines.length) = lines := by
    rw [List.extract_eq_take_drop, List.drop_length_add_append, List.drop_succ_cons,
      List.drop_zero, Nat.add_sub_cancel_left, List.take_left]
  rw [loop, dif_pos lt_length_mid, getElem_mid]
  simp only [hline, htag, hname, hcount, hstop, htaken]

end

/-! ## Entry by entry -/

/-- What an entry is read to. -/
def Entry.readInto (result : ProFile) : Entry → ProFile
  | .scalar tag value =>
    (nameOf SCALAR_TAGS tag).elim (result.addUnknown tag) fun name => result.setScalar name value
  | .block tag lines => (nameOf BLOCK_TAGS tag).elim result fun name => result.setBlock name lines

theorem nameOf_eq_some {tags : List (ℕ × String)} {tag : ℤ} {name : String}
    (h : nameOf tags tag = some name) : ∃ declared ∈ tags, (declared.1 : ℤ) = tag ∧
      declared.2 = name := by
  obtain ⟨declared, hfind, hname⟩ := Option.map_eq_some_iff.mp h
  have htag := List.find?_some hfind
  rw [decide_eq_true_eq] at htag
  exact ⟨declared, List.mem_of_find?_eq_some hfind, htag, hname⟩

/-- The declared tags have three digits. -/
theorem block_tag_range {tag : ℕ} (h : (nameOf BLOCK_TAGS tag).isSome) :
    100 ≤ tag ∧ tag < 10000 := by
  have hrange : ∀ declared ∈ BLOCK_TAGS, 100 ≤ declared.1 ∧ declared.1 < 10000 := by decide
  obtain ⟨name, hname⟩ := Option.isSome_iff_exists.mp h
  obtain ⟨declared, hmem, htag, -⟩ := nameOf_eq_some hname
  have heq : declared.1 = tag := Int.ofNat.inj htag
  rw [← heq]
  exact hrange declared hmem

theorem strip_str (n : ℕ) : strip (str n) = str n := by
  apply rules.strip_eq_self
  · intro c hc
    exact not_isspace_of_isdecimal (isdecimal_of_mem_str (List.mem_of_head? hc))
  · intro c hc
    exact not_isspace_of_isdecimal (isdecimal_of_mem_str (List.mem_of_getLast? hc))

/-- **An entry is read**, and reading goes on behind it. -/
theorem loop_entry {e : Entry} (hvalid : e.Valid) (hsize : e.written.length ≤ maxsize + 1)
    (before after : List Text) (result : ProFile) :
    loop (before ++ (e.written ++ after)) before.length result
      = loop (before ++ (e.written ++ after)) (before ++ e.written).length
          (e.readInto result) := by
  cases e with
  -- a scalar is one line; a tag that no field has is passed over
  | scalar tag value =>
    obtain ⟨hlow, hhigh, hblock, -⟩ := hvalid
    have hline := tagLine_str hlow hhigh (quoted value)
    have htag : int (str tag) = .ok tag := int_str (le_trans hhigh.le (by decide))
    rw [List.length_append]
    show loop (before ++ _ :: after) _ _ = loop (before ++ _ :: after) (before.length + 1) _
    cases hname : nameOf SCALAR_TAGS tag with
    | some name =>
      rw [loop_scalar hline htag hblock hname, unquote_quoted, Entry.readInto, hname]
      rfl
    | none =>
      rw [loop_unknown hline htag hblock hname, Entry.readInto, hname]
      rfl
  -- a block gives the number of its lines first, and is read by this number
  | block tag lines =>
    obtain ⟨hlow, hhigh⟩ := block_tag_range hvalid.1
    obtain ⟨name, hname⟩ := Option.isSome_iff_exists.mp hvalid.1
    have hline := tagLine_str hlow hhigh (str lines.length)
    have htag : int (str tag) = .ok tag := int_str (le_trans hhigh.le (by decide))
    have hcount : int (strip (str lines.length)) = .ok (lines.length : ℕ) := by
      rw [strip_str, int_str]
      exact Nat.le_of_succ_le_succ hsize
    have hnext : (before ++ (Entry.block tag lines).written).length
        = before.length + 1 + lines.length := by
      rw [List.length_append, Entry.written, List.length_cons]
      omega
    rw [hnext, Entry.written, List.cons_append, loop_block hline htag hname hcount,
      Entry.readInto, hname]
    rfl

/-- The empty lines at the end of a file. -/
theorem loop_blanks (before : List Text) {blanks : List Text} (hblanks : ∀ b ∈ blanks, b = [])
    (result : ProFile) : loop (before ++ blanks) before.length result = .ok result := by
  induction blanks generalizing before with
  | nil =>
    have hend : ¬ before.length < (before ++ []).length := by
      rw [List.append_nil]
      exact lt_irrefl _
    rw [loop, dif_neg hend]
  | cons b blanks ih =>
    rw [List.forall_mem_cons] at hblanks
    have hskip : _TAG_LINE b = none := by rw [hblanks.1]; rfl
    have ih := ih (before ++ [b]) hblanks.2
    rw [List.append_assoc, List.length_append] at ih
    rw [loop_skip hskip]
    exact ih

/-- **A file is read** entry by entry. -/
theorem loop_entries (before : List Text) {entries : List Entry} {blanks : List Text}
    (hvalid : ∀ e ∈ entries, e.Valid) (hsize : ∀ e ∈ entries, e.written.length ≤ maxsize + 1)
    (hblanks : ∀ b ∈ blanks, b = []) (result : ProFile) :
    loop (before ++ (entries.flatMap Entry.written ++ blanks)) before.length result
      = .ok (entries.foldl Entry.readInto result) := by
  induction entries generalizing before result with
  | nil => exact loop_blanks before hblanks result
  | cons e entries ih =>
    rw [List.forall_mem_cons] at hvalid hsize
    have ih := ih (before ++ e.written) hvalid.2 hsize.2 (e.readInto result)
    rw [List.append_assoc] at ih
    rw [List.flatMap_cons, List.append_assoc, loop_entry hvalid.1 hsize.1, ih, List.foldl_cons]

/-! ## Each tag once -/

theorem names_nodup : ((BLOCK_TAGS ++ SCALAR_TAGS).map Prod.snd).Nodup := by decide +kernel

/-- A name belongs to one tag. -/
theorem tag_of_name {e e' : Entry} {name : String} (h : e.name = some name)
    (h' : e'.name = some name) : e.tag = e'.tag := by
  have hdeclared : ∀ e : Entry, e.name = some name →
      ∃ declared ∈ BLOCK_TAGS ++ SCALAR_TAGS, declared.1 = e.tag ∧ declared.2 = name := by
    intro e he
    cases e with
    | scalar tag value =>
      obtain ⟨declared, hmem, htag, hname⟩ := nameOf_eq_some he
      exact ⟨declared, List.mem_append_right _ hmem, Int.ofNat.inj htag, hname⟩
    | block tag lines =>
      obtain ⟨declared, hmem, htag, hname⟩ := nameOf_eq_some he
      exact ⟨declared, List.mem_append_left _ hmem, Int.ofNat.inj htag, hname⟩
  obtain ⟨declared, hmem, htag, hname⟩ := hdeclared e h
  obtain ⟨declared', hmem', htag', hname'⟩ := hdeclared e' h'
  have hsame := List.inj_on_of_nodup_map names_nodup hmem hmem' (hname.trans hname'.symm)
  rw [← htag, ← htag', hsame]

theorem name_of_asScalar {e : Entry} {s : String × Text} (h : e.asScalar = some s) :
    e.name = some s.1 := by
  cases e with
  | scalar tag value =>
    obtain ⟨name, hname, rfl⟩ := Option.map_eq_some_iff.mp h
    exact hname
  | block tag lines => cases h

theorem name_of_asBlock {e : Entry} {b : String × List Text} (h : e.asBlock = some b) :
    e.name = some b.1 := by
  cases e with
  | scalar tag value => cases h
  | block tag lines =>
    obtain ⟨name, hname, rfl⟩ := Option.map_eq_some_iff.mp h
    exact hname

/-- An entry whose name is new is added at the end. -/
theorem readInto_new {e : Entry} {result : ProFile}
    (hscalars : ∀ s ∈ result.scalars, e.name ≠ some s.1)
    (hblocks : ∀ b ∈ result.blocks, e.name ≠ some b.1) :
    e.readInto result = ⟨result.scalars ++ e.asScalar.toList, result.blocks ++ e.asBlock.toList,
      result.unknown_tags ++ e.asUnknown.toList⟩ := by
  cases e with
  | scalar tag value =>
    cases hname : nameOf SCALAR_TAGS tag with
    | some name =>
      have hnew : ∀ s ∈ result.scalars, s.1 ≠ name := by
        rintro s hs rfl
        exact hscalars s hs hname
      simp only [Entry.readInto, Entry.asScalar, Entry.asBlock, Entry.asUnknown, hname,
        ProFile.setScalar, Dict.putEntry_new hnew, Option.elim_some, Option.map_some, Option.toList_some,
        Option.toList_none, Option.isNone_some, List.append_nil, Bool.false_eq_true, if_false]
    | none =>
      simp only [Entry.readInto, Entry.asScalar, Entry.asBlock, Entry.asUnknown, hname,
        ProFile.addUnknown, Option.elim_none, Option.map_none, Option.toList_none,
        Option.isNone_none, if_true, Option.toList_some, List.append_nil]
  | block tag lines =>
    cases hname : nameOf BLOCK_TAGS tag with
    | some name =>
      have hnew : ∀ b ∈ result.blocks, b.1 ≠ name := by
        rintro b hb rfl
        exact hblocks b hb hname
      simp only [Entry.readInto, Entry.asScalar, Entry.asBlock, Entry.asUnknown, hname,
        ProFile.setBlock, Dict.putEntry_new hnew, Option.elim_some, Option.map_some, Option.toList_some,
        Option.toList_none, List.append_nil]
    | none =>
      simp only [Entry.readInto, Entry.asScalar, Entry.asBlock, Entry.asUnknown, hname,
        Option.elim_none, Option.map_none, Option.toList_none, List.append_nil]

theorem filterMap_cons_toList {α β : Type} (f : α → Option β) (a : α) (l : List α) :
    (a :: l).filterMap f = (f a).toList ++ l.filterMap f := by
  cases h : f a with
  | none => rw [List.filterMap_cons_none h, Option.toList_none, List.nil_append]
  | some b => rw [List.filterMap_cons_some h, Option.toList_some, List.singleton_append]

/-- Entries whose names are new are read to themselves. -/
theorem foldl_readInto {entries : List Entry} (result : ProFile)
    (honce : entries.Pairwise fun e e' => ∀ n, e.name = some n → e'.name ≠ some n)
    (hscalars : ∀ s ∈ result.scalars, ∀ e ∈ entries, e.name ≠ some s.1)
    (hblocks : ∀ b ∈ result.blocks, ∀ e ∈ entries, e.name ≠ some b.1) :
    entries.foldl Entry.readInto result =
      ⟨result.scalars ++ entries.filterMap Entry.asScalar,
        result.blocks ++ entries.filterMap Entry.asBlock,
        result.unknown_tags ++ entries.filterMap Entry.asUnknown⟩ := by
  induction entries generalizing result with
  | nil => simp only [List.foldl_nil, List.filterMap_nil, List.append_nil]
  | cons e entries ih =>
    rw [List.pairwise_cons] at honce
    rw [List.foldl_cons, readInto_new (fun s hs => hscalars s hs e List.mem_cons_self)
      (fun b hb => hblocks b hb e List.mem_cons_self), ih]
    · simp only [filterMap_cons_toList, List.append_assoc]
    · exact honce.2
    · intro s hs e' he'
      rcases List.mem_append.mp hs with hs | hs
      · exact hscalars s hs e' (List.mem_cons_of_mem _ he')
      · exact honce.1 e' he' s.1 (name_of_asScalar (Option.mem_toList.mp hs))
    · intro b hb e' he'
      rcases List.mem_append.mp hb with hb | hb
      · exact hblocks b hb e' (List.mem_cons_of_mem _ he')
      · exact honce.1 e' he' b.1 (name_of_asBlock (Option.mem_toList.mp hb))

/-! ## The lines of a file -/

/-- The text with its line ends all alike. -/
def alike (text : Text) : Text := (Python.newlines text).map fun c => if c = '\r' then '\n' else c

theorem alike_line {line : Text} (h : Entry.OneLine line) (rest : Text) :
    alike (line ++ rest) = line ++ alike rest := by
  obtain ⟨hnewline, hreturn⟩ := h
  induction line with
  | nil => rfl
  | cons c line ih =>
    rw [List.mem_cons, not_or] at hnewline hreturn
    have hc : c ≠ '\r' := fun heq => hreturn.1 heq.symm
    have hstep : Python.newlines (c :: (line ++ rest)) = c :: Python.newlines (line ++ rest) := by
      rw [Python.newlines]
      intro after heq
      exact absurd heq hc
    rw [List.cons_append, alike, hstep, List.map_cons, if_neg hc, ← alike,
      ih hnewline.2 hreturn.2, List.cons_append]

theorem alike_lineEnd {lineEnd : Text} (h : lineEnd ∈ lineEnds) {rest : Text}
    (hrest : lineEnd = ['\r'] → '\n' ∉ rest) : alike (lineEnd ++ rest) = '\n' :: alike rest := by
  rw [lineEnds, List.mem_cons, List.mem_cons, List.mem_singleton] at h
  rcases h with rfl | rfl | rfl
  · rfl
  · rfl
  · -- a newline behind the return would be taken for its second half
    have hstep : Python.newlines ('\r' :: rest) = '\r' :: Python.newlines rest := by
      rw [Python.newlines]
      intro after _ heq
      exact hrest rfl (heq ▸ List.mem_cons_self)
    rw [List.singleton_append, alike, hstep, List.map_cons, if_pos rfl, ← alike]

theorem linesOf_line {line lineEnd rest : Text} (hline : Entry.OneLine line)
    (hend : lineEnd ∈ lineEnds) (hrest : lineEnd = ['\r'] → '\n' ∉ rest) :
    linesOf (line ++ (lineEnd ++ rest)) = line :: linesOf rest := by
  rw [linesOf, ← alike, alike_line hline, alike_lineEnd hend hrest,
    List.splitOn_append_cons_self_of_not_mem hline.1]
  rfl

theorem linesOf_last {line : Text} (hline : Entry.OneLine line) : linesOf line = [line] := by
  have hsame := alike_line hline []
  rw [List.append_nil] at hsame
  rw [linesOf, ← alike, hsame, show alike [] = [] from rfl, List.append_nil,
    List.splitOn_eq_singleton hline.1]

/-- **The lines of a file** are read, and behind them at most empty ones. -/
theorem linesOf_intercalate {lineEnd : Text} (hend : lineEnd ∈ lineEnds) (ended : Bool)
    {lines : List Text} (hlines : ∀ line ∈ lines, Entry.OneLine line) :
    ∃ blanks, (∀ b ∈ blanks, b = []) ∧
      linesOf (List.intercalate lineEnd lines ++ if ended then lineEnd else []) =
        lines ++ blanks := by
  have hempty : Entry.OneLine [] := ⟨List.not_mem_nil, List.not_mem_nil⟩
  -- the last line, and the empty one behind its end
  have hlast : ∀ line, Entry.OneLine line → ∃ blanks, (∀ b ∈ blanks, b = []) ∧
      linesOf (line ++ if ended then lineEnd else []) = line :: blanks := by
    intro line hline
    cases ended with
    | false =>
      refine ⟨[], fun b hb => absurd hb List.not_mem_nil, ?_⟩
      rw [if_neg Bool.false_ne_true, List.append_nil, linesOf_last hline]
    | true =>
      refine ⟨[[]], fun b hb => List.mem_singleton.mp hb, ?_⟩
      have h : linesOf (line ++ (lineEnd ++ [])) = line :: linesOf [] :=
        linesOf_line hline hend fun _ => List.not_mem_nil
      rw [List.append_nil, linesOf_last hempty] at h
      rw [if_pos rfl, h]
  induction lines with
  | nil =>
    obtain ⟨blanks, hblanks, h⟩ := hlast [] hempty
    exact ⟨[] :: blanks, List.forall_mem_cons.mpr ⟨rfl, hblanks⟩, h⟩
  | cons line lines ih =>
    rw [List.forall_mem_cons] at hlines
    cases lines with
    | nil =>
      rw [List.intercalate_singleton]
      exact hlast line hlines.1
    | cons following lines =>
      obtain ⟨blanks, hblanks, h⟩ := ih hlines.2
      refine ⟨blanks, hblanks, ?_⟩
      have hrest : lineEnd = ['\r'] →
          '\n' ∉ List.intercalate lineEnd (following :: lines) ++ if ended then lineEnd else [] := by
        rintro rfl hmem
        have hreturn : '\n' ∉ ['\r'] := by decide
        rcases List.mem_append.mp hmem with hmem | hmem
        · rcases rules.mem_intercalate hmem with hmem | ⟨l, hl, hmem⟩
          · exact hreturn hmem
          · exact (hlines.2 l hl).1 hmem
        · split at hmem
          · exact hreturn hmem
          · cases hmem
      rw [List.intercalate_cons_cons, List.append_assoc, List.append_assoc,
        linesOf_line hlines.1 hend hrest, h]
      rfl

theorem length_le_intercalate {sep : Text} (hsep : sep ≠ []) (lines : List Text) :
    lines.length ≤ (List.intercalate sep lines).length + 1 := by
  have hpos := List.length_pos_iff.mpr hsep
  induction lines with
  | nil => exact Nat.zero_le _
  | cons line lines ih =>
    cases lines with
    | nil =>
      rw [List.length_singleton]
      omega
    | cons following lines =>
      rw [List.intercalate_cons_cons, List.length_append, List.length_append, List.length_cons]
      omega

theorem lineEnd_ne_nil {lineEnd : Text} (h : lineEnd ∈ lineEnds) : lineEnd ≠ [] := by
  rintro rfl
  exact absurd h (by decide)

/-! ## The file as a whole -/

/-- A file as it is written: each entry is valid, each declared tag is there at most once. -/
structure WellFormed (entries : List Entry) : Prop where
  valid : ∀ e ∈ entries, e.Valid
  once : ((entries.filter fun e => e.name.isSome).map Entry.tag).Nodup

theorem WellFormed.names {entries : List Entry} (h : WellFormed entries) :
    entries.Pairwise fun e e' => ∀ n, e.name = some n → e'.name ≠ some n := by
  have htags := h.once
  rw [List.Nodup, List.pairwise_map, List.pairwise_filter] at htags
  refine htags.imp fun hne n hn hn' => ?_
  exact hne (by rw [hn]; rfl) (by rw [hn']; rfl) (tag_of_name hn hn')

theorem oneLine_str (n : ℕ) : Entry.OneLine (str n) := by
  constructor
  · intro hmem
    exact ne_of_isdecimal (isdecimal_of_mem_str hmem) (by decide) rfl
  · intro hmem
    exact ne_of_isdecimal (isdecimal_of_mem_str hmem) (by decide) rfl

theorem mem_quoted {value : Text} {c : Char} (h : c ∈ quoted value) : c = '"' ∨ c ∈ value := by
  rw [quoted, List.mem_append, List.mem_cons, List.mem_flatMap, List.mem_singleton] at h
  rcases h with (rfl | ⟨d, hd, hc⟩) | rfl
  · exact .inl rfl
  · by_cases hquote : d = '"'
    · rw [if_pos hquote] at hc
      simp only [List.mem_cons, List.not_mem_nil, or_false, or_self] at hc
      exact .inl hc
    · rw [if_neg hquote, List.mem_singleton] at hc
      exact .inr (hc ▸ hd)
  · exact .inl rfl

theorem oneLine_head {tag : ℕ} {rest : Text} (h : Entry.OneLine rest) :
    Entry.OneLine (str tag ++ ',' :: rest) := by
  constructor
  · rw [List.mem_append, List.mem_cons, not_or, not_or]
    exact ⟨(oneLine_str tag).1, by decide, h.1⟩
  · rw [List.mem_append, List.mem_cons, not_or, not_or]
    exact ⟨(oneLine_str tag).2, by decide, h.2⟩

/-- The lines of a valid entry are lines. -/
theorem oneLine_written {e : Entry} (h : e.Valid) : ∀ line ∈ e.written, Entry.OneLine line := by
  intro line hline
  cases e with
  | scalar tag value =>
    rw [Entry.written, List.mem_singleton] at hline
    subst hline
    apply oneLine_head
    constructor
    · intro hmem
      exact (mem_quoted hmem).elim (by decide) h.2.2.2.1
    · intro hmem
      exact (mem_quoted hmem).elim (by decide) h.2.2.2.2
  | block tag lines =>
    rw [Entry.written, List.mem_cons] at hline
    rcases hline with rfl | hline
    · exact oneLine_head (oneLine_str _)
    · exact h.2 line hline

/-- **A file is read to what it says**: the scalars and the blocks in order, each block with all
of its lines and no other. And no text at all makes the reader raise. -/
theorem read_pro_fileText :
    (∀ (lineEnd : Text) (ended : Bool) (entries : List Entry), lineEnd ∈ lineEnds →
      WellFormed entries → (fileText lineEnd ended entries).length ≤ maxsize →
      read_pro (fileText lineEnd ended entries) =
        .ok ⟨entries.filterMap Entry.asScalar, entries.filterMap Entry.asBlock,
          entries.filterMap Entry.asUnknown⟩) ∧
    ∀ text : Text, ∃ pro, read_pro text = .ok pro := by
  refine ⟨fun lineEnd ended entries hend h hlength => ?_, fun text => loop_ok _ _ _⟩
  have hlines : ∀ line ∈ entries.flatMap Entry.written, Entry.OneLine line := by
    intro line hline
    obtain ⟨e, he, hline⟩ := List.mem_flatMap.mp hline
    exact oneLine_written (h.valid e he) line hline
  obtain ⟨blanks, hblanks, hread⟩ := linesOf_intercalate hend ended hlines
  -- a block has no more lines than the text has characters
  have hsize : ∀ e ∈ entries, e.written.length ≤ maxsize + 1 := by
    intro e he
    obtain ⟨front, back, rfl⟩ := List.append_of_mem he
    have hcount := length_le_intercalate (lineEnd_ne_nil hend)
      ((front ++ e :: back).flatMap Entry.written)
    rw [fileText, List.length_append] at hlength
    rw [List.flatMap_append, List.flatMap_cons, List.length_append, List.length_append] at hcount
    rw [List.flatMap_append, List.flatMap_cons] at hlength
    omega
  rw [read_pro, fileText, hread]
  have hloop := loop_entries [] h.valid hsize hblanks .empty
  rw [List.nil_append, List.length_nil, foldl_readInto .empty h.names
    (fun _ hs => absurd hs List.not_mem_nil) (fun _ hb => absurd hb List.not_mem_nil)] at hloop
  exact hloop

/-- A file whose block imitates a tag. -/
def imitating : List Entry :=
  [.scalar 602 "say \"hi\"".toList, .block 572 ["573,9".toList, [], "n = 1;".toList],
    .block 573 []]

/-- `read_pro_fileText` of it. -/
theorem imitating_read :
    read_pro (fileText ['\r', '\n'] true imitating) =
      .ok ⟨[("name", "say \"hi\"".toList)],
        [("prolog", ["573,9".toList, [], "n = 1;".toList]), ("metadata", [])], []⟩ := by
  have hformed : WellFormed imitating := by
    refine ⟨?_, by decide +kernel⟩
    rw [imitating, List.forall_mem_cons, List.forall_mem_cons, List.forall_mem_cons]
    refine ⟨?_, ?_, ?_, fun e he => absurd he List.not_mem_nil⟩
    · exact ⟨by decide, by decide, by decide, by decide, by decide⟩
    · refine ⟨by decide, ?_⟩
      rw [List.forall_mem_cons, List.forall_mem_cons, List.forall_mem_cons]
      exact ⟨⟨by decide, by decide⟩, ⟨by decide, by decide⟩, ⟨by decide, by decide⟩,
        fun l hl => absurd hl List.not_mem_nil⟩
    · exact ⟨by decide, fun l hl => absurd hl List.not_mem_nil⟩
  exact read_pro_fileText.1 ['\r', '\n'] true imitating (by decide) hformed (by decide)

end PaCopilot.ti.format
