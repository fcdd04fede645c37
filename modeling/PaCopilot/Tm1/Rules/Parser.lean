/-
The rule parser, `tm1/rules/parser.py`.

A text is a list of characters here. `str.upper` and `str.lower` depend on the tables of
Unicode and are a parameter; everything else of Python's that the parser uses is spelled
out. The regular expressions are the functions that compute their matches.
-/
import PaCopilot.Python

set_option autoImplicit false

namespace PaCopilot.rules

open Python (isspace strip)

abbrev Text := List Char

/-- Whether a text is in a list is decided by comparing texts. -/
scoped instance decidableTextMem (text : Text) (texts : List Text) : Decidable (text ∈ texts) :=
  List.instDecidableMemOfLawfulBEq text texts

/-- `str.upper` and `str.lower`. -/
structure Casing where
  upper : Text → Text
  lower : Text → Text

def DIRECTIVES : List Text := ["SKIPCHECK".toList, "FEEDSTRINGS".toList, "UNDEFVALS".toList]

def FEEDERS_MARKER : Text := "FEEDERS".toList

/-! ## Text -/

/-- A character that opens, and closes, a string literal. -/
def isQuote (c : Char) : Bool := c == '\'' || c == '"'

/-- A character that `str.splitlines` ends a line at. -/
def isLineBreak (c : Char) : Bool :=
  let n := c.toNat
  (10 ≤ n && n ≤ 13) || (28 ≤ n && n ≤ 30) || n == 0x85 || n == 0x2028 || n == 0x2029

/-- A line with a character put before it. -/
def consLine (c : Char) : List Text → List Text
  | [] => [[c]]
  | line :: lines => (c :: line) :: lines

/-- `text.splitlines()`. -/
def splitlines : Text → List Text
  | [] => []
  | '\r' :: '\n' :: rest => [] :: splitlines rest
  | c :: rest => if isLineBreak c then [] :: splitlines rest else consLine c (splitlines rest)

/-- A line ends at its own character, unless that is the first half of a line end. -/
theorem splitlines_cons {c : Char} {rest : Text}
    (h : ∀ after, c = '\r' → rest = '\n' :: after → False) :
    splitlines (c :: rest) =
      if isLineBreak c then [] :: splitlines rest else consLine c (splitlines rest) := by
  rw [splitlines]
  exact h

/-- `s.lstrip()`. -/
def lstrip (s : Text) : Text := s.dropWhile isspace

/-- `" ".join(raw.split())`. -/
def squeeze (s : Text) : Text := List.intercalate [' '] (Python.split s)

/-- `s.split(mark, 1)` for `"=>"`, where the mark occurs. -/
def splitArrow : Text → Option (Text × Text)
  | [] => none
  | '=' :: '>' :: rest => some ([], rest)
  | c :: rest => (splitArrow rest).map fun (before, target) => (c :: before, target)

/-! ## Statements -/

/-- A line up to its comment. The state is the quote of the string literal it is in. -/
def cutComment : Option Char → Text → Text
  | _, [] => []
  | some quote, c :: rest => c :: cutComment (if c == quote then none else some quote) rest
  | none, c :: rest =>
    if isQuote c then c :: cutComment (some c) rest
    else if c == '#' then []
    else c :: cutComment none rest

def _strip_comments (text : Text) : Text :=
  List.intercalate ['\n'] ((splitlines text).map (cutComment none))

/-- Where the loop of `_split_statements` is: the statement so far, the line, the line the
statement began at, and the quote of the string literal. -/
structure Scan where
  buffer : Text := []
  line_number : ℕ := 1
  start_line : ℕ := 1
  quote : Option Char := none
  deriving DecidableEq

/-- The line count before a character is looked at. -/
def Scan.count (scan : Scan) (ch : Char) : Scan :=
  if ch == '\n' then
    { scan with
      line_number := scan.line_number + 1
      start_line := if strip scan.buffer = [] then scan.line_number + 1 else scan.start_line }
  else scan

/-- The statement in the buffer, if there is one. -/
def Scan.flush (scan : Scan) : List (ℕ × Text) :=
  if strip scan.buffer = [] then [] else [(scan.start_line, strip scan.buffer)]

/-- One character: the statement it ends, and the scan after it. -/
def Scan.next (scan : Scan) (ch : Char) : List (ℕ × Text) × Scan :=
  let scan := scan.count ch
  match scan.quote with
  | some quote =>
    ([], { scan with
      buffer := scan.buffer ++ [ch], quote := if ch == quote then none else some quote })
  | none =>
    if isQuote ch then ([], { scan with buffer := scan.buffer ++ [ch], quote := some ch })
    else if ch == ';' then
      (scan.flush, { scan with buffer := [], start_line := scan.line_number })
    else ([], { scan with buffer := scan.buffer ++ [ch] })

def statementsFrom (scan : Scan) : Text → List (ℕ × Text)
  | [] => scan.flush
  | ch :: rest => (scan.next ch).1 ++ statementsFrom (scan.next ch).2 rest

def _split_statements (text : Text) : List (ℕ × Text) := statementsFrom {} text

/-! ## Areas -/

/-- `\[[^\]]*\]`: a bracket up to the first one that closes, and what follows. -/
def bracketGroup : Text → Option (Text × Text)
  | '[' :: rest =>
    match rest.span (· != ']') with
    | (content, close :: after) => some ('[' :: content ++ [close], after)
    | (_, []) => none
  | _ => none

/-- `(?:\[[^\]]*\]\s*)*`, in at most `fuel` groups. -/
def bracketGroups : ℕ → Text → Text × Text
  | 0, s => ([], s)
  | fuel + 1, s =>
    match bracketGroup s with
    | none => ([], s)
    | some (group, after) =>
      let (area, rest) := bracketGroups fuel (after.dropWhile isspace)
      (group ++ after.takeWhile isspace ++ area, rest)

/-- `_AREA.match(s)`: its group, and what follows the match. There are no more groups than
characters. -/
def _AREA (s : Text) : Option (Text × Text) :=
  let s := lstrip s
  match bracketGroups s.length s with
  | ([], _) => none
  | (area, rest) => some (area, rest)

/-- `_QUOTED.findall(area)`: what stands between a quote and the next one like it. -/
def _QUOTED : ℕ → Text → List Text
  | _, [] => []
  | 0, _ => []
  | fuel + 1, c :: rest =>
    if isQuote c then
      match rest.span (· != c) with
      | (value, _ :: after) => value :: _QUOTED fuel after
      | (_, []) => _QUOTED fuel rest
    else _QUOTED fuel rest

def _elements_of (area : Text) : List Text :=
  ((_QUOTED area.length area).map strip).filter fun value => !value.isEmpty

/-- `_parse_target`: the elements of a target, and whether it can be resolved. -/
def _parse_target (fragment : Text) : List Text × Bool :=
  match _AREA fragment with
  | none => ([], false)
  | some (area, _) => (_elements_of area, true)

section Casing

variable (casing : Casing)

/-- `_QUALIFIER.match(s)`: its group in upper case, and what follows the match. -/
def _QUALIFIER (s : Text) : Option (Text × Text) :=
  match lstrip s with
  | [] => none
  | c :: rest =>
    if casing.upper [c] ∈ [['N'], ['S'], ['C']] then
      match lstrip rest with
      | ':' :: expression => some (casing.upper [c], expression)
      | _ => none
    else none

/-! ## Rules -/

structure Statement where
  line_number : ℕ
  text : Text
  elements : List Text := []
  qualifier : Option Text := none
  expression : Text := []
  is_feeder : Bool := false
  target_elements : List Text := []
  resolvable : Bool := true
  deriving DecidableEq

structure ParsedRules where
  directives : List Text := []
  calculations : List Statement := []
  feeders : List Statement := []
  has_feeders_section : Bool := false
  misplaced_calculations : List Statement := []
  deriving DecidableEq

def ParsedRules.skipcheck (parsed : ParsedRules) : Bool := "SKIPCHECK".toList ∈ parsed.directives

def ParsedRules.feedstrings (parsed : ParsedRules) : Bool :=
  "FEEDSTRINGS".toList ∈ parsed.directives

/-- The area of a statement, and what follows it. -/
def areaOf (raw : Text) : Text × Text := (_AREA raw).getD ([], raw)

/-- A statement before its remainder is read. -/
def bareStatement (line_number : ℕ) (raw : Text) : Statement where
  line_number := line_number
  text := squeeze raw
  elements := _elements_of (areaOf raw).1
  resolvable := (_AREA raw).isSome

/-- A statement with a feeder arrow in its remainder. -/
def feederStatement (line_number : ℕ) (raw target : Text) : Statement :=
  { bareStatement line_number raw with
    is_feeder := true
    target_elements := (_parse_target target).1
    resolvable := (_AREA raw).isSome && (_parse_target target).2 }

/-- `expression[1:]` where it starts with `=`. -/
def afterEquals : Text → Text
  | '=' :: rest => rest
  | rest => rest

/-- A statement without one. -/
def calculationStatement (line_number : ℕ) (raw : Text) : Statement :=
  let expression := afterEquals (lstrip (areaOf raw).2)
  match _QUALIFIER casing expression with
  | some (qualifier, expression) =>
    { bareStatement line_number raw with
      qualifier := some qualifier, expression := strip expression }
  | none => { bareStatement line_number raw with expression := strip expression }

/-- What a statement adds to the rules. -/
inductive Item
  | directive (name : Text)
  | marker
  | feeder (statement : Statement)
  | calculation (statement : Statement)
  deriving DecidableEq

/-- One pass of the loop of `parse_rules`, up to where the statement goes. -/
def item (line_number : ℕ) (raw : Text) : Item :=
  let upper := casing.upper (strip raw)
  if upper ∈ DIRECTIVES then .directive upper
  else if upper = FEEDERS_MARKER then .marker
  else
    match splitArrow (areaOf raw).2 with
    | some (_, target) => .feeder (feederStatement line_number raw target)
    | none => .calculation (calculationStatement casing line_number raw)

/-- Where the statement goes. `in_feeders` of the loop is `has_feeders_section`: both are
set by the marker, and nothing clears them. -/
def ParsedRules.add (parsed : ParsedRules) : Item → ParsedRules
  | .directive name => { parsed with directives := parsed.directives ++ [name] }
  | .marker => { parsed with has_feeders_section := true }
  | .feeder statement => { parsed with feeders := parsed.feeders ++ [statement] }
  | .calculation statement =>
    if parsed.has_feeders_section then
      { parsed with misplaced_calculations := parsed.misplaced_calculations ++ [statement] }
    else { parsed with calculations := parsed.calculations ++ [statement] }

/-- The statements of a text. A text of white space only has none. -/
def rawStatements (text : Text) : List (ℕ × Text) :=
  if strip text = [] then [] else _split_statements (_strip_comments text)

def parse_rules (text : Text) : ParsedRules :=
  ((rawStatements text).map fun (line_number, raw) => item casing line_number raw).foldl
    ParsedRules.add {}

end Casing

/-- Upper and lower case of a text in ASCII. -/
def asciiCasing : Casing where
  upper s := s.map Char.toUpper
  lower s := s.map Char.toLower

example : parse_rules asciiCasing
    "SKIPCHECK;\n['A', 'x'] = N: ['B'] * 2; # twice\nFEEDERS;\n['B'] => ['A'];".toList =
    { directives := ["SKIPCHECK".toList]
      calculations := [{
        line_number := 2
        text := "['A', 'x'] = N: ['B'] * 2".toList
        elements := [['A'], ['x']]
        qualifier := some ['N']
        expression := "['B'] * 2".toList }]
      feeders := [{
        line_number := 4
        text := "['B'] => ['A']".toList
        elements := [['B']]
        is_feeder := true
        target_elements := [['A']] }]
      has_feeders_section := true } := by decide +kernel

end PaCopilot.rules
