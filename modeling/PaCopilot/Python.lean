/-
The parts of Python's built-in text and number handling that the modelled code
uses.

Texts are `String`s read as lists of characters. Numbers are rationals: a Python
`float` is a binary64 and every finite one is a rational, and the code never
produces an infinity or a NaN of its own. Where Python rounds a decimal result
to the nearest binary64, the model keeps the decimal.
-/
import PaCopilot.Lib.Rounding
import Mathlib.Data.Int.Log
import Mathlib.Data.Rat.Floor
import Mathlib.Tactic.Common

set_option autoImplicit false

namespace PaCopilot.Python

/-! ## Text -/

/-- `str.isspace` for one character. -/
def isspace (c : Char) : Bool :=
  let n := c.toNat
  (9 ≤ n && n ≤ 13) || (28 ≤ n && n ≤ 32) || n == 0x85 || n == 0xA0 || n == 0x1680
    || (0x2000 ≤ n && n ≤ 0x200A) || n == 0x2028 || n == 0x2029 || n == 0x202F
    || n == 0x205F || n == 0x3000

/-- `str.strip()`. -/
def strip (s : List Char) : List Char :=
  ((s.dropWhile isspace).reverse.dropWhile isspace).reverse

/-- `s.rstrip()`. -/
def rstrip (s : List Char) : List Char := (s.reverse.dropWhile isspace).reverse

/-- `str.capitalize`, of a text in ASCII. -/
def capitalize (s : String) : String :=
  match s.toList with
  | [] => ""
  | c :: rest => String.ofList (c.toUpper :: rest.map Char.toLower)

/-- `str.lower`, of a text in ASCII. -/
def lowerAscii (s : String) : String := String.ofList (s.toList.map Char.toLower)

/-- `part in s`. -/
def contains (s part : String) : Bool := s.toList.tails.any fun rest => part.toList.isPrefixOf rest

/-- `s.replace("_", " ")`. -/
def spaced (s : String) : String := s.map fun c => if c = '_' then ' ' else c

/-- `s.replace("\r\n", "\n")`. -/
def newlines : List Char → List Char
  | '\r' :: '\n' :: rest => '\n' :: newlines rest
  | c :: rest => c :: newlines rest
  | [] => []

/-- `s.split()`: the maximal runs of characters that are not white space. -/
def split (s : List Char) : List (List Char) :=
  (s.splitOnP isspace).filter fun word => !word.isEmpty

/-- `" ".join(s.split())`. -/
def squeeze (s : String) : String :=
  String.ofList (List.intercalate [' '] (split s.toList))

/-- A letter of a pattern with `re.IGNORECASE`. Outside ASCII the letters `i`, `s` and `k` are
matched by more than their two cases. -/
def sameLetter (letter c : Char) : Bool :=
  c.toLower = letter || (letter = 'i' && (c.toNat = 0x130 || c.toNat = 0x131))
    || (letter = 's' && c.toNat = 0x17F) || (letter = 'k' && c.toNat = 0x212A)

/-- A text begins with a word of a pattern with `re.IGNORECASE`. What follows is returned. -/
def afterWord : List Char → List Char → Option (List Char)
  | [], rest => some rest
  | _ :: _, [] => none
  | letter :: word, c :: rest => if sameLetter letter c then afterWord word rest else none

/-! ## Numbers -/

/-- The integer nearest to `q`, the even one of two. -/
def roundHalfEven (q : ℚ) : ℤ := Rounding.halfEven q

/-- `round(x, 9)`. -/
def round9 (x : ℚ) : ℚ := roundHalfEven (x * 10 ^ 9) / 10 ^ 9

/-- The fifteen significant digits of a number that is not zero: `(m, e)` with
`10 ^ 14 ≤ m < 10 ^ 15`, read `m * 10 ^ (e - 14)`. -/
def significant (x : ℚ) : ℕ × ℤ :=
  let e := Int.log 10 |x|
  let m := (roundHalfEven (|x| * (10 : ℚ) ^ (14 - e))).toNat
  if m = 10 ^ 15 then (10 ^ 14, e + 1) else (m, e)

/-- The number that `format(x, ".15g")` spells. -/
def fifteen (x : ℚ) : ℚ :=
  if x = 0 then 0
  else
    let (m, e) := significant x
    (if x < 0 then -1 else 1) * m * (10 : ℚ) ^ (e - 14)

/-- Decimal digits without the zeros at the end. -/
def trimZeros (digits : List Char) : List Char :=
  (digits.reverse.dropWhile (· == '0')).reverse

/-- `format(x, ".15g")`: at most fifteen significant digits, no trailing zeros,
and an exponent only below `1e-4` and from `1e15` on. -/
def format15g (x : ℚ) : String :=
  if x = 0 then "0"
  else
    let (m, e) := significant x
    let sign := if x < 0 then ['-'] else []
    let digits := trimZeros (Nat.toDigits 10 m)
    let point (whole fraction : List Char) : List Char :=
      if fraction.isEmpty then whole else whole ++ '.' :: fraction
    if 0 ≤ e && e < 15 then
      let places := e.toNat + 1
      let padded := digits ++ List.replicate (places - digits.length) '0'
      String.ofList (sign ++ point (padded.take places) (padded.drop places))
    else if -4 ≤ e && e < 0 then
      String.ofList (sign ++ point ['0'] (List.replicate ((-e).toNat - 1) '0' ++ digits))
    else
      let exponent := Nat.toDigits 10 e.natAbs
      let wide := if exponent.length < 2 then '0' :: exponent else exponent
      String.ofList (sign ++ point (digits.take 1) (digits.drop 1)
        ++ 'e' :: (if e < 0 then '-' else '+') :: wide)

/-- A run of decimal digits, single underscores allowed between them, as a
number and the count of its digits. -/
def digitRun : List Char → Option (ℕ × ℕ)
  | [] => none
  | c :: rest =>
    if !c.isDigit then none
    else rest.foldl
      (fun acc d => match acc with
        | none => none
        | some (n, k, afterUnderscore) =>
          if d == '_' then (if afterUnderscore then none else some (n, k, true))
          else if d.isDigit then some (10 * n + (d.toNat - 48), k + 1, false)
          else none)
      (some (c.toNat - 48, 1, false))
      |>.bind fun (n, k, afterUnderscore) => if afterUnderscore then none else some (n, k)

/-- A sign in front of a text. -/
def signed (s : List Char) : ℤ × List Char :=
  match s with
  | '-' :: rest => (-1, rest)
  | '+' :: rest => (1, rest)
  | rest => (1, rest)

/-- The mantissa of a decimal numeral: digits, with a point before, after or
between them. -/
def mantissa (s : List Char) : Option ℚ :=
  match s.span (· != '.') with
  | (whole, []) => (digitRun whole).map fun (n, _) => (n : ℚ)
  | (whole, _ :: fraction) =>
    match whole, fraction with
    | [], [] => none
    | _, [] => (digitRun whole).map fun (n, _) => (n : ℚ)
    | [], _ => (digitRun fraction).map fun (n, k) => (n : ℚ) / 10 ^ k
    | _, _ => do
      let (n, _) ← digitRun whole
      let (f, k) ← digitRun fraction
      return (n : ℚ) + (f : ℚ) / 10 ^ k

/-- `float(s)` for a text `s`; `none` where Python raises `ValueError`. The
spellings of infinity and NaN are not numbers here. -/
def floatOfText (s : String) : Option ℚ := do
  let (sign, body) := signed (strip s.toList)
  match body.span (fun c => c != 'e' && c != 'E') with
  | (digits, []) => return sign * (← mantissa digits)
  | (digits, _ :: exponent) =>
    let (esign, edigits) := signed exponent
    let (n, _) ← digitRun edigits
    return sign * (← mantissa digits) * (10 : ℚ) ^ (esign * n)

/-! ## Times -/

/-- A number in at least `width` digits. -/
def padded (width n : ℕ) : String :=
  let digits := Nat.toDigits 10 n
  String.ofList (List.replicate (width - digits.length) '0' ++ digits)

/-- Year, month and day of a day, counted from 1970-01-01. Years begin in March here, so
that the day a leap year has more is its last. -/
def civil (day : ℕ) : ℕ × ℕ × ℕ :=
  let z := day + 719468
  let era := z / 146097
  let doe := z % 146097
  let yoe := (doe - doe / 1460 + doe / 36524 - doe / 146096) / 365
  let doy := doe - (365 * yoe + yoe / 4 - yoe / 100)
  let mp := (5 * doy + 2) / 153
  let month := if mp < 10 then mp + 3 else mp - 9
  (yoe + era * 400 + (if month ≤ 2 then 1 else 0), month, doy - (153 * mp + 2) / 5 + 1)

/-- `f"{t:%Y-%m-%d}"`, of an instant in UTC in microseconds. -/
def formatDate (t : ℕ) : String :=
  let (year, month, day) := civil (t / 86400000000)
  s!"{padded 4 year}-{padded 2 month}-{padded 2 day}"

/-- `f"{t:%H:%M}"`. -/
def formatMinute (t : ℕ) : String :=
  s!"{padded 2 (t / 3600000000 % 24)}:{padded 2 (t / 60000000 % 60)}"

/-- `t.isoformat()`. -/
def isoformat (t : ℕ) : String :=
  let micros := t % 1000000
  let fraction := if micros = 0 then "" else "." ++ padded 6 micros
  s!"{formatDate t}T{formatMinute t}:{padded 2 (t / 1000000 % 60)}{fraction}+00:00"

example : isoformat 1772424245000007 = "2026-03-02T04:04:05.000007+00:00" := by decide +kernel

end PaCopilot.Python
