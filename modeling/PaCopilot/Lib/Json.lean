/-
JSON values and their text, as Python's `json.dumps(value, ensure_ascii=False)`
writes it.

An object keeps its keys in their order. A number is kept as it is spelled. What is
proved here is what a search by prefix relies on: the text of an object starts with
its first key and that key's value, and a quoted text ends at the first quote that is
not escaped, so that no longer text starts with it.
-/
import Mathlib.Data.List.Basic

set_option autoImplicit false

namespace PaCopilot

/-- A JSON value. -/
inductive Json
  | null
  | bool (b : Bool)
  | number (spelled : String)
  | string (s : String)
  | array (items : List Json)
  | object (fields : List (String × Json))

namespace Json

/-! ## Text -/

/-- A digit of a hexadecimal number. -/
def hexDigit (n : ℕ) : Char :=
  if n < 10 then Char.ofNat (48 + n) else Char.ofNat (87 + n)

/-- A character between quotes. -/
def escaped (c : Char) : List Char :=
  if c = '"' then ['\\', '"']
  else if c = '\\' then ['\\', '\\']
  else if c = '\n' then ['\\', 'n']
  else if c = '\r' then ['\\', 'r']
  else if c = '\t' then ['\\', 't']
  else if c.toNat = 8 then ['\\', 'b']
  else if c.toNat = 12 then ['\\', 'f']
  else if c.toNat < 32 then
    ['\\', 'u', '0', '0', hexDigit (c.toNat / 16), hexDigit (c.toNat % 16)]
  else [c]

/-- A text between quotes. -/
def quoted (s : List Char) : List Char := '"' :: (s.flatMap escaped ++ ['"'])

/-- `", ".join(texts)`. -/
def commaSeparated (texts : List (List Char)) : List Char := [',', ' '].intercalate texts

mutual

/-- `json.dumps(value, ensure_ascii=False)`. -/
def dumps : Json → List Char
  | .null => "null".toList
  | .bool b => (if b then "true" else "false").toList
  | .number spelled => spelled.toList
  | .string s => quoted s.toList
  | .array items => '[' :: (commaSeparated (dumpsItems items) ++ [']'])
  | .object fields => '{' :: (commaSeparated (dumpsFields fields) ++ ['}'])

def dumpsItems : List Json → List (List Char)
  | [] => []
  | item :: rest => dumps item :: dumpsItems rest

def dumpsFields : List (String × Json) → List (List Char)
  | [] => []
  | (key, value) :: rest => (quoted key.toList ++ ':' :: ' ' :: dumps value) :: dumpsFields rest

end

/-! ## What a text starts with -/

/-- A text that is written as it is. -/
def Plain (s : List Char) : Prop := ∀ c ∈ s, c ≠ '"' ∧ c ≠ '\\' ∧ 32 ≤ c.toNat

theorem escaped_plain {c : Char} (h : c ≠ '"' ∧ c ≠ '\\' ∧ 32 ≤ c.toNat) : escaped c = [c] := by
  obtain ⟨hquote, hbackslash, hcode⟩ := h
  have hne : ∀ d : Char, d.toNat < 32 → c ≠ d := by
    intro d hd heq
    rw [heq] at hcode
    omega
  unfold escaped
  rw [if_neg hquote, if_neg hbackslash, if_neg (hne '\n' (by decide)),
    if_neg (hne '\r' (by decide)), if_neg (hne '\t' (by decide)), if_neg (by omega),
    if_neg (by omega), if_neg (by omega)]

theorem quoted_plain {s : List Char} (h : Plain s) : quoted s = '"' :: (s ++ ['"']) := by
  have hflat : s.flatMap escaped = s := by
    induction s with
    | nil => rfl
    | cons c rest ih =>
      rw [List.flatMap_cons, escaped_plain (h c List.mem_cons_self),
        ih fun d hd => h d (List.mem_cons_of_mem _ hd)]
      rfl
  rw [quoted, hflat]

/-- A plain text between quotes starts no other one. -/
theorem quoted_prefix_iff {s t rest : List Char} (hs : Plain s) (ht : Plain t) :
    quoted s <+: quoted t ++ rest ↔ s = t := by
  rw [quoted_plain hs, quoted_plain ht]
  constructor
  · intro h
    rw [List.cons_append, List.cons_prefix_cons, List.append_assoc] at h
    have hbody := h.2
    -- both texts end where the first quote is
    have hends : ∀ {text after : List Char}, Plain text →
        (text ++ '"' :: after).takeWhile (· ≠ '"') = text := by
      intro text after hplain
      rw [List.takeWhile_append_of_pos fun c hc => decide_eq_true (hplain c hc).1,
        List.takeWhile_cons_of_neg (by simp), List.append_nil]
    obtain ⟨after, hafter⟩ := hbody
    have hsame := congrArg (List.takeWhile (· ≠ '"')) hafter
    rw [List.append_assoc, List.singleton_append, hends hs, List.singleton_append,
      hends ht] at hsame
    exact hsame
  · rintro rfl
    exact List.prefix_append _ _

/-- What stands first in the text of an object whose first key has a text for its value. -/
def opening (key value : List Char) : List Char := '{' :: (quoted key ++ ':' :: ' ' :: quoted value)

/-- The text of an object starts with its first key and value. -/
theorem dumps_object_opening (key value : String) (rest : List (String × Json)) :
    ∃ after, dumps (.object ((key, .string value) :: rest))
      = opening key.toList value.toList ++ after := by
  rw [dumps, dumpsFields, dumps, opening, commaSeparated]
  rcases hrest : dumpsFields rest with _ | ⟨next, others⟩
  · refine ⟨['}'], ?_⟩
    simp [List.intercalate, List.intersperse]
  · refine ⟨[',', ' '] ++ [',', ' '].intercalate (next :: others) ++ ['}'], ?_⟩
    simp [List.intercalate, List.intersperse]

/-- An opening tells the values apart. -/
theorem opening_prefix_iff {key s t rest : List Char} (hs : Plain s) (ht : Plain t) :
    opening key s <+: opening key t ++ rest ↔ s = t := by
  rw [opening, opening, List.cons_append, List.cons_prefix_cons, List.append_assoc,
    List.prefix_append_right_inj]
  show '{' = '{' ∧ ':' :: ' ' :: quoted s <+: ':' :: ' ' :: (quoted t ++ rest) ↔ s = t
  rw [List.cons_prefix_cons, List.cons_prefix_cons, quoted_prefix_iff hs ht]
  exact ⟨fun h => h.2.2.2, fun h => ⟨rfl, rfl, rfl, h⟩⟩

end Json

end PaCopilot
