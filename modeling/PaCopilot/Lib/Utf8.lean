/-
UTF-8, as it is written and as it is read byte by byte.

The reader is the decoder of the Encoding Standard: it carries what it has of a character from
one byte to the next, so a text may arrive in pieces that are cut anywhere. Bytes that are no
text become replacement characters. What is proved is that a text that was written is read as it
was, whatever the pieces, and that a character is there as soon as its last byte is, and not
before.
-/
import Mathlib.Data.List.Basic

set_option autoImplicit false

namespace PaCopilot.Utf8

/-! ## Writing -/

/-- The bytes of a character. -/
def encodeChar (c : Char) : List ℕ :=
  let v := c.toNat
  if v < 0x80 then [v]
  else if v < 0x800 then [0xC0 + v / 64, 0x80 + v % 64]
  else if v < 0x10000 then [0xE0 + v / 4096, 0x80 + v / 64 % 64, 0x80 + v % 64]
  else [0xF0 + v / 262144, 0x80 + v / 4096 % 64, 0x80 + v / 64 % 64, 0x80 + v % 64]

/-- The bytes of a text. -/
def encode (text : List Char) : List ℕ := text.flatMap encodeChar

theorem encode_append (s t : List Char) : encode (s ++ t) = encode s ++ encode t :=
  List.flatMap_append

/-! ## Reading -/

/-- What has been read of a character, how many bytes it still needs, and the bounds of the next
one. -/
structure Decoder where
  code : ℕ
  needed : ℕ
  lower : ℕ
  upper : ℕ
  deriving DecidableEq

/-- Between two characters. -/
def Decoder.initial : Decoder := ⟨0, 0, 0x80, 0xBF⟩

def replacement : Char := Char.ofNat 0xFFFD

/-- The first byte of a character. -/
def lead (b : ℕ) : Decoder × List Char :=
  if b ≤ 0x7F then (.initial, [Char.ofNat b])
  else if 0xC2 ≤ b ∧ b ≤ 0xDF then (⟨b - 0xC0, 1, 0x80, 0xBF⟩, [])
  else if 0xE0 ≤ b ∧ b ≤ 0xEF then
    (⟨b - 0xE0, 2, if b = 0xE0 then 0xA0 else 0x80, if b = 0xED then 0x9F else 0xBF⟩, [])
  else if 0xF0 ≤ b ∧ b ≤ 0xF4 then
    (⟨b - 0xF0, 3, if b = 0xF0 then 0x90 else 0x80, if b = 0xF4 then 0x8F else 0xBF⟩, [])
  else (.initial, [replacement])

/-- One byte. One that does not go on with the character begins another. -/
def Decoder.byte (d : Decoder) (b : ℕ) : Decoder × List Char :=
  if d.needed = 0 then lead b
  else if d.lower ≤ b ∧ b ≤ d.upper then
    let code := d.code * 64 + (b - 0x80)
    if d.needed = 1 then (.initial, [Char.ofNat code]) else (⟨code, d.needed - 1, 0x80, 0xBF⟩, [])
  else ((lead b).1, replacement :: (lead b).2)

/-- What a decoder reads, and where it stands then. -/
def decode : Decoder → List ℕ → List Char × Decoder
  | d, [] => ([], d)
  | d, b :: rest =>
    ((d.byte b).2 ++ (decode (d.byte b).1 rest).1, (decode (d.byte b).1 rest).2)

/-- **The pieces do not matter.** -/
theorem decode_append (d : Decoder) (bytes rest : List ℕ) :
    decode d (bytes ++ rest) = ((decode d bytes).1 ++ (decode (decode d bytes).2 rest).1,
      (decode (decode d bytes).2 rest).2) := by
  induction bytes generalizing d with
  | nil => rfl
  | cons b bytes ih => rw [List.cons_append, decode, decode, ih, List.append_assoc]

/-! ## What was written is read -/

section Tails

variable {code needed lower upper b : ℕ}

/-- A byte that goes on with a character. -/
theorem byte_more (hneeded : 1 < needed) (hlower : lower ≤ b) (hupper : b ≤ upper) :
    Decoder.byte ⟨code, needed, lower, upper⟩ b
      = (⟨code * 64 + (b - 0x80), needed - 1, 0x80, 0xBF⟩, []) := by
  unfold Decoder.byte
  rw [if_neg (by show ¬ needed = 0; omega), if_pos ⟨hlower, hupper⟩]
  dsimp only
  rw [if_neg (by omega)]

/-- The byte that ends it. -/
theorem byte_last (hlower : lower ≤ b) (hupper : b ≤ upper) :
    Decoder.byte ⟨code, 1, lower, upper⟩ b
      = (.initial, [Char.ofNat (code * 64 + (b - 0x80))]) := by
  unfold Decoder.byte
  rw [if_neg (by show ¬ 1 = 0; omega), if_pos ⟨hlower, hupper⟩]
  rfl

end Tails

theorem byte_initial (b : ℕ) : Decoder.initial.byte b = lead b := rfl

/-- The first byte of two, of three and of four. -/
theorem lead_two {b : ℕ} (hlower : 0xC2 ≤ b) (hupper : b ≤ 0xDF) :
    lead b = (⟨b - 0xC0, 1, 0x80, 0xBF⟩, []) := by
  unfold lead
  rw [if_neg (by omega), if_pos ⟨hlower, hupper⟩]

theorem lead_three {b : ℕ} (hlower : 0xE0 ≤ b) (hupper : b ≤ 0xEF) :
    lead b = (⟨b - 0xE0, 2, if b = 0xE0 then 0xA0 else 0x80, if b = 0xED then 0x9F else 0xBF⟩,
      []) := by
  unfold lead
  rw [if_neg (by omega), if_neg (by omega), if_pos ⟨hlower, hupper⟩]

theorem lead_four {b : ℕ} (hlower : 0xF0 ≤ b) (hupper : b ≤ 0xF4) :
    lead b = (⟨b - 0xF0, 3, if b = 0xF0 then 0x90 else 0x80, if b = 0xF4 then 0x8F else 0xBF⟩,
      []) := by
  unfold lead
  rw [if_neg (by omega), if_neg (by omega), if_neg (by omega), if_pos ⟨hlower, hupper⟩]

theorem toNat_valid (c : Char) : c.toNat < 0xD800 ∨ 0xDFFF < c.toNat ∧ c.toNat < 0x110000 :=
  c.valid

/-- A character is read from its bytes. -/
theorem decode_encodeChar (c : Char) : decode .initial (encodeChar c) = ([c], .initial) := by
  have hvalid := toNat_valid c
  have hchar : Char.ofNat c.toNat = c := Char.ofNat_toNat c
  unfold encodeChar
  generalize c.toNat = v at hvalid hchar ⊢
  dsimp only
  split
  · have hlead : lead v = (.initial, [Char.ofNat v]) := if_pos (by omega)
    rw [decode, byte_initial, hlead, hchar]
    rfl
  split
  · have hcode : (0xC0 + v / 64 - 0xC0) * 64 + (0x80 + v % 64 - 0x80) = v := by omega
    rw [decode, byte_initial, lead_two (by omega) (by omega), decode, byte_last (by omega) (by omega),
      hcode, hchar]
    rfl
  split
  · -- the bounds of the second byte keep out what is no character
    have hsecond : (if 0xE0 + v / 4096 = 0xE0 then 0xA0 else 0x80) ≤ 0x80 + v / 64 % 64 ∧
        0x80 + v / 64 % 64 ≤ if 0xE0 + v / 4096 = 0xED then 0x9F else 0xBF := by
      constructor <;> split <;> omega
    have hcode : ((0xE0 + v / 4096 - 0xE0) * 64 + (0x80 + v / 64 % 64 - 0x80)) * 64
        + (0x80 + v % 64 - 0x80) = v := by omega
    rw [decode, byte_initial, lead_three (by omega) (by omega), decode,
      byte_more (by omega) hsecond.1 hsecond.2, decode, byte_last (by omega) (by omega), hcode, hchar]
    rfl
  · have hsecond : (if 0xF0 + v / 262144 = 0xF0 then 0x90 else 0x80) ≤ 0x80 + v / 4096 % 64 ∧
        0x80 + v / 4096 % 64 ≤ if 0xF0 + v / 262144 = 0xF4 then 0x8F else 0xBF := by
      constructor <;> split <;> omega
    have hcode : (((0xF0 + v / 262144 - 0xF0) * 64 + (0x80 + v / 4096 % 64 - 0x80)) * 64
        + (0x80 + v / 64 % 64 - 0x80)) * 64 + (0x80 + v % 64 - 0x80) = v := by omega
    rw [decode, byte_initial, lead_four (by omega) (by omega), decode,
      byte_more (by omega) hsecond.1 hsecond.2, decode, byte_more (by omega) (by omega) (by omega),
      decode, byte_last (by omega) (by omega), hcode, hchar]
    rfl

/-- **A text is read as it was written.** -/
theorem decode_encode (text : List Char) : decode .initial (encode text) = (text, .initial) := by
  induction text with
  | nil => rfl
  | cons c rest ih =>
    have hcons : encode (c :: rest) = encodeChar c ++ encode rest := List.flatMap_cons
    rw [hcons, decode_append, decode_encodeChar]
    dsimp only
    rw [ih]
    rfl

/-- What has arrived of a text is read as the beginning of it. -/
theorem decode_prefix {text : List Char} {bytes : List ℕ} (h : bytes <+: encode text) :
    (decode .initial bytes).1 <+: text := by
  obtain ⟨rest, hrest⟩ := h
  have hall := decode_encode text
  rw [← hrest, decode_append, Prod.mk.injEq] at hall
  exact ⟨_, hall.1⟩

/-! ## Nothing is read early -/

/-- The byte after which nothing is needed is the last of a character. -/
theorem byte_out (d : Decoder) (b : ℕ) (h : (d.byte b).1.needed = 0) : (d.byte b).2 ≠ [] := by
  have hlead : (lead b).1.needed = 0 → (lead b).2 ≠ [] := by
    unfold lead
    split
    · exact fun _ => List.cons_ne_nil _ _
    split
    · exact fun h => absurd h Nat.one_ne_zero
    split
    · exact fun h => absurd h (Nat.succ_ne_zero 1)
    split
    · exact fun h => absurd h (Nat.succ_ne_zero 2)
    · exact fun _ => List.cons_ne_nil _ _
  by_cases hneeded : d.needed = 0
  · rw [Decoder.byte, if_pos hneeded] at h ⊢
    exact hlead h
  by_cases hbounds : d.lower ≤ b ∧ b ≤ d.upper
  · rw [Decoder.byte, if_neg hneeded, if_pos hbounds] at h ⊢
    by_cases hlast : d.needed = 1
    · simp [hlast]
    · simp only [if_neg hlast] at h
      omega
  · rw [Decoder.byte, if_neg hneeded, if_neg hbounds]
    exact List.cons_ne_nil _ _

/-- Bytes that lead to where nothing is needed end a character. -/
theorem decode_out {d : Decoder} {bytes : List ℕ} (hbytes : bytes ≠ [])
    (h : (decode d bytes).2.needed = 0) : (decode d bytes).1 ≠ [] := by
  induction bytes generalizing d with
  | nil => exact absurd rfl hbytes
  | cons b rest ih =>
    rw [decode] at h ⊢
    rcases rest with _ | ⟨b', rest⟩
    · rw [decode, List.append_nil]
      exact byte_out d b h
    · exact fun hnil => ih (List.cons_ne_nil _ _) h (List.append_eq_nil_iff.mp hnil).2

/-- **The last byte of a text is needed.** -/
theorem decode_short {text : List Char} {bytes : List ℕ} (h : bytes <+: encode text)
    (hshort : bytes.length < (encode text).length) : (decode .initial bytes).1 ≠ text := by
  obtain ⟨rest, hrest⟩ := h
  have hall := decode_encode text
  rw [← hrest, decode_append, Prod.mk.injEq] at hall
  have hne : rest ≠ [] := by
    rintro rfl
    rw [← hrest, List.append_nil] at hshort
    exact Nat.lt_irrefl _ hshort
  intro heq
  rw [heq] at hall
  have hnone := List.append_right_eq_self.mp hall.1
  exact decode_out hne (by rw [hall.2]; rfl) hnone

end PaCopilot.Utf8
