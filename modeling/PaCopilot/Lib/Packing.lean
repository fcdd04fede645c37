/-
Bytes as a text, and bytes that are kept as they are: `base64`, and the stored blocks of
`zlib`.

Three bytes are four characters, and a last group of one or two bytes is filled up with `=`.
Where `zlib` finds nothing to shorten, it writes its two bytes of header, the bytes in blocks
of at most 16383 with the length before each, and the Adler-32 of them all. Both are read
back ([`decode_encode`], [`inflate_store`]), and the length of both follows from the length
of what was packed.
-/
import PaCopilot.Lib.Parts

set_option autoImplicit false

namespace PaCopilot.Packing

open Parts

/-! ## base64 -/

def ALPHABET : List Char :=
  "ABCDEFGHIJKLMNOPQRSTUVWXYZabcdefghijklmnopqrstuvwxyz0123456789+/".toList

def character (n : ℕ) : Char := ALPHABET.getD n '='

def sextet (c : Char) : Option ℕ := ALPHABET.idxOf? c

def encode : List UInt8 → List Char
  | a :: b :: c :: rest =>
    let n := a.toNat * 65536 + b.toNat * 256 + c.toNat
    character (n / 262144) :: character (n / 4096 % 64) :: character (n / 64 % 64)
      :: character (n % 64) :: encode rest
  | [a, b] =>
    let n := a.toNat * 65536 + b.toNat * 256
    [character (n / 262144), character (n / 4096 % 64), character (n / 64 % 64), '=']
  | [a] =>
    let n := a.toNat * 65536
    [character (n / 262144), character (n / 4096 % 64), '=', '=']
  | [] => []

/-- The three bytes of four characters. -/
def octets (w x y z : ℕ) : List UInt8 :=
  let n := w * 262144 + x * 4096 + y * 64 + z
  [UInt8.ofNat (n / 65536), UInt8.ofNat (n / 256), UInt8.ofNat n]

def decode : List Char → Option (List UInt8)
  | w :: x :: y :: z :: rest =>
    match sextet w, sextet x, sextet y, sextet z with
    | some w, some x, some y, some z => (decode rest).map fun data => octets w x y z ++ data
    | some w, some x, some y, none =>
      if z = '=' ∧ rest = [] then some ((octets w x y 0).take 2) else none
    | some w, some x, none, none =>
      if y = '=' ∧ z = '=' ∧ rest = [] then some ((octets w x 0 0).take 1) else none
    | _, _, _, _ => none
  | [] => some []
  | _ => none

theorem sextet_character {n : ℕ} (h : n < 64) : sextet (character n) = some n := by
  have hall : ∀ n < 64, sextet (character n) = some n := by decide
  exact hall n h

theorem sextet_pad : sextet '=' = none := by decide

/-- A byte is what remains of a number with the byte in its last place. -/
theorem ofNat_of_mod {n : ℕ} (byte : UInt8) (h : n % 256 = byte.toNat) : UInt8.ofNat n = byte := by
  apply UInt8.toNat_inj.mp
  rw [UInt8.toNat_ofNat', h]

theorem octets_sextets {a b c : UInt8} {n : ℕ}
    (hn : n = a.toNat * 65536 + b.toNat * 256 + c.toNat) :
    octets (n / 262144) (n / 4096 % 64) (n / 64 % 64) (n % 64) = [a, b, c] := by
  have ha := a.toNat_lt
  have hb := b.toNat_lt
  have hc := c.toNat_lt
  have hwhole : n / 262144 * 262144 + n / 4096 % 64 * 4096 + n / 64 % 64 * 64 + n % 64 = n := by
    omega
  unfold octets
  dsimp only
  rw [hwhole, ofNat_of_mod a (by omega), ofNat_of_mod b (by omega), ofNat_of_mod c (by omega)]

/-- The first sextet of three bytes is one. -/
theorem firstSextet_lt {a b c : UInt8} {n : ℕ}
    (hn : n = a.toNat * 65536 + b.toNat * 256 + c.toNat) : n / 262144 < 64 := by
  have ha := a.toNat_lt
  have hb := b.toNat_lt
  have hc := c.toNat_lt
  omega

/-- **What base64 made is read back.** -/
theorem decode_encode (data : List UInt8) : decode (encode data) = some data := by
  have hsextet : ∀ m, sextet (character (m % 64)) = some (m % 64) := fun m =>
    sextet_character (Nat.mod_lt m (by decide))
  induction data using encode.induct with
  | case1 a b c rest ih =>
    rw [encode, decode, sextet_character (firstSextet_lt rfl), hsextet, hsextet, hsextet]
    dsimp only
    rw [ih, Option.map_some, octets_sextets rfl]
    rfl
  | case2 a b =>
    -- as of a third byte 0, whose sextet is 0
    have hn : a.toNat * 65536 + b.toNat * 256
      = a.toNat * 65536 + b.toNat * 256 + (0 : UInt8).toNat := by
      rw [UInt8.toNat_zero, Nat.add_zero]
    have hgroup := octets_sextets hn
    have hlast : (a.toNat * 65536 + b.toNat * 256) % 64 = 0 := by omega
    rw [hlast] at hgroup
    rw [encode, decode, sextet_character (firstSextet_lt hn), hsextet, hsextet, sextet_pad]
    dsimp only
    rw [if_pos ⟨rfl, rfl⟩, hgroup]
    rfl
  | case3 a =>
    have hn : a.toNat * 65536
      = a.toNat * 65536 + (0 : UInt8).toNat * 256 + (0 : UInt8).toNat := by
      rw [UInt8.toNat_zero, Nat.zero_mul, Nat.add_zero]
    have hgroup := octets_sextets hn
    have hthird : a.toNat * 65536 / 64 % 64 = 0 := by omega
    have hlast : a.toNat * 65536 % 64 = 0 := by omega
    rw [hlast, hthird] at hgroup
    rw [encode, decode, sextet_character (firstSextet_lt hn), hsextet, sextet_pad]
    dsimp only
    rw [if_pos ⟨rfl, rfl, rfl⟩, hgroup]
    rfl
  | case4 => rfl

theorem length_encode (data : List UInt8) :
    (encode data).length = 4 * ((data.length + 2) / 3) := by
  induction data using encode.induct with
  | case1 a b c rest ih =>
    rw [encode]
    simp only [List.length_cons, ih]
    omega
  | case2 a b => simp only [encode, List.length_cons, List.length_nil]
  | case3 a => simp only [encode, List.length_cons, List.length_nil]
  | case4 => rfl

/-! ## Stored blocks -/

/-- A number below 65536 in two bytes, the low one first. -/
def word (n : ℕ) : List UInt8 := [UInt8.ofNat n, UInt8.ofNat (n / 256)]

def block (final : Bool) (data : List UInt8) : List UInt8 :=
  (if final then 1 else 0) :: (word data.length ++ word (65535 - data.length) ++ data)

/-- The last block is marked. -/
def blocks : List (List UInt8) → List UInt8
  | [] => block true []
  | [last] => block true last
  | piece :: others => block false piece ++ blocks others

/-- The Adler-32 of the bytes, the high byte first. -/
def adler32 (data : List UInt8) : List UInt8 :=
  let (a, b) := data.foldl (fun (a, b) byte =>
    ((a + byte.toNat) % 65521, (b + (a + byte.toNat) % 65521) % 65521)) (1, 0)
  (word b).reverse ++ (word a).reverse

def store (data : List UInt8) : List UInt8 :=
  [0x78, 0x9c] ++ (blocks (slices 16383 data) ++ adler32 data)

/-- The bytes of the blocks, and what follows the last one. -/
def readBlocks : ℕ → List UInt8 → Option (List UInt8 × List UInt8)
  | fuel + 1, final :: low :: high :: _ :: _ :: rest =>
    let length := low.toNat + 256 * high.toNat
    if rest.length < length then none
    else if final = 1 then some (rest.take length, rest.drop length)
    else (readBlocks fuel (rest.drop length)).map fun (data, check) =>
      (rest.take length ++ data, check)
  | _, _ => none

def inflate : List UInt8 → Option (List UInt8)
  | 0x78 :: 0x9c :: packed =>
    match readBlocks packed.length packed with
    | some (data, check) => if check = adler32 data then some data else none
    | none => none
  | _ => none

theorem readWord (n : ℕ) (h : n < 65536) :
    (UInt8.ofNat n).toNat + 256 * (UInt8.ofNat (n / 256)).toNat = n := by
  rw [UInt8.toNat_ofNat', UInt8.toNat_ofNat']
  omega

/-- One block is read: the last one ends the reading, any other is followed by more. -/
theorem readBlocks_block {data : List UInt8} (h : data.length < 65536) (fuel : ℕ)
    (rest : List UInt8) :
    readBlocks (fuel + 1) (block true data ++ rest) = some (data, rest) ∧
      readBlocks (fuel + 1) (block false data ++ rest)
        = (readBlocks fuel rest).map fun (more, check) => (data ++ more, check) := by
  have hlength := readWord data.length h
  have hlong : ¬ (data ++ rest).length < data.length := by
    rw [List.length_append]
    omega
  constructor
  · simp only [block, word, List.cons_append, List.nil_append, readBlocks, hlength, if_neg hlong,
      List.take_left, List.drop_left]
    rfl
  · simp only [block, word, List.cons_append, List.nil_append, readBlocks, hlength, if_neg hlong,
      List.take_left, List.drop_left]
    rfl

/-- All blocks are read, and what follows them is left. -/
theorem readBlocks_blocks {pieces : List (List UInt8)} (h : ∀ piece ∈ pieces, piece.length < 65536)
    {fuel : ℕ} (hfuel : pieces.length < fuel) (rest : List UInt8) :
    readBlocks fuel (blocks pieces ++ rest) = some (pieces.flatten, rest) := by
  induction pieces using blocks.induct generalizing fuel with
  | case1 =>
    obtain ⟨fuel, rfl⟩ := Nat.exists_eq_succ_of_ne_zero (Nat.ne_of_gt (Nat.zero_lt_of_lt hfuel))
    exact (readBlocks_block (by decide) fuel rest).1
  | case2 last =>
    obtain ⟨fuel, rfl⟩ := Nat.exists_eq_succ_of_ne_zero (Nat.ne_of_gt (Nat.zero_lt_of_lt hfuel))
    rw [List.flatten_cons, List.flatten_nil, List.append_nil]
    exact (readBlocks_block (h last List.mem_cons_self) fuel rest).1
  | case3 piece others hothers ih =>
    obtain ⟨fuel, rfl⟩ := Nat.exists_eq_succ_of_ne_zero (Nat.ne_of_gt (Nat.zero_lt_of_lt hfuel))
    rw [List.length_cons] at hfuel
    rw [blocks, List.append_assoc,
      (readBlocks_block (h piece List.mem_cons_self) fuel _).2,
      ih (fun p hp => h p (List.mem_cons_of_mem _ hp)) (Nat.lt_of_succ_lt_succ hfuel)]
    · rfl
    · exact hothers

theorem length_blocks (pieces : List (List UInt8)) :
    (blocks pieces).length = 5 * max 1 pieces.length + pieces.flatten.length := by
  induction pieces using blocks.induct with
  | case1 => rfl
  | case2 last =>
    simp only [blocks, block, word, List.length_cons, List.length_append, List.length_nil,
      List.flatten_cons, List.flatten_nil]
    omega
  | case3 piece others hothers ih =>
    rw [blocks, List.length_append, ih]
    · have hpos : 0 < others.length := List.length_pos_iff.mpr hothers
      simp only [block, word, List.length_cons, List.length_append, List.length_nil,
        List.flatten_cons]
      omega
    · exact hothers

theorem length_adler32 (data : List UInt8) : (adler32 data).length = 4 := rfl

theorem length_store (data : List UInt8) :
    (store data).length = 6 + 5 * max 1 ((data.length + 16382) / 16383) + data.length := by
  rw [store, List.length_append, List.length_append, length_blocks, length_slices,
    flatten_slices (by decide), length_adler32]
  change 2 + (5 * max 1 ((data.length + 16382) / 16383) + data.length + 4) = _
  omega

/-- **What was stored is read back.** -/
theorem inflate_store (data : List UInt8) : inflate (store data) = some data := by
  have hpieces : ∀ piece ∈ slices 16383 data, piece.length < 65536 := fun piece hpiece =>
    Nat.lt_of_le_of_lt (length_le_of_mem_slices hpiece) (by decide)
  have hfuel : (slices 16383 data).length
      < (blocks (slices 16383 data) ++ adler32 data).length := by
    rw [List.length_append, length_blocks]
    omega
  have hread := readBlocks_blocks hpieces hfuel (adler32 data)
  rw [flatten_slices (by decide)] at hread
  rw [store, List.cons_append, List.cons_append, List.nil_append, inflate, hread]
  exact if_pos rfl

end PaCopilot.Packing
