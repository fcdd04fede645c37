/-
Address literals, as Python's `ipaddress` reads them: the dotted form of an IPv4
address, the forms of an IPv6 address with one `::`, an embedded IPv4 address and a
scope, and the ranges that are not publicly reachable. The answers are those of Python 3.12 as
it was released: of an IPv6 address that maps an IPv4 one, later releases also take `is_global`
and `is_multicast` from the latter.

An address is a number, and a range its upper bits.
-/
import Mathlib.Tactic.Common
import Mathlib.Algebra.Group.Nat.Defs

set_option autoImplicit false

namespace PaCopilot.Ipaddress

/-- An address literal. -/
inductive Address
  | v4 (n : ℕ)
  | v6 (n : ℕ)
  deriving DecidableEq

/-! ## Reading -/

/-- The value of a digit in base 16. -/
def hexValue (c : Char) : Option ℕ :=
  let n := c.toNat
  if 48 ≤ n ∧ n ≤ 57 then some (n - 48)
  else if 97 ≤ n ∧ n ≤ 102 then some (n - 87)
  else if 65 ≤ n ∧ n ≤ 70 then some (n - 55)
  else none

/-- A number in a base up to 16, most significant digit first. -/
def digits (base : ℕ) (s : List Char) : Option ℕ :=
  s.foldl (fun acc c => do
    let n ← acc
    let d ← hexValue c
    if d < base then some (base * n + d) else none) (some 0)

/-- One octet: one to three decimal digits, no leading zero, at most 255. -/
def octet (s : List Char) : Option ℕ :=
  if s = [] ∨ 3 < s.length ∨ (s ≠ ['0'] ∧ s.head? = some '0') then none
  else (digits 10 s).filter (· ≤ 255)

/-- One hextet: one to four hexadecimal digits. -/
def hextet (s : List Char) : Option ℕ :=
  if s = [] ∨ 4 < s.length then none else digits 16 s

/-- Numbers as the digits of one, in a base. -/
def joined (base : ℕ) (parts : List ℕ) : ℕ := parts.foldl (fun n part => base * n + part) 0

/-- An IPv4 address. -/
def ipv4 (s : List Char) : Option ℕ :=
  let parts := s.splitOn '.'
  if parts.length ≠ 4 then none else (parts.mapM octet).map (joined 256)

/-- The parts between the colons, where an IPv4 address at the end stands for two. -/
def expanded (parts : List (List Char)) : Option (List (List Char)) :=
  match parts.getLast? with
  | some last =>
    if '.' ∈ last then
      (ipv4 last).map fun n =>
        parts.dropLast ++ [Nat.toDigits 16 (n / 65536), Nat.toDigits 16 (n % 65536)]
    else some parts
  | none => some parts

/-- Where `::` stands among the parts: an empty one that is neither the first nor the
last. -/
def skips (parts : List (List Char)) : List ℕ :=
  (List.range parts.length).filter fun i => 0 < i ∧ i + 1 < parts.length ∧ parts[i]? = some []

/-- The parts before and after `::`. An address that begins or ends with it has an
empty part there, which counts for nothing. -/
def sides (parts : List (List Char)) (skip : ℕ) : Option (List (List Char) × List (List Char)) :=
  let hi := parts.take skip
  let lo := parts.drop (skip + 1)
  if hi.head? = some [] ∧ hi.length ≠ 1 ∨ lo.getLast? = some [] ∧ lo.length ≠ 1 then none
  else some (if hi = [[]] then [] else hi, if lo = [[]] then [] else lo)

/-- The eight hextets of an IPv6 address without its scope. -/
def hextets (s : List Char) : Option (List ℕ) :=
  let split := s.splitOn ':'
  if split.length < 3 then none
  else do
    let parts ← expanded split
    if 9 < parts.length then none
    else
      match skips parts with
      | [] => if parts.length ≠ 8 then none else parts.mapM hextet
      | [skip] => do
        let (hi, lo) ← sides parts skip
        if 8 ≤ hi.length + lo.length then none
        else do
          let high ← hi.mapM hextet
          let low ← lo.mapM hextet
          return high ++ List.replicate (8 - (hi.length + lo.length)) 0 ++ low
      | _ => none

/-- An IPv6 address, with a scope or without. -/
def ipv6 (s : List Char) : Option ℕ :=
  match s.splitOn '%' with
  | [address] => (hextets address).map (joined 65536)
  | [address, scope] => if scope = [] then none else (hextets address).map (joined 65536)
  | _ => none

/-- `ipaddress.ip_address`; `none` where Python raises `ValueError`. -/
def ip_address (s : List Char) : Option Address :=
  if '/' ∈ s then none
  else ((ipv4 s).map Address.v4).or ((ipv6 s).map Address.v6)

/-! ## The ranges -/

/-- A range of addresses: the first `length` of `width` bits. -/
structure Network where
  width : ℕ
  base : ℕ
  length : ℕ
  deriving DecidableEq

/-- The address lies in the range. -/
def Network.contains (net : Network) (n : ℕ) : Bool :=
  n / 2 ^ (net.width - net.length) = net.base / 2 ^ (net.width - net.length)

/-- `a.b.c.d/length`. -/
def net4 (a b c d length : ℕ) : Network := ⟨32, joined 256 [a, b, c, d], length⟩

/-- The first hextets of a range. -/
def net6 (parts : List ℕ) (length : ℕ) : Network :=
  ⟨128, joined 65536 (parts ++ List.replicate (8 - parts.length) 0), length⟩

/-- The private ranges of IPv4. -/
def private4 : List Network :=
  [net4 0 0 0 0 8, net4 10 0 0 0 8, net4 127 0 0 0 8, net4 169 254 0 0 16, net4 172 16 0 0 12,
    net4 192 0 0 0 24, net4 192 0 0 170 31, net4 192 0 2 0 24, net4 192 168 0 0 16,
    net4 198 18 0 0 15, net4 198 51 100 0 24, net4 203 0 113 0 24, net4 240 0 0 0 4,
    net4 255 255 255 255 32]

/-- The public addresses inside them. -/
def privateExceptions4 : List Network := [net4 192 0 0 9 32, net4 192 0 0 10 32]

/-- The private ranges of IPv6. -/
def private6 : List Network :=
  [net6 [0, 0, 0, 0, 0, 0, 0, 1] 128, net6 [] 128, net6 [0, 0, 0, 0, 0, 0xffff] 96,
    net6 [0x64, 0xff9b, 1] 48, net6 [0x100] 64, net6 [0x2001] 23, net6 [0x2001, 0xdb8] 32,
    net6 [0x2002] 16, net6 [0xfc00] 7, net6 [0xfe80] 10]

/-- The public ones inside them. -/
def privateExceptions6 : List Network :=
  [net6 [0x2001, 1, 0, 0, 0, 0, 0, 1] 128, net6 [0x2001, 1, 0, 0, 0, 0, 0, 2] 128,
    net6 [0x2001, 3] 32, net6 [0x2001, 4, 0x112] 48, net6 [0x2001, 0x20] 28,
    net6 [0x2001, 0x30] 28]

def is_private4 (n : ℕ) : Bool :=
  private4.any (·.contains n) && !privateExceptions4.any (·.contains n)

/-- The IPv4 address that an IPv6 address maps. -/
def ipv4_mapped (n : ℕ) : Option ℕ :=
  if (net6 [0, 0, 0, 0, 0, 0xffff] 96).contains n then some (n % 2 ^ 32) else none

def is_private : Address → Bool
  | .v4 n => is_private4 n
  | .v6 n =>
    match ipv4_mapped n with
    | some mapped => is_private4 mapped
    | none => private6.any (·.contains n) && !privateExceptions6.any (·.contains n)

/-- `is_global`. The shared address space is neither private nor global, but where it is mapped it
counts as global. -/
def is_global : Address → Bool
  | .v4 n => !(net4 100 64 0 0 10).contains n && !is_private4 n
  | .v6 n => !is_private (.v6 n)

/-- `is_multicast`. A mapped address never is. -/
def is_multicast : Address → Bool
  | .v4 n => (net4 224 0 0 0 4).contains n
  | .v6 n => (net6 [0xff00] 8).contains n

/-- A host of either family, a mapped one, and texts that are none. -/
example : (ip_address "127.0.0.1".toList).map is_global = some false ∧
    (ip_address "9.20.30.40".toList).map is_global = some true ∧
    (ip_address "::ffff:10.0.0.1".toList).map is_global = some false ∧
    (ip_address "fe80::1%eth0".toList).map is_global = some false ∧
    (ip_address "2606:4700::6810:84e5".toList).map is_global = some true ∧
    ip_address "127.0.0.1:8010".toList = none ∧ ip_address "127.0.0.01".toList = none := by
  decide

end PaCopilot.Ipaddress
