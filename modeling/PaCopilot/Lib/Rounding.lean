/-
Rounding to so many binary digits.

A number of a binary format has so many significant digits; its exponent has no bound here, so
that no result is too large for the format and none too small. A result that is no such number
becomes the nearest one, the even one of two ([`Rounding.nearest`]). Whoever compares rounded
results needs only that the order and zero are kept, which is all that a [`Rounding`] is. And the
difference of two numbers that are no smaller than a third, if it is itself smaller than that
one, is not rounded at all ([`Fits.sub`]).
-/
import Mathlib.Data.Int.Log
import Mathlib.Data.Rat.Floor
import Mathlib.Tactic.Linarith
import Mathlib.Tactic.Positivity

set_option autoImplicit false

namespace PaCopilot

/-- How the results of an arithmetic are rounded. -/
structure Rounding where
  round : ℚ → ℚ
  monotone : Monotone round
  zero : round 0 = 0

namespace Rounding

/-- No rounding at all. -/
def exact : Rounding := ⟨id, monotone_id, rfl⟩

theorem nonneg (rounding : Rounding) {x : ℚ} (h : 0 ≤ x) : 0 ≤ rounding.round x := by
  have hle := rounding.monotone h
  rwa [rounding.zero] at hle

/-! ## To the nearest integer -/

/-- The integer nearest to `x`, the even one of two. -/
def halfEven (x : ℚ) : ℤ :=
  let low := ⌊x⌋
  let rest := x - low
  if rest < 1 / 2 then low
  else if 1 / 2 < rest then low + 1
  else if low % 2 = 0 then low else low + 1

theorem floor_le_halfEven (x : ℚ) : ⌊x⌋ ≤ halfEven x := by
  unfold halfEven
  dsimp only
  split_ifs <;> omega

theorem halfEven_le_floor (x : ℚ) : halfEven x ≤ ⌊x⌋ + 1 := by
  unfold halfEven
  dsimp only
  split_ifs <;> omega

@[simp] theorem halfEven_intCast (n : ℤ) : halfEven n = n := by
  unfold halfEven
  dsimp only
  rw [Int.floor_intCast, sub_self, if_pos (by norm_num)]

theorem halfEven_mono {x y : ℚ} (hle : x ≤ y) : halfEven x ≤ halfEven y := by
  rcases (Int.floor_mono hle).lt_or_eq with hlt | hfloor
  · -- an integer lies between them
    have hx := halfEven_le_floor x
    have hy := floor_le_halfEven y
    omega
  · have hrest : x - (⌊x⌋ : ℤ) ≤ y - (⌊y⌋ : ℤ) := by
      rw [hfloor]
      exact sub_le_sub_right hle _
    unfold halfEven
    dsimp only
    rw [← hfloor] at hrest ⊢
    split_ifs
    all_goals first | omega | linarith

/-- The even one is the even one on the other side of zero, too. -/
theorem halfEven_neg (x : ℚ) : halfEven (-x) = -halfEven x := by
  by_cases hint : (⌊x⌋ : ℚ) = x
  · rw [← hint, ← Int.cast_neg, halfEven_intCast, halfEven_intCast]
  · have hlow : (⌊x⌋ : ℚ) < x := lt_of_le_of_ne (Int.floor_le x) hint
    have hfloor : ⌊-x⌋ = -⌊x⌋ - 1 := by
      have hhigh := Int.lt_floor_add_one x
      rw [Int.floor_eq_iff]
      push_cast
      constructor <;> linarith
    have hrest : -x - ((-⌊x⌋ - 1 : ℤ) : ℚ) = 1 - (x - ⌊x⌋) := by
      push_cast
      ring
    unfold halfEven
    dsimp only
    rw [hfloor, hrest]
    split_ifs
    all_goals first | omega | linarith

/-! ## To so many digits -/

/-- The exponent of the last of so many digits of `x`. -/
def unit (digits : ℕ) (x : ℚ) : ℤ := Int.log 2 |x| - digits + 1

/-- The number of so many binary digits that is nearest to `x`, the even one of two. -/
def toDigits (digits : ℕ) (x : ℚ) : ℚ :=
  halfEven (x / (2 : ℚ) ^ unit digits x) * (2 : ℚ) ^ unit digits x

/-- A number of so many binary digits. -/
def Fits (digits : ℕ) (x : ℚ) : Prop :=
  ∃ m e : ℤ, |m| < 2 ^ digits ∧ x = m * (2 : ℚ) ^ e

section Digits

variable {digits : ℕ} {x y : ℚ} {e : ℤ}

theorem two_zpow_pos (e : ℤ) : (0 : ℚ) < 2 ^ e := zpow_pos (by norm_num) e

theorem two_zpow_add (n : ℕ) (e : ℤ) : (2 : ℚ) ^ (n + e) = 2 ^ n * 2 ^ e := by
  rw [zpow_add₀ (by norm_num), zpow_natCast]

theorem two_zpow_succ_log (digits : ℕ) (x : ℚ) :
    (2 : ℚ) ^ (Int.log 2 |x| + 1) = 2 ^ digits * 2 ^ unit digits x := by
  rw [← two_zpow_add, unit]
  congr 1
  ring

theorem abs_lt_digits (digits : ℕ) (x : ℚ) : |x| < 2 ^ digits * (2 : ℚ) ^ unit digits x := by
  rw [← two_zpow_succ_log]
  exact Int.lt_zpow_succ_log_self (by norm_num) |x|

theorem toDigits_zero : toDigits digits 0 = 0 := by
  rw [toDigits, zero_div, ← Int.cast_zero, halfEven_intCast, Int.cast_zero, zero_mul]

theorem toDigits_neg : toDigits digits (-x) = -toDigits digits x := by
  rw [toDigits, toDigits, unit, unit, abs_neg, neg_div, halfEven_neg, Int.cast_neg, neg_mul]

theorem toDigits_nonneg (hx : 0 ≤ x) : 0 ≤ toDigits digits x := by
  have hscaled : ((0 : ℤ) : ℚ) ≤ x / 2 ^ unit digits x := by
    rw [Int.cast_zero]
    exact div_nonneg hx (two_zpow_pos _).le
  have hround := halfEven_mono hscaled
  rw [halfEven_intCast] at hround
  exact mul_nonneg (Int.cast_nonneg hround) (two_zpow_pos _).le

/-- The next power of two is not passed. -/
theorem toDigits_le (hx : 0 ≤ x) : toDigits digits x ≤ 2 ^ (Int.log 2 |x| + 1) := by
  have hscaled : x / 2 ^ unit digits x ≤ ((2 ^ digits : ℤ) : ℚ) := by
    have hlt := abs_lt_digits digits x
    rw [abs_of_nonneg hx] at hlt
    rw [div_le_iff₀ (two_zpow_pos _)]
    push_cast
    exact hlt.le
  have hround := halfEven_mono hscaled
  rw [halfEven_intCast] at hround
  have hcast : (halfEven (x / 2 ^ unit digits x) : ℚ) ≤ 2 ^ digits := by exact_mod_cast hround
  rw [two_zpow_succ_log digits]
  exact mul_le_mul_of_nonneg_right hcast (two_zpow_pos _).le

/-- Nor is the one below. -/
theorem le_toDigits (hdigits : 0 < digits) (hx : 0 < x) : 2 ^ Int.log 2 |x| ≤ toDigits digits x := by
  obtain ⟨n, rfl⟩ := Nat.exists_eq_add_of_lt hdigits
  have hpower : (2 : ℚ) ^ Int.log 2 |x| = 2 ^ n * 2 ^ unit (0 + n + 1) x := by
    rw [← two_zpow_add, unit]
    congr 1
    push_cast
    ring
  have hscaled : ((2 ^ n : ℤ) : ℚ) ≤ x / 2 ^ unit (0 + n + 1) x := by
    have hle : (2 : ℚ) ^ Int.log 2 |x| ≤ |x| :=
      Int.zpow_log_le_self (by norm_num) (abs_pos.mpr hx.ne')
    rw [abs_of_pos hx] at hle hpower
    rw [le_div_iff₀ (two_zpow_pos _)]
    push_cast
    rw [← hpower]
    exact hle
  have hround := halfEven_mono hscaled
  rw [halfEven_intCast] at hround
  have hcast : (2 : ℚ) ^ n ≤ halfEven (x / 2 ^ unit (0 + n + 1) x) := by exact_mod_cast hround
  rw [hpower]
  exact mul_le_mul_of_nonneg_right hcast (two_zpow_pos _).le

theorem toDigits_mono_of_pos (hdigits : 0 < digits) (hx : 0 < x) (hle : x ≤ y) :
    toDigits digits x ≤ toDigits digits y := by
  have habs : |x| ≤ |y| := by rwa [abs_of_pos hx, abs_of_pos (hx.trans_le hle)]
  have hlog := Int.log_mono_right (b := 2) (abs_pos.mpr hx.ne') habs
  rcases hlog.lt_or_eq with hlt | heq
  · -- a power of two lies between them
    calc toDigits digits x ≤ 2 ^ (Int.log 2 |x| + 1) := toDigits_le hx.le
      _ ≤ 2 ^ Int.log 2 |y| := zpow_le_zpow_right₀ (by norm_num) hlt
      _ ≤ toDigits digits y := le_toDigits hdigits (hx.trans_le hle)
  · have hunit : unit digits x = unit digits y := by rw [unit, unit, heq]
    rw [toDigits, toDigits, hunit]
    have hpos := (two_zpow_pos (unit digits y)).le
    have hround := halfEven_mono (div_le_div_of_nonneg_right hle hpos)
    exact mul_le_mul_of_nonneg_right (Int.cast_le.mpr hround) hpos

theorem toDigits_monotone (hdigits : 0 < digits) : Monotone (toDigits digits) := by
  intro x y hle
  rcases lt_trichotomy 0 x with hx | rfl | hx
  · exact toDigits_mono_of_pos hdigits hx hle
  · rw [toDigits_zero]
    exact toDigits_nonneg hle
  · rcases lt_or_ge y 0 with hy | hy
    · have hneg := toDigits_mono_of_pos hdigits (neg_pos.mpr hy) (neg_le_neg hle)
      rw [toDigits_neg, toDigits_neg] at hneg
      exact neg_le_neg_iff.mp hneg
    · have hneg : 0 ≤ toDigits digits (-x) := toDigits_nonneg (neg_nonneg.mpr hx.le)
      rw [toDigits_neg, neg_nonneg] at hneg
      exact hneg.trans (toDigits_nonneg hy)

/-- A number of the format is a multiple of the unit of every number that is no larger. -/
theorem Fits.multiple (hx : Fits digits x) (he : e ≤ unit digits x) :
    ∃ k : ℤ, x = k * (2 : ℚ) ^ e := by
  obtain ⟨m, f, hm, rfl⟩ := hx
  by_cases hzero : m = 0
  · exact ⟨0, by rw [hzero, Int.cast_zero, zero_mul, zero_mul]⟩
  -- the exponent that spells the number is no smaller than its unit
  have hlt : |(m : ℚ) * 2 ^ f| < 2 ^ ((digits : ℤ) + f) := by
    rw [abs_mul, abs_of_pos (two_zpow_pos f), two_zpow_add]
    have hcast : |(m : ℚ)| < 2 ^ digits := by exact_mod_cast hm
    exact mul_lt_mul_of_pos_right hcast (two_zpow_pos f)
  have hne : (m : ℚ) * 2 ^ f ≠ 0 := mul_ne_zero (Int.cast_ne_zero.mpr hzero) (two_zpow_pos f).ne'
  have hlog := (Int.lt_zpow_iff_log_lt (b := 2) (by norm_num) (abs_pos.mpr hne)).mp
    (by exact_mod_cast hlt)
  have hef : e ≤ f := by
    rw [unit] at he
    omega
  obtain ⟨n, rfl⟩ := Int.le.dest hef
  refine ⟨m * 2 ^ n, ?_⟩
  push_cast
  rw [add_comm, two_zpow_add, mul_assoc]

/-- It is not rounded. -/
theorem toDigits_of_fits (hx : Fits digits x) : toDigits digits x = x := by
  obtain ⟨k, hk⟩ := hx.multiple (le_refl (unit digits x))
  have hscaled : x / 2 ^ unit digits x = (k : ℤ) := by
    rw [div_eq_iff (two_zpow_pos _).ne']
    exact hk
  rw [toDigits, hscaled, halfEven_intCast]
  exact hk.symm

theorem fits_natCast {n : ℕ} (h : n < 2 ^ digits) : Fits digits n := by
  refine ⟨n, 0, ?_, ?_⟩
  · rw [Nat.abs_cast]
    exact_mod_cast h
  · rw [zpow_zero, mul_one]
    rfl

/-- **The difference of two numbers of the format** that are no smaller than a third, and whose
difference is smaller than it, is of the format; and so is what the third has over it. -/
theorem Fits.sub {z : ℚ} (hz : Fits digits z) (hx : Fits digits x) (hy : Fits digits y)
    (hzx : z ≤ x) (hxy : x ≤ y) (hyoung : y - x < z) :
    Fits digits (y - x) ∧ Fits digits (z - (y - x)) := by
  have hpos : 0 < z := lt_of_le_of_lt (sub_nonneg.mpr hxy) hyoung
  have hunit : ∀ w, z ≤ w → unit digits z ≤ unit digits w := by
    intro w hzw
    have habs : |z| ≤ |w| := by rwa [abs_of_pos hpos, abs_of_pos (hpos.trans_le hzw)]
    have hlog := Int.log_mono_right (b := 2) (abs_pos.mpr hpos.ne') habs
    rw [unit, unit]
    omega
  -- all three are multiples of the third's unit, of which it has less than so many
  obtain ⟨k, hk⟩ := hz.multiple le_rfl
  obtain ⟨i, hi⟩ := hx.multiple (hunit x hzx)
  obtain ⟨j, hj⟩ := hy.multiple (hunit y (hzx.trans hxy))
  have hless : ∀ n : ℤ, 0 ≤ n → (n : ℚ) * 2 ^ unit digits z ≤ z → |n| < 2 ^ digits := by
    intro n hn hle
    have hlt := lt_of_le_of_lt (hle.trans (le_abs_self z)) (abs_lt_digits digits z)
    have hcast := lt_of_mul_lt_mul_right hlt (two_zpow_pos _).le
    rw [abs_of_nonneg hn]
    exact_mod_cast hcast
  have hage : y - x = ((j - i : ℤ) : ℚ) * 2 ^ unit digits z := by
    rw [hi, hj]
    push_cast
    ring
  have hrest : z - (y - x) = ((k - (j - i) : ℤ) : ℚ) * 2 ^ unit digits z := by
    conv_lhs => rw [hk, hage]
    push_cast
    ring
  have hsign : ∀ n : ℤ, 0 ≤ (n : ℚ) * 2 ^ unit digits z → 0 ≤ n := by
    intro n hn
    exact_mod_cast nonneg_of_mul_nonneg_left hn (two_zpow_pos _)
  refine ⟨⟨j - i, unit digits z, hless _ (hsign _ ?_) ?_, hage⟩,
    ⟨k - (j - i), unit digits z, hless _ (hsign _ ?_) ?_, hrest⟩⟩
  · rw [← hage]
    exact sub_nonneg.mpr hxy
  · rw [← hage]
    exact hyoung.le
  · rw [← hrest]
    linarith
  · rw [← hrest]
    linarith

end Digits

/-- To the nearest number of so many binary digits. -/
def nearest (digits : ℕ) (h : 0 < digits) : Rounding :=
  ⟨toDigits digits, toDigits_monotone h, toDigits_zero⟩

end Rounding

end PaCopilot
