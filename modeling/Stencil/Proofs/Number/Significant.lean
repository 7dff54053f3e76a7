import Mathlib.Data.Int.Log
import Stencil.Number.Layout
import Stencil.Proofs.Number.HalfEven

/-!
# Significant digits

A positive number written with `p + 1` significant digits is `n · 10 ^ (place - p)`, where `n` has
just so many digits and `place` is where the first of them stands.  This file says what it means
that these digits are the right ones, and shows that `Layout.significant` finds them.

* `Rounding.Quotient.decimalPlace_eq_log`: the first digit stands at the largest power of ten that
  is not above the number.  The guess from the lengths of numerator and denominator is at most one
  place too high.
* `Layout.IsRounded`: at this place, the number is rounded once to the nearest integer, ties to
  even.  Where this gives one digit more, which is then a power of ten, the place moves and the
  value stays as it is.
* `Layout.significant_isRounded`: the digits are rounded so.
* `Layout.IsRounded.le_of_lt`: no decimal with `p + 1` digits is nearer, wherever its first digit
  stands.  The places above that of the number have been seen to with the integers, and a decimal
  that begins at a lower place does not even reach the power of ten below the number.
-/

set_option autoImplicit false

namespace Stencil

/-! ## The place of the first digit -/

namespace Rounding.Quotient

variable {x y : Quotient}

theorem value_pos (hnum : 0 < x.num) (hden : 0 < x.den) : 0 < x.value :=
  div_pos (Nat.cast_pos.2 hnum) (Nat.cast_pos.2 hden)

theorem le_iff (hx : 0 < x.den) (hy : 0 < y.den) : le x y = true ↔ x.value ≤ y.value := by
  rw [le, decide_eq_true_iff, value, value,
    div_le_div_iff₀ (Nat.cast_pos.2 hx) (Nat.cast_pos.2 hy)]
  exact_mod_cast Iff.rfl

/-- A number of `k` digits is not below `10 ^ (k - 1)`, so the guess is at most one too high. -/
theorem guess_sub_one_le_log (hnum : 0 < x.num) (hden : 0 < x.den) :
    (Numeral.decimalLength x.num : ℤ) - Numeral.decimalLength x.den - 1 ≤ Int.log 10 x.value := by
  have hlen := Numeral.decimalLength_pos x.num
  have hnum' : 10 ^ (Numeral.decimalLength x.num - 1) ≤ x.num :=
    Numeral.pow_le_of_lt_decimalLength hnum (by omega)
  have hden' := Numeral.lt_pow_decimalLength x.den
  generalize Numeral.decimalLength x.num = k at *
  generalize Numeral.decimalLength x.den = l at *
  rw [← Int.zpow_le_iff_le_log (by decide) (value_pos hnum hden), value,
    le_div_iff₀ (Nat.cast_pos.2 hden), Nat.cast_ofNat]
  calc
    (10 : ℚ) ^ ((k : ℤ) - l - 1) * x.den
      ≤ 10 ^ ((k : ℤ) - l - 1) * 10 ^ l := by
        refine mul_le_mul_of_nonneg_left ?_ (zpow_nonneg (by norm_num) _)
        exact_mod_cast hden'.le
    _ = 10 ^ (k - 1) := by
        rw [← zpow_natCast, ← zpow_natCast, ← zpow_add₀ (by norm_num)]
        congr 1
        omega
    _ ≤ x.num := by exact_mod_cast hnum'

/-- A number of `k` digits is below `10 ^ k`, so the guess is not too low. -/
theorem log_lt_guess_add_one (hnum : 0 < x.num) (hden : 0 < x.den) :
    Int.log 10 x.value < (Numeral.decimalLength x.num : ℤ) - Numeral.decimalLength x.den + 1 := by
  have hlen := Numeral.decimalLength_pos x.den
  have hden' : 10 ^ (Numeral.decimalLength x.den - 1) ≤ x.den :=
    Numeral.pow_le_of_lt_decimalLength hden (by omega)
  have hnum' := Numeral.lt_pow_decimalLength x.num
  generalize Numeral.decimalLength x.num = k at *
  generalize Numeral.decimalLength x.den = l at *
  rw [← Int.lt_zpow_iff_log_lt (by decide) (value_pos hnum hden), value,
    div_lt_iff₀ (Nat.cast_pos.2 hden), Nat.cast_ofNat]
  calc
    (x.num : ℚ) < 10 ^ k := by exact_mod_cast hnum'
    _ = 10 ^ ((k : ℤ) - l + 1) * 10 ^ (l - 1) := by
        rw [← zpow_natCast, ← zpow_natCast, ← zpow_add₀ (by norm_num)]
        congr 1
        omega
    _ ≤ 10 ^ ((k : ℤ) - l + 1) * x.den := by
        refine mul_le_mul_of_nonneg_left ?_ (zpow_nonneg (by norm_num) _)
        exact_mod_cast hden'

/-- **The place of the first digit is that of the largest power of ten not above the number.** -/
theorem decimalPlace_eq_log (hnum : 0 < x.num) (hden : 0 < x.den) :
    x.decimalPlace = Int.log 10 x.value := by
  have hlow := guess_sub_one_le_log hnum hden
  have hhigh := log_lt_guess_add_one hnum hden
  -- the comparison decides between the two places that are left
  have hcompare (guess : ℤ) : le (scale 10 guess ⟨1, 1⟩) x = true ↔ guess ≤ Int.log 10 x.value := by
    have hvalue := value_scale (b := 10) (by decide) guess ⟨1, 1⟩
    rw [le_iff (scale_den_pos (by decide) Nat.one_pos guess) hden, hvalue,
      ← Int.zpow_le_iff_le_log (by decide) (value_pos hnum hden)]
    simp [value]
  rw [decimalPlace, leadingPlace]
  simp only [hcompare]
  split <;> omega

end Rounding.Quotient

/-! ## Rounding to significant digits -/

namespace Layout

open Rounding

/-- `n`, which has `p + 1` digits, is `x` rounded to so many, and `place` is where the first of them
stands: the place of the first digit of `x`, or the one above if `x` is rounded up to it. -/
structure IsRounded (p : ℕ) (x : ℚ) (n : ℕ) (place : ℤ) : Prop where
  low : 10 ^ p ≤ n
  high : n < 10 ^ (p + 1)
  nearest : ∃ N : ℕ, IsNearest (x * 10 ^ (p - Int.log 10 x)) N ∧
    (n : ℚ) * 10 ^ (place - p) = N * 10 ^ (Int.log 10 x - p)

variable {p n : ℕ} {x : ℚ} {place : ℤ}

/-- Scaled to `p + 1` digits before the point, a number lies between two powers of ten. -/
theorem scaled_bounds (hx : 0 < x) (p : ℕ) :
    (10 : ℚ) ^ p ≤ x * 10 ^ (p - Int.log 10 x) ∧
      x * 10 ^ (p - Int.log 10 x) < (10 : ℚ) ^ (p + 1) := by
  have hten : (10 : ℚ) ≠ 0 := by norm_num
  have hpow : (0 : ℚ) < 10 ^ ((p : ℤ) - Int.log 10 x) := zpow_pos (by norm_num) _
  have hlow := Int.zpow_log_le_self (b := 10) (by decide) hx
  have hhigh := Int.lt_zpow_succ_log_self (b := 10) (by decide) x
  rw [Nat.cast_ofNat] at hlow hhigh
  constructor
  · calc
      (10 : ℚ) ^ p = 10 ^ Int.log 10 x * 10 ^ ((p : ℤ) - Int.log 10 x) := by
        rw [← zpow_add₀ hten, add_sub_cancel, zpow_natCast]
      _ ≤ x * 10 ^ ((p : ℤ) - Int.log 10 x) := mul_le_mul_of_nonneg_right hlow hpow.le
  · calc
      x * 10 ^ ((p : ℤ) - Int.log 10 x)
        < 10 ^ (Int.log 10 x + 1) * 10 ^ ((p : ℤ) - Int.log 10 x) :=
          mul_lt_mul_of_pos_right hhigh hpow
      _ = 10 ^ (p + 1) := by
        rw [← zpow_add₀ hten, ← zpow_natCast]
        congr 1
        push_cast
        ring

/-- **The digits of a positive quotient are correctly rounded.** -/
theorem significant_isRounded {x : Quotient} (hnum : 0 < x.num) (hden : 0 < x.den) (p : ℕ) :
    IsRounded p x.value (significant p x).1 (significant p x).2 := by
  have hten : (10 : ℚ) ≠ 0 := by norm_num
  have hnearest := Quotient.isNearest_round_scale hden (p - Int.log 10 x.value)
  obtain ⟨hlow, hhigh⟩ := scaled_bounds (Quotient.value_pos hnum hden) p
  have hN : 10 ^ p ≤ (x.scale 10 (p - Int.log 10 x.value)).round :=
    hnearest.le (by exact_mod_cast hlow)
  have hN' : (x.scale 10 (p - Int.log 10 x.value)).round ≤ 10 ^ (p + 1) :=
    hnearest.ge (by exact_mod_cast hhigh.le)
  rw [significant, if_neg hnum.ne', Quotient.decimalPlace_eq_log hnum hden]
  simp only [Nat.pow_eq]
  split
  · rename_i hcarry
    refine ⟨le_rfl, Nat.pow_lt_pow_right (by decide) (Nat.lt_succ_self p), _, hnearest, ?_⟩
    rw [hcarry, Nat.cast_pow, Nat.cast_pow, Nat.cast_ofNat, ← zpow_natCast, ← zpow_natCast,
      ← zpow_add₀ hten, ← zpow_add₀ hten]
    congr 1
    push_cast
    ring
  · rename_i hcarry
    exact ⟨hN, lt_of_le_of_ne hN' hcarry, _, hnearest, rfl⟩

/-- Halfway between 99 and 100, the even one has a digit too many, and the place moves. -/
example : significant 1 ⟨995, 10⟩ = (10, 2) := by decide +kernel

/-- No multiple of the last digit's unit is nearer. -/
theorem IsRounded.le_of_multiple (h : IsRounded p x n place) (i : ℤ) :
    |x - n * 10 ^ (place - p)| ≤ |x - i * 10 ^ (Int.log 10 x - p)| := by
  obtain ⟨N, hnearest, hvalue⟩ := h.nearest
  have hpos : (0 : ℚ) < 10 ^ (Int.log 10 x - p) := zpow_pos (by norm_num) _
  have hscale : x = x * 10 ^ (p - Int.log 10 x) * 10 ^ (Int.log 10 x - p) := by
    rw [mul_assoc, ← zpow_add₀ (by norm_num), sub_add_sub_cancel, sub_self, zpow_zero, mul_one]
  have hdist (q : ℚ) : |x - q * 10 ^ (Int.log 10 x - p)| =
      |x * 10 ^ (p - Int.log 10 x) - q| * 10 ^ (Int.log 10 x - p) := by
    rw [← abs_of_pos hpos, ← abs_mul, abs_of_pos hpos, sub_mul, ← hscale]
  rw [hvalue, hdist, hdist]
  exact mul_le_mul_of_nonneg_right (hnearest.1 i) hpos.le

/-- **No other decimal with so many digits is nearer.** -/
theorem IsRounded.le_of_lt (h : IsRounded p x n place) (hx : 0 < x) {k : ℕ}
    (hk : k < 10 ^ (p + 1)) (j : ℤ) :
    |x - n * 10 ^ (place - p)| ≤ |x - k * 10 ^ j| := by
  have hten : (10 : ℚ) ≠ 0 := by norm_num
  rcases le_or_gt (Int.log 10 x - p) j with hj | hj
  · -- a decimal that ends at the last digit's place or above it is a multiple of its unit
    have hi : (k : ℚ) * 10 ^ j =
        (k * 10 ^ (j - (Int.log 10 x - p)).toNat : ℤ) * 10 ^ (Int.log 10 x - p) := by
      push_cast
      rw [mul_assoc, ← zpow_natCast, ← zpow_add₀ hten, Int.toNat_of_nonneg (by omega),
        sub_add_cancel]
    rw [hi]
    exact h.le_of_multiple _
  · -- the decimal stays below the first digit of the number, which is a multiple of the unit
    have hunit : (10 : ℚ) ^ Int.log 10 x = (10 ^ p : ℤ) * 10 ^ (Int.log 10 x - p) := by
      rw [Int.cast_pow, Int.cast_ofNat, ← zpow_natCast, ← zpow_add₀ hten, add_sub_cancel]
    have hbelow : (k : ℚ) * 10 ^ j ≤ 10 ^ Int.log 10 x := by
      calc
        (k : ℚ) * 10 ^ j ≤ 10 ^ (p + 1) * 10 ^ j := by
          refine mul_le_mul_of_nonneg_right ?_ (zpow_nonneg (by norm_num) _)
          exact_mod_cast hk.le
        _ = 10 ^ ((p : ℤ) + 1 + j) := by
          rw [← zpow_natCast, ← zpow_add₀ hten]
          push_cast
          rfl
        _ ≤ 10 ^ Int.log 10 x := zpow_le_zpow_right₀ (by norm_num) (by omega)
    have hle : (10 : ℚ) ^ Int.log 10 x ≤ x := Int.zpow_log_le_self (b := 10) (by decide) hx
    calc
      |x - n * 10 ^ (place - p)| ≤ |x - 10 ^ Int.log 10 x| := hunit ▸ h.le_of_multiple (10 ^ p)
      _ = x - 10 ^ Int.log 10 x := abs_of_nonneg (sub_nonneg.2 hle)
      _ ≤ x - k * 10 ^ j := sub_le_sub_left hbelow x
      _ ≤ |x - k * 10 ^ j| := le_abs_self _

end Layout
end Stencil
