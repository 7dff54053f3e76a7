import Mathlib.Data.Rat.Floor
import Stencil.Number.Scientific
import Stencil.Proofs.Number.Shortest

/-!
# Cutting off a fraction

A number that is not an integer is cut off towards zero (`towardZero`).  The integer parts that the
library works out are these: of a double by shifting its significand
(`Binary64.floor_magnitude`), of a decimal by moving its point, which is not done at all where every
digit stands behind the point (`Scientific.floor_eq`), and of a fraction by dividing
(`tdiv_eq_towardZero`).

The place of the first digit of a decimal says how large it is
(`Scientific.le_place_iff`), again without computing the power.
-/

set_option autoImplicit false

namespace Stencil

/-! ## Towards zero

Rounding towards zero is rounding down for what is not negative, and the same for the opposite. -/

/-- The integer next to a number on the side of zero. -/
def towardZero (x : ℚ) : ℤ := if x < 0 then ⌈x⌉ else ⌊x⌋

theorem towardZero_of_nonneg {x : ℚ} (h : 0 ≤ x) : towardZero x = ⌊x⌋ := if_neg (not_lt.2 h)

@[simp] theorem towardZero_intCast (n : ℤ) : towardZero n = n := by
  rw [towardZero, Int.ceil_intCast, Int.floor_intCast, ite_self]

@[simp] theorem towardZero_neg (x : ℚ) : towardZero (-x) = -towardZero x := by
  rcases lt_trichotomy x 0 with h | rfl | h
  · rw [towardZero_of_nonneg (neg_nonneg.2 h.le), towardZero, if_pos h, Int.floor_neg]
  · rfl
  · rw [towardZero_of_nonneg h.le, towardZero, if_pos (neg_neg_iff_pos.2 h), Int.ceil_neg]

/-- `± x`. -/
def withSign (negative : Bool) (x : ℚ) : ℚ := if negative then -x else x

/-- A sign is kept apart from what is cut off. -/
theorem towardZero_withSign (negative : Bool) {x : ℚ} (hx : 0 ≤ x) {n : ℕ} (hn : ⌊x⌋ = n) :
    towardZero (withSign negative x) = Numeral.signed negative n := by
  cases negative with
  | false => exact (towardZero_of_nonneg hx).trans hn
  | true =>
    show towardZero (-x) = -(n : ℤ)
    rw [towardZero_neg, towardZero_of_nonneg hx, hn]

theorem abs_withSign (negative : Bool) {x : ℚ} (hx : 0 ≤ x) : |withSign negative x| = x := by
  cases negative with
  | false => exact abs_of_nonneg hx
  | true => exact (abs_neg x).trans (abs_of_nonneg hx)

/-- Dividing the parts of a fraction cuts off towards zero. -/
theorem tdiv_eq_towardZero (x : ℚ) : x.num.tdiv x.den = towardZero x := by
  have hnonneg (y : ℚ) (hy : 0 ≤ y) : y.num.tdiv y.den = towardZero y := by
    rw [towardZero_of_nonneg hy, Int.tdiv_eq_ediv_of_nonneg (Rat.num_nonneg.2 hy)]
    exact (Rat.floor_def y).symm
  rcases le_total 0 x with h | h
  · exact hnonneg x h
  · have hneg := hnonneg (-x) (neg_nonneg.2 h)
    rw [Rat.num_neg_eq_neg_num, Rat.den_neg_eq_den, Int.neg_tdiv, towardZero_neg] at hneg
    exact neg_injective hneg

/-! ## Shifted significands

A significand is shifted by an exponent of either sign, so as a quotient it has a power of the base
above or below.  Its integer part is what dividing gives. -/

theorem shifted_nonneg {b : ℚ} (hb : 0 ≤ b) (m : ℕ) (e : ℤ) : 0 ≤ m * b ^ e :=
  mul_nonneg (Nat.cast_nonneg m) (zpow_nonneg hb e)

/-- A power with an exponent of either sign, as a product and as a divisor. -/
theorem mul_zpow_eq_div {b : ℕ} (hb : 0 < b) (m : ℕ) (e : ℤ) :
    (m : ℚ) * (b : ℚ) ^ e = ((m * b ^ e.toNat : ℕ) : ℚ) / ((b ^ (-e).toNat : ℕ) : ℚ) := by
  have hb' : (b : ℚ) ≠ 0 := Nat.cast_ne_zero.2 hb.ne'
  rcases le_total 0 e with h | h
  · have he : (-e).toNat = 0 := Int.toNat_of_nonpos (neg_nonpos.2 h)
    have hpow : (b : ℚ) ^ e = (b : ℚ) ^ e.toNat := by
      rw [← zpow_natCast, Int.toNat_of_nonneg h]
    rw [he, pow_zero, Nat.cast_one, div_one, hpow, Nat.cast_mul, Nat.cast_pow]
  · have he : e.toNat = 0 := Int.toNat_of_nonpos h
    have hpow : (b : ℚ) ^ e = ((b : ℚ) ^ (-e).toNat)⁻¹ := by
      rw [← zpow_natCast, Int.toNat_of_nonneg (neg_nonneg.2 h), zpow_neg, inv_inv]
    rw [he, pow_zero, mul_one, hpow, Nat.cast_pow, div_eq_mul_inv]

theorem floor_natCast_div (a d : ℕ) : ⌊(a : ℚ) / (d : ℚ)⌋ = ((a / d : ℕ) : ℤ) := by
  have h := Rat.floor_intCast_div_natCast a d
  rwa [Int.cast_natCast, ← Int.natCast_ediv] at h

namespace Binary64

theorem magnitude_den_pos (m : ℕ) (e : ℤ) : 0 < (magnitude m e).den :=
  Rounding.Quotient.scale_den_pos (by decide) Nat.one_pos e

/-- The value of a double is its magnitude. -/
theorem mul_zpow_eq_magnitude (m : ℕ) (e : ℤ) :
    (m : ℚ) * 2 ^ e = (magnitude m e).num / (magnitude m e).den := by
  have h := mul_zpow_eq_div (b := 2) (by decide) m e
  rw [Nat.cast_ofNat] at h
  rw [h, magnitude, Rounding.Quotient.scale, Nat.one_mul]
  rfl

theorem floor_magnitude (m : ℕ) (e : ℤ) :
    ⌊(m : ℚ) * 2 ^ e⌋ = ((magnitude m e).floor : ℤ) := by
  rw [mul_zpow_eq_magnitude, floor_natCast_div, Rounding.Quotient.floor]

end Binary64

namespace Scientific

open Numeral

theorem floor_eq (c : ℕ) (e : ℤ) : ⌊(c : ℚ) * 10 ^ e⌋ = (floor c e : ℤ) := by
  have h := mul_zpow_eq_div (b := 10) (by decide) c e
  rw [Nat.cast_ofNat] at h
  rw [h, floor_natCast_div, floor]
  split
  · have he : (-e).toNat = 0 := Int.toNat_of_nonpos (by omega)
    rw [he, pow_zero, Nat.div_one]
    rfl
  · have he : e.toNat = 0 := Int.toNat_of_nonpos (by omega)
    rw [he, pow_zero, mul_one]
    split
    · rename_i hlen
      have hlt : c < 10 ^ (-e).toNat :=
        lt_of_lt_of_le (lt_pow_decimalLength c) (Nat.pow_le_pow_right (by decide) hlen)
      rw [Nat.div_eq_of_lt hlt]
    · rfl

/-- The place of the first digit of a decimal that is not zero, as a bound of its value. -/
theorem le_place_iff {c : ℕ} (hc : 0 < c) (e : ℤ) (k : ℕ) :
    (k : ℤ) ≤ place c e ↔ (10 : ℚ) ^ k ≤ c * 10 ^ e := by
  have hlen := decimalLength_pos c
  have hten : (1 : ℚ) ≤ 10 := by norm_num
  have hpos : (0 : ℚ) < 10 ^ e := zpow_pos (by norm_num) e
  have hsplit (i : ℕ) : (10 : ℚ) ^ i * 10 ^ e = 10 ^ ((i : ℤ) + e) := by
    rw [zpow_add₀ (by norm_num), zpow_natCast]
  have hk : (10 : ℚ) ^ k = 10 ^ (k : ℤ) := (zpow_natCast 10 k).symm
  rw [place, hk]
  constructor
  · intro h
    have hlow : 10 ^ (decimalLength c - 1) ≤ c := pow_le_of_lt_decimalLength hc (by omega)
    calc
      (10 : ℚ) ^ (k : ℤ) ≤ 10 ^ (((decimalLength c - 1 : ℕ) : ℤ) + e) :=
        zpow_le_zpow_right₀ hten (by omega)
      _ = 10 ^ (decimalLength c - 1) * 10 ^ e := (hsplit _).symm
      _ ≤ c * 10 ^ e := by
        refine mul_le_mul_of_nonneg_right ?_ hpos.le
        exact_mod_cast hlow
  · intro h
    by_contra hlt
    have hhigh : c < 10 ^ decimalLength c := lt_pow_decimalLength c
    refine absurd h (not_le.2 ?_)
    calc
      (c : ℚ) * 10 ^ e < 10 ^ decimalLength c * 10 ^ e := by
        refine mul_lt_mul_of_pos_right ?_ hpos
        exact_mod_cast hhigh
      _ = 10 ^ ((decimalLength c : ℤ) + e) := hsplit _
      _ ≤ 10 ^ (k : ℤ) := zpow_le_zpow_right₀ hten (by omega)

end Scientific
end Stencil
