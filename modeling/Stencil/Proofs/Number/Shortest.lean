import Stencil.Number.Shortest
import Stencil.Proofs.Numeral.Decimal

/-!
# The shortest decimal is not zero

A positive double is displayed with digits that do not begin with a zero, and for this the number
that `Shortest.shortest` finds must not be zero (`Shortest.shortest_pos`).  There are two reasons.
A point of a grid is taken only if it lies in the interval of the double, and zero does not.  Where
no grid has such a point, the last grid is so fine that the double is far above its first point,
whatever the guess of the first digit's place was.
-/

set_option autoImplicit false

namespace Stencil

/-! ## Lengths of numerals

The number of digits of a number says between which powers of ten it lies. -/

namespace Numeral

/-- Digits below the base write a number below the power of the base with their number as exponent.
-/
theorem horner_lt {b : Nat} {ds : List Nat} (h : ∀ d ∈ ds, d < b) :
    horner b ds < b ^ ds.length := by
  induction ds with
  | nil => exact Nat.one_pos
  | cons d ds ih =>
    have hd : d + 1 ≤ b := h d List.mem_cons_self
    have ih := ih fun e he => h e (List.mem_cons_of_mem d he)
    rw [horner_cons, List.length_cons]
    calc
      d * b ^ ds.length + horner b ds < d * b ^ ds.length + b ^ ds.length := by omega
      _ = (d + 1) * b ^ ds.length := by rw [Nat.add_mul, Nat.one_mul]
      _ ≤ b * b ^ ds.length := Nat.mul_le_mul_right _ hd
      _ = b ^ (ds.length + 1) := by rw [Nat.pow_succ, Nat.mul_comm]

/-- A number is below the power of ten with its number of digits as exponent. -/
theorem lt_pow_decimalLength (n : Nat) : n < 10 ^ decimalLength n := by
  have h := horner_lt (b := 10) fun d (hd : d ∈ digits 10 n) => lt_ten_of_mem_digits hd
  rwa [horner_digits] at h

/-- A number with more than `k` digits is not below the power of ten with exponent `k`. -/
theorem pow_le_of_lt_decimalLength {n k : Nat} (hn : 0 < n) (h : k < decimalLength n) :
    10 ^ k ≤ n := by
  rcases Nat.eq_zero_or_pos k with rfl | hk
  · exact hn
  · exact Nat.le_of_not_lt fun hlt => Nat.not_lt.2 (decimalLength_le hk hlt) h

theorem decimalLength_pos (n : Nat) : 0 < decimalLength n :=
  List.length_pos_iff.2 (digits_ne_nil 10 n)

end Numeral

/-! ## Rounding

Rounding does not go below the integer part, so a quotient from one on is not rounded to zero. -/

namespace Rounding

open Numeral

/-- What is at least one is not rounded to zero. -/
theorem nearest_pos {num den : Nat} (hden : 0 < den) (h : den ≤ num) : 0 < nearest num den := by
  have hq : 0 < num / den := Nat.div_pos h hden
  rw [nearest]
  repeat' split
  all_goals omega

/-- A quotient that is an integer is not rounded. -/
theorem nearest_mul_right {n den : Nat} (h : 0 < den) : nearest (n * den) den = n := by
  rw [nearest, Nat.mul_div_cancel n h, Nat.mul_mod_left]
  exact if_pos h

theorem div_le_nearest (num den : Nat) : num / den ≤ nearest num den := by
  rw [nearest]
  repeat' split
  all_goals omega

namespace Quotient

theorem scale_num_pos {b : Nat} (hb : 0 < b) {x : Quotient} (h : 0 < x.num) (e : Int) :
    0 < (scale b e x).num := Nat.mul_pos h (Nat.pow_pos hb)

theorem scale_den_pos {b : Nat} (hb : 0 < b) {x : Quotient} (h : 0 < x.den) (e : Int) :
    0 < (scale b e x).den := Nat.mul_pos h (Nat.pow_pos hb)

/-- The place of the first digit is at most what the lengths of numerator and denominator say. -/
theorem decimalPlace_le (x : Quotient) :
    x.decimalPlace ≤ (decimalLength x.num : Int) - decimalLength x.den := by
  rw [decimalPlace, leadingPlace]
  split <;> omega

/-- Sixteen places below its first digit, a positive quotient is at least one. -/
theorem le_scale_decimalPlace {x : Quotient} (hnum : 0 < x.num) :
    (scale 10 (-(x.decimalPlace - 16)) x).den ≤ (scale 10 (-(x.decimalPlace - 16)) x).num := by
  have hplace := decimalPlace_le x
  have hlen := decimalLength_pos x.num
  have hden : x.den < 10 ^ decimalLength x.den := lt_pow_decimalLength x.den
  have hnum' : 10 ^ (decimalLength x.num - 1) ≤ x.num :=
    pow_le_of_lt_decimalLength hnum (by omega)
  generalize x.decimalPlace = place at hplace ⊢
  -- both exponents, of which one is zero
  have hexp : decimalLength x.den + (-(-(place - 16))).toNat ≤
      decimalLength x.num - 1 + (-(place - 16)).toNat := by omega
  calc
    x.den * 10 ^ (-(-(place - 16))).toNat
      ≤ 10 ^ decimalLength x.den * 10 ^ (-(-(place - 16))).toNat :=
        Nat.mul_le_mul_right _ (Nat.le_of_lt hden)
    _ = 10 ^ (decimalLength x.den + (-(-(place - 16))).toNat) := (Nat.pow_add ..).symm
    _ ≤ 10 ^ (decimalLength x.num - 1 + (-(place - 16)).toNat) :=
        Nat.pow_le_pow_right (by decide) hexp
    _ = 10 ^ (decimalLength x.num - 1) * 10 ^ (-(place - 16)).toNat := Nat.pow_add ..
    _ ≤ x.num * 10 ^ (-(place - 16)).toNat := Nat.mul_le_mul_right _ hnum'

end Quotient
end Rounding

/-! ## The search

The search goes from coarse grids to finer ones and stops at the first that has a point in the
interval.  It is bounded by the number of grids, and on the last one the quotient is rounded whether
or not this gives a point of the interval. -/

namespace Shortest

open Rounding Rounding.Quotient

/-- Zero is not in the interval of a positive double. -/
theorem not_contains_zero {m : Nat} (hm : 0 < m) (e k : Int) :
    (interval m e).contains (scale 10 k ⟨0, 1⟩) = false := by
  have hlow : 0 < (interval m e).low.num := by
    refine scale_num_pos (by decide) ?_ _
    show 0 < 4 * m - (if m = 0x10000000000000 ∧ e ≠ -1074 then 1 else 2)
    split <;> omega
  have hden : 0 < (scale 10 k ⟨0, 1⟩).den := scale_den_pos (by decide) Nat.one_pos k
  have hnum : (scale 10 k ⟨0, 1⟩).num = 0 := Nat.zero_mul _
  have hpos := Nat.mul_pos hlow hden
  have hle : le (interval m e).low (scale 10 k ⟨0, 1⟩) = false := by
    rw [le, hnum, Nat.zero_mul]
    exact decide_eq_false (by omega)
  rw [Interval.contains, hle]
  rfl

/-- A point that is taken from a grid is not zero. -/
theorem pos_of_gridPoint? {i : Interval} {x : Quotient} {k : Int} {n : Nat}
    (hi : i.contains (scale 10 k ⟨0, 1⟩) = false) (h : gridPoint? i x k = some n) : 0 < n := by
  have hbelow {b : Nat} (hb : i.contains (scale 10 k ⟨b, 1⟩)) : 0 < b := by
    refine Nat.pos_of_ne_zero ?_
    rintro rfl
    rw [hi] at hb
    cases hb
  simp only [gridPoint?] at h
  split at h
  · rename_i hboth
    cases h
    exact Nat.lt_of_lt_of_le (hbelow (Bool.and_eq_true_iff.1 hboth).1) (div_le_nearest _ _)
  · split at h
    · rename_i hin
      cases h
      exact hbelow hin
    · split at h <;> cases h
      exact Nat.succ_pos _

theorem search_pos {i : Interval} {x : Quotient}
    (hi : ∀ k, i.contains (scale 10 k ⟨0, 1⟩) = false) {more : Nat} {k : Int}
    (hlast : 0 < (scale 10 (-(k - more)) x).round) : 0 < (search i x more k).1 := by
  induction more generalizing k with
  | zero => simpa [search] using hlast
  | succ more ih =>
    rw [search]
    split
    · rename_i n hn
      exact pos_of_gridPoint? (hi k) hn
    · refine ih ?_
      rwa [Int.natCast_succ, Int.add_comm, ← Int.sub_sub] at hlast

/-- **The digits of a positive double are not zero.** -/
theorem shortest_pos {m : Nat} (hm : 0 < m) (e : Int) : 0 < (shortest m e).1 := by
  have hnum : 0 < (Binary64.magnitude m e).num := scale_num_pos (by decide) hm e
  have hden : 0 < (Binary64.magnitude m e).den := scale_den_pos (by decide) Nat.one_pos e
  exact search_pos (not_contains_zero hm e)
    (nearest_pos (scale_den_pos (by decide) hden _) (le_scale_decimalPlace hnum))

end Shortest
end Stencil
