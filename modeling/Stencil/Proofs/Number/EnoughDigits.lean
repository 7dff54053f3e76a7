import Stencil.Number.Layout
import Stencil.Proofs.Coercion.Literal
import Stencil.Proofs.Number.Truncation
import Stencil.Proofs.Numeral.Width

/-!
# Digits that no double needs

A double is an integer over a power of two, so it has finitely many decimal digits
(`Binary64.magnitude_isExactAt`).  From the last one on nothing is rounded, and more digits only add
zeros at the end (`Rounding.Quotient.IsExactAt.round_add`).  This is so in both layouts
(`Layout.fixed_add`, `Layout.exponential_add`), and therefore in the general one, which is one of
the two.

Where the zeros at the end are dropped anyway, it does not matter that the digits which no double
needs are not worked out in the first place (`Layout.general_eq_dropZeros`).
-/

set_option autoImplicit false

namespace Stencil

/-! ## Exact scaling

A quotient has finitely many decimal digits if its denominator divides a power of ten.  Scaled by
this power it is an integer, and scaled by a larger one it is this integer with zeros. -/

namespace Rounding.Quotient

/-- The quotient times `10 ^ q` is an integer, and `q` is not negative. -/
structure IsExactAt (x : Quotient) (q : Int) : Prop where
  den_pos : 0 < x.den
  nonneg : 0 ≤ q
  dvd : x.den ∣ 10 ^ q.toNat

variable {x : Quotient} {q : Int}

/-- Beyond the last digit a larger power of ten only adds zeros. -/
theorem IsExactAt.round_add (h : x.IsExactAt q) (k : Nat) :
    (x.scale 10 (q + k)).round = (x.scale 10 q).round * 10 ^ k := by
  have hq := h.nonneg
  obtain ⟨c, hc⟩ := h.dvd
  have hround (j : Nat) : (x.scale 10 (q + j)).round = x.num * c * 10 ^ j := by
    have hexp : (q + j).toNat = q.toNat + j := by omega
    have hneg : (-(q + j)).toNat = 0 := by omega
    have hnum : x.num * 10 ^ (q.toNat + j) = x.num * c * 10 ^ j * x.den := by
      rw [Nat.pow_add, hc]
      ac_rfl
    rw [scale, round, hexp, hneg]
    show nearest (x.num * 10 ^ (q.toNat + j)) (x.den * 1) = _
    rw [hnum, Nat.mul_one, nearest_mul_right h.den_pos]
  have h0 := hround 0
  rw [Int.natCast_zero, Int.add_zero, Nat.pow_zero, Nat.mul_one] at h0
  rw [hround, h0]

end Rounding.Quotient

/-! ## More digits

Both layouts put the digits of one scaled integer around a point, so zeros at the end of the integer
are zeros at the end of the fraction, as long as the point stays where it is. -/

namespace Layout

open Rounding

/-- A form with `k` more zeros at the end of its fraction. -/
def Form.addZeros (f : Form) (k : Nat) : Form :=
  { f with fraction := f.fraction ++ Text.fill '0' k }

@[simp] theorem Form.dropZeros_addZeros (f : Form) (k : Nat) :
    (f.addZeros k).dropZeros = f.dropZeros := by
  have hzeros : ∀ c ∈ (Text.fill '0' k).reverse, decide (c = '0') = true :=
    fun c hc => decide_eq_true (List.eq_of_mem_replicate (List.mem_reverse.1 hc))
  rw [dropZeros, dropZeros, addZeros]
  simp only [List.reverse_append, List.dropWhile_append_of_pos hzeros]

variable {x : Rounding.Quotient} {p q : Nat}

/-- More digits in the fixed layout are zeros, if there was at least one before. -/
theorem fixed_add (h : x.IsExactAt q) (hq : 0 < q) (k : Nat) :
    fixed (q + k) x = (fixed q x).addZeros k := by
  have hround : (x.scale 10 ((q + k : Nat) : Int)).round = (x.scale 10 q).round * 10 ^ k :=
    h.round_add k
  have hpow : 0 < 10 ^ k := Nat.pow_pos (by decide)
  have hfraction (n : Nat) : Numeral.padZeros (q + k) (Numeral.decimal (n * 10 ^ k)) =
      Numeral.padZeros q (Numeral.decimal n) ++ Text.fill '0' k :=
    Numeral.padZeros_decimal_mul_pow hq n k
  simp only [fixed, Form.addZeros, hround, Nat.pow_eq, Nat.pow_add, if_neg (Nat.ne_of_gt hq),
    if_neg (Nat.ne_of_gt (Nat.add_pos_left hq k)), Nat.mul_div_mul_right _ _ hpow,
    Nat.mul_mod_mul_right, hfraction]

/-- More significant digits are zeros, and the place of the first digit does not change. -/
theorem significant_add (h : x.IsExactAt (p - x.decimalPlace)) (k : Nat) :
    significant (p + k) x = ((significant p x).1 * 10 ^ k, (significant p x).2) := by
  have hround : (x.scale 10 ((p + k : Nat) - x.decimalPlace)).round =
      (x.scale 10 (p - x.decimalPlace)).round * 10 ^ k := by
    rw [← h.round_add k, Int.natCast_add, add_sub_right_comm]
  have hpow : 0 < 10 ^ k := Nat.pow_pos (by decide)
  have hcarry (n : Nat) : n * 10 ^ k = 10 ^ (p + k + 1) ↔ n = 10 ^ (p + 1) := by
    rw [Nat.add_right_comm, Nat.pow_add, Nat.mul_left_inj hpow.ne']
  rw [significant, significant]
  simp only [hround, Nat.pow_eq, hcarry]
  split
  · rw [Nat.zero_mul]
  · split
    · rw [Nat.pow_add]
    · rfl

/-- More digits in the exponential layout are zeros. -/
theorem exponential_add (h : x.IsExactAt (p - x.decimalPlace)) (k : Nat) :
    exponential (p + k) x = (exponential p x).addZeros k := by
  have hform (p : Nat) : exponential p x =
      let ds := Numeral.padZeros (p + 1) (Numeral.decimal (significant p x).1)
      ⟨ds.take 1, ds.drop 1, some (significant p x).2⟩ := rfl
  have hdigits : Numeral.padZeros (p + k + 1) (Numeral.decimal ((significant p x).1 * 10 ^ k)) =
      Numeral.padZeros (p + 1) (Numeral.decimal (significant p x).1) ++ Text.fill '0' k := by
    rw [Nat.add_right_comm, Numeral.padZeros_decimal_mul_pow (Nat.succ_pos p)]
  have hlength : 1 ≤ (Numeral.padZeros (p + 1) (Numeral.decimal (significant p x).1)).length := by
    rw [Numeral.padZeros_eq, List.length_append, List.length_replicate]
    omega
  rw [hform, hform, significant_add h]
  simp only [Form.addZeros, hdigits, List.take_append_of_le_length hlength,
    List.drop_append_of_le_length hlength]

end Layout

/-! ## Digits of doubles

The smallest double is `2 ^ -1074`, so 1074 digits after the point are enough, and before the point
there are at most 309.  Their sum is less than 1400, wherever the first digit stands. -/

namespace Binary64

variable {m : Nat} {e : Int}

/-- **A double has no more than 1074 digits after the point.** -/
theorem magnitude_isExactAt (h : IsDouble m e) {q : Int} (hq : 1074 ≤ q) :
    (magnitude m e).IsExactAt q := by
  refine ⟨magnitude_den_pos m e, by omega, ?_⟩
  have hden : (magnitude m e).den = 2 ^ (-e).toNat := Nat.one_mul _
  have hexp : (-e).toNat ≤ q.toNat := by omega
  calc
    (magnitude m e).den = 2 ^ (-e).toNat := hden
    _ ∣ 2 ^ q.toNat := pow_dvd_pow 2 hexp
    _ ∣ 10 ^ q.toNat := pow_dvd_pow_of_dvd (by decide) _

/-- The first digit of a double stands at most 308 places before the last one of the whole part. -/
theorem decimalPlace_magnitude_le (h : IsDouble m e) : (magnitude m e).decimalPlace ≤ 308 := by
  have hnum : (magnitude m e).num < 10 ^ 309 := by
    have hpow (i j : Nat) (hij : i ≤ j) : 2 ^ i ≤ 2 ^ j := Nat.pow_le_pow_right (by decide) hij
    have hpos (i : Nat) : 0 < 2 ^ i := Nat.two_pow_pos i
    calc
      (magnitude m e).num = m * 2 ^ e.toNat := rfl
      _ ≤ m * 2 ^ 971 := Nat.mul_le_mul_left m (hpow e.toNat 971 (by omega))
      _ < 0x20000000000000 * 2 ^ 971 := Nat.mul_lt_mul_of_pos_right h.1 (hpos 971)
      _ < 10 ^ 309 := by decide +kernel
  have hlength := Numeral.decimalLength_le (by decide) hnum
  have hden := Numeral.decimalLength_pos (magnitude m e).den
  have hplace := Rounding.Quotient.decimalPlace_le (magnitude m e)
  omega

end Binary64

namespace Layout

open Binary64

variable {m : Nat} {e : Int}

/-- Rounding up may move the first digit by one place. -/
theorem significant_magnitude_le (h : IsDouble m e) (p : Nat) :
    (significant p (magnitude m e)).2 ≤ 309 := by
  have hplace := decimalPlace_magnitude_le h
  rw [significant]
  simp only
  split
  · decide
  · split <;> omega

/-- More than 1400 digits in the general layout are zeros. -/
theorem generalFull_add (h : IsDouble m e) (k : Nat) :
    generalFull (enoughDigits + k) (magnitude m e) =
      (generalFull enoughDigits (magnitude m e)).addZeros k := by
  have hplace := decimalPlace_magnitude_le h
  have hcarried := significant_magnitude_le h 1399
  have hexact : (magnitude m e).IsExactAt ((1399 : Nat) - (magnitude m e).decimalPlace) :=
    magnitude_isExactAt h (by omega)
  have hlast : enoughDigits + k - 1 = 1399 + k := by
    rw [enoughDigits]
    omega
  have hlast' : enoughDigits - 1 = 1399 := rfl
  rw [generalFull, generalFull, hlast, hlast']
  simp only [significant_add hexact, exponential_add hexact]
  generalize (significant 1399 (magnitude m e)).2 = place at hcarried
  by_cases hlow : -4 ≤ place
  · have hq : (((1399 + k : Nat) : Int) - place).toNat = ((1399 : Nat) - place).toNat + k := by
      omega
    have hexact' : (magnitude m e).IsExactAt (((1399 : Nat) - place).toNat : Nat) :=
      magnitude_isExactAt h (by omega)
    rw [if_pos ⟨hlow, by omega⟩, if_pos ⟨hlow, by omega⟩, hq, fixed_add hexact' (by omega)]
  · rw [if_neg (fun hand => hlow hand.1), if_neg (fun hand => hlow hand.1)]

/-- **Without its zeros at the end, a double has all of its digits among the first 1400.** -/
theorem general_eq_dropZeros (h : IsDouble m e) (p : Nat) :
    general false p (magnitude m e) = (generalFull p (magnitude m e)).dropZeros := by
  rw [general, if_neg Bool.false_ne_true]
  rcases Nat.le_total p enoughDigits with hp | hp
  · rw [Nat.min_eq_left hp]
  · obtain ⟨k, rfl⟩ := Nat.exists_eq_add_of_le hp
    rw [Nat.min_eq_right hp, generalFull_add h, Form.dropZeros_addZeros]

end Layout
end Stencil
