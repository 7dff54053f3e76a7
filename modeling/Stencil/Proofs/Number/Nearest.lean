import Mathlib.Data.Nat.Log
import Stencil.Proofs.Number.Shortest

/-!
# The double nearest to an integer

An integer of at most 53 binary digits is a double, so it is met exactly, and so is the next one,
`2 ^ 53` (`Binary64.truncate?_ofInt`).  A longer integer keeps its first 53 binary digits, rounded.
Where these are all ones and are rounded up, one more binary digit is needed, and the largest
exponent leaves no room for it: this is how integers from `2 ^ 1024 - 2 ^ 970` on, which is halfway
from the largest double to `2 ^ 1024`, become infinite (`Binary64.isFinite_ofInt_iff`).

A double that an integer is rounded to is made from the first digits of the integer and the place of
the last of them.  It depends on the place whether the result is finite, and on the digits only for
the largest place.
-/

set_option autoImplicit false

namespace Stencil

/-! ## Rounding a quotient

A quotient is rounded down or up by less than one. -/

namespace Rounding

@[simp] theorem nearest_one (n : Nat) : nearest n 1 = n := by
  rw [nearest]
  simp [Nat.mod_one]

theorem nearest_le (num den : Nat) : nearest num den ≤ num / den + 1 := by
  rw [nearest]
  repeat' split
  all_goals omega

/-- From halfway between an odd number and the next one on, the next one is nearest. -/
theorem nearest_eq_succ_iff {num den q : Nat} (hden : 0 < den) (hq : q % 2 = 1)
    (h : num < (q + 1) * den) : nearest num den = q + 1 ↔ (2 * q + 1) * den ≤ 2 * num := by
  have hle := nearest_le num den
  have hdiv : num / den ≤ q := Nat.le_of_lt_succ ((Nat.div_lt_iff_lt_mul hden).2 h)
  have hnum := Nat.div_add_mod num den
  have hmod := Nat.mod_lt num hden
  rcases Nat.lt_or_eq_of_le hdiv with hlt | heq
  · refine iff_of_false (by omega) (Nat.not_le.2 ?_)
    have hsucc : (num / den + 1) * den ≤ q * den := Nat.mul_le_mul_right den hlt
    rw [Nat.add_mul, Nat.one_mul, Nat.mul_comm] at hsucc
    rw [Nat.add_mul, Nat.mul_assoc]
    omega
  · rw [heq, Nat.mul_comm] at hnum
    rw [nearest, heq, Nat.add_mul, Nat.mul_assoc, Nat.one_mul]
    split
    · omega
    · split
      · omega
      · rw [if_neg (by omega)]
        omega

end Rounding

namespace Binary64

open Rounding Rounding.Quotient

/-! ## The digits that are kept

The place of the first binary digit of an integer is its logarithm.  From there on 53 digits are
kept, and this may be more than there are. -/

theorem binaryPlace_natCast {n : Nat} (hn : 0 < n) :
    (Rounding.Quotient.mk n 1).binaryPlace = (n.log2 : Int) := by
  have hlog : Nat.log2 1 = 0 := rfl
  have hle : le (scale 2 (n.log2 : Int) ⟨1, 1⟩) ⟨n, 1⟩ = true := by
    have hpow : Nat.pow 2 n.log2 ≤ n := Nat.log2_self_le (Nat.pos_iff_ne_zero.1 hn)
    simpa [le, scale] using hpow
  rw [binaryPlace, leadingPlace]
  simp only [hlog, Int.ofNat_zero, Int.sub_zero]
  rw [if_pos hle]

/-- A positive integer keeps 53 binary digits: with zeros after them where it has fewer, and rounded
where it has more. -/
theorem nearest_natCast (negative : Bool) {n : Nat} (hn : 0 < n) :
    nearest negative ⟨n, 1⟩ =
      let e : Int := (n.log2 : Int) - 52
      let m := Rounding.nearest (n * 2 ^ (52 - n.log2)) (2 ^ (n.log2 - 52))
      if m = 0x20000000000000 then ofParts negative 0x10000000000000 (e + 1)
      else ofParts negative m e := by
  have he : max ((n.log2 : Int) - 52) (-1074) = (n.log2 : Int) - 52 := by omega
  have hneg : (-((n.log2 : Int) - 52)).toNat = 52 - n.log2 := by omega
  have hpos : (- -((n.log2 : Int) - 52)).toNat = n.log2 - 52 := by omega
  have hscale : ((Rounding.Quotient.mk n 1).scale 2 (-((n.log2 : Int) - 52))).round =
      Rounding.nearest (n * 2 ^ (52 - n.log2)) (2 ^ (n.log2 - 52)) := by
    rw [scale, Quotient.round, hneg, hpos, Nat.one_mul]
    rfl
  rw [nearest, if_neg (Nat.pos_iff_ne_zero.1 hn), binaryPlace_natCast hn, he]
  simp only [hscale]

/-- An integer of at most 53 binary digits is met exactly. -/
theorem truncate?_nearest_of_lt (negative : Bool) {n : Nat} (h : n < 2 ^ 53) :
    (nearest negative ⟨n, 1⟩).truncate? = some (if negative then -(n : Int) else n) := by
  rcases Nat.eq_zero_or_pos n with rfl | hn
  · rw [nearest, if_pos rfl, zero, truncate?]
    simp only [magnitude, scale, floor, Nat.zero_mul, Nat.zero_div]
  have hlog : n.log2 < 53 := (Nat.log2_lt (Nat.pos_iff_ne_zero.1 hn)).2 h
  have hlow : 2 ^ n.log2 ≤ n := Nat.log2_self_le (Nat.pos_iff_ne_zero.1 hn)
  have hhigh : n < 2 ^ (n.log2 + 1) := Nat.lt_log2_self
  have hpow : 0 < 2 ^ (52 - n.log2) := Nat.two_pow_pos _
  have hm : 2 ^ 52 ≤ n * 2 ^ (52 - n.log2) ∧ n * 2 ^ (52 - n.log2) < 2 ^ 53 := by
    have h52 : 2 ^ n.log2 * 2 ^ (52 - n.log2) = 2 ^ 52 := by
      rw [← Nat.pow_add, show n.log2 + (52 - n.log2) = 52 by omega]
    have h53 : 2 ^ (n.log2 + 1) * 2 ^ (52 - n.log2) = 2 ^ 53 := by
      rw [← Nat.pow_add, show n.log2 + 1 + (52 - n.log2) = 53 by omega]
    rw [← h52, ← h53]
    exact ⟨Nat.mul_le_mul_right _ hlow, Nat.mul_lt_mul_of_pos_right hhigh hpow⟩
  have hdouble : IsDouble (n * 2 ^ (52 - n.log2)) ((n.log2 : Int) - 52) := by
    refine ⟨hm.2, by omega, by omega, .inl hm.1⟩
  have hfloor : (magnitude (n * 2 ^ (52 - n.log2)) ((n.log2 : Int) - 52)).floor = n := by
    have hneg : (-((n.log2 : Int) - 52)).toNat = 52 - n.log2 := by omega
    have hpos : ((n.log2 : Int) - 52).toNat = 0 := by omega
    rw [magnitude, scale, floor, hneg, hpos, Nat.one_mul]
    show n * 2 ^ (52 - n.log2) * 1 / 2 ^ (52 - n.log2) = n
    rw [Nat.mul_one, Nat.mul_div_cancel n hpow]
  rw [nearest_natCast negative hn]
  simp only [show n.log2 - 52 = 0 by omega, Nat.pow_zero, nearest_one]
  rw [if_neg (by omega), ofParts, dif_pos hdouble, truncate?]
  simp only [hfloor]

theorem truncate?_nearest_of_le (negative : Bool) {n : Nat} (h : n ≤ 2 ^ 53) :
    (nearest negative ⟨n, 1⟩).truncate? = some (if negative then -(n : Int) else n) := by
  rcases Nat.lt_or_eq_of_le h with h | rfl
  · exact truncate?_nearest_of_lt negative h
  · cases negative <;> decide +kernel

/-- **Integers up to `2 ^ 53` are doubles.** -/
theorem truncate?_ofInt {n : Int} (h : n.natAbs ≤ 2 ^ 53) : (ofInt n).truncate? = some n := by
  rw [ofInt, truncate?_nearest_of_le _ h]
  exact congrArg some (Numeral.signed_natAbs n)

/-! ## The largest doubles

A double is finite if its exponent is in range.  Integers of at most 1023 binary digits are safe
even if they are rounded up, those of 1025 are out of range, and of those with 1024 it is the ones
whose first 53 digits are rounded up from all ones that are lost. -/

/-- What is rounded is a finite double or infinite with the given sign. -/
theorem nearest_eq_infinite {negative : Bool} {x : Quotient}
    (h : ¬ (nearest negative x).isFinite) : nearest negative x = infinite negative := by
  have hparts (m : Nat) (e : Int) (h : ¬ (ofParts negative m e).isFinite) :
      ofParts negative m e = infinite negative := by
    rw [ofParts] at h ⊢
    split at h
    · exact absurd rfl h
    · rw [dif_neg ‹_›]
  rw [nearest] at h ⊢
  split at h
  · exact absurd rfl h
  · rw [if_neg ‹_›]
    simp only at h ⊢
    split at h
    · rw [if_pos ‹_›]
      exact hparts _ _ h
    · rw [if_neg ‹_›]
      exact hparts _ _ h

theorem isFinite_ofParts_iff {negative : Bool} {m : Nat} {e : Int} :
    (ofParts negative m e).isFinite ↔ IsDouble m e := by
  rw [ofParts]
  split
  · exact iff_of_true rfl ‹_›
  · exact iff_of_false (by simp [isFinite]) ‹_›

/-- What is finite when an integer of more than 53 binary digits is rounded. -/
theorem isFinite_nearest_iff_of_le (negative : Bool) {n k : Nat} (hlow : 2 ^ (k + 52) ≤ n)
    (hhigh : n < 2 ^ (k + 53)) :
    (nearest negative ⟨n, 1⟩).isFinite ↔ k < 971 ∨ k = 971 ∧ 2 * n < (2 ^ 54 - 1) * 2 ^ k := by
  have hn : 0 < n := Nat.lt_of_lt_of_le (Nat.two_pow_pos _) hlow
  have hlog : n.log2 = k + 52 := (Nat.log2_eq_iff (Nat.pos_iff_ne_zero.1 hn)).2 ⟨hlow, hhigh⟩
  have hden : 0 < 2 ^ k := Nat.two_pow_pos k
  rw [Nat.pow_add, Nat.mul_comm] at hlow hhigh
  have hround : Rounding.nearest n (2 ^ k) = 2 ^ 53 ↔ (2 ^ 54 - 1) * 2 ^ k ≤ 2 * n :=
    nearest_eq_succ_iff hden (q := 2 ^ 53 - 1) rfl hhigh
  have hq : 2 ^ 52 ≤ n / 2 ^ k := (Nat.le_div_iff_mul_le hden).2 hlow
  have hq' : n / 2 ^ k < 2 ^ 53 := (Nat.div_lt_iff_lt_mul hden).2 hhigh
  have hm : 2 ^ 52 ≤ Rounding.nearest n (2 ^ k) ∧ Rounding.nearest n (2 ^ k) ≤ 2 ^ 53 :=
    ⟨Nat.le_trans hq (div_le_nearest _ _), Nat.le_trans (nearest_le _ _) hq'⟩
  rw [nearest_natCast negative hn, hlog, show 52 - (k + 52) = 0 by omega, Nat.pow_zero, Nat.mul_one,
    Nat.add_sub_cancel]
  simp only
  split
  · rename_i heq
    have hle := hround.1 heq
    rw [isFinite_ofParts_iff]
    simp only [IsDouble]
    omega
  · rename_i hne
    have hlt : 2 * n < (2 ^ 54 - 1) * 2 ^ k := Nat.lt_of_not_le (mt hround.2 hne)
    rw [isFinite_ofParts_iff]
    simp only [IsDouble]
    omega

/-- **An integer is rounded to a finite double until halfway from the largest to `2 ^ 1024`.** -/
theorem isFinite_nearest_natCast_iff (negative : Bool) (n : Nat) :
    (nearest negative ⟨n, 1⟩).isFinite ↔ n < 2 ^ 1024 - 2 ^ 970 := by
  have hpow (i j : Nat) (h : i ≤ j) : 2 ^ i ≤ 2 ^ j := Nat.pow_le_pow_right (by decide) h
  have hsplit (i : Nat) : 2 ^ (i + 970) = 2 ^ i * 2 ^ 970 := pow_add 2 i 970
  have hbound : 2 ^ 1024 - 2 ^ 970 = (2 ^ 54 - 1) * 2 ^ 970 := by
    rw [hsplit 54, Nat.sub_mul, Nat.one_mul]
  have hpos : 0 < 2 ^ 970 := hpow 0 970 (Nat.zero_le 970)
  rw [hbound]
  -- the power is kept as a name, or arithmetic would compute it
  generalize 2 ^ 970 = unit at hsplit hpos ⊢
  -- below 2 ^ 53 every integer is a double; above, the place of the first bit decides
  rcases Nat.lt_or_ge n (2 ^ 53) with hlt | hge
  · have hfinite : (nearest negative ⟨n, 1⟩).isFinite := by
      have ht := truncate?_nearest_of_lt negative hlt
      cases hx : nearest negative ⟨n, 1⟩ with
      | finite => rfl
      | infinite | nan => rw [hx] at ht; cases ht
    exact iff_of_true hfinite (by omega)
  · have hn : n ≠ 0 := by omega
    have hlog : 53 ≤ n.log2 := (Nat.le_log2 hn).2 hge
    obtain ⟨k, hk⟩ := Nat.exists_eq_add_of_le' (Nat.le_of_lt hlog)
    have hlow : 2 ^ (k + 52) ≤ n := hk ▸ Nat.log2_self_le hn
    have hhigh : n < 2 ^ (k + 53) := by
      have hlt := Nat.lt_log2_self (n := n)
      rwa [hk] at hlt
    rw [isFinite_nearest_iff_of_le negative hlow hhigh]
    rcases Nat.lt_trichotomy k 971 with hlt | rfl | hgt
    · have hle := hpow (k + 53) (53 + 970) (by omega)
      rw [hsplit] at hle
      exact iff_of_true (.inl hlt) (by omega)
    · rw [show 971 = 1 + 970 from rfl, hsplit]
      omega
    · have hle := hpow (54 + 970) (k + 52) (by omega)
      rw [hsplit] at hle
      exact iff_of_false (by omega) (by omega)

/-- **Integers are finite doubles until halfway from the largest double to `2 ^ 1024`.** -/
theorem isFinite_ofInt_iff (n : Int) : (ofInt n).isFinite ↔ n.natAbs < 2 ^ 1024 - 2 ^ 970 :=
  isFinite_nearest_natCast_iff _ _

end Binary64
end Stencil
