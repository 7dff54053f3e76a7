import Mathlib.Algebra.Group.Even
import Mathlib.Tactic.Linarith
import Stencil.Proofs.Number.Truncation

/-!
# Rounding to the nearest integer

`Rounding.nearest` divides and looks at the remainder.  No integer is nearer to the quotient than
the one it gives, and of two that are equally near it gives the even one
(`Rounding.isNearest_nearest`).  Half a step is the bound for this, since two integers are at least
one step apart.

All decimal digits come about in this way: a quotient is scaled by a power of ten, which is exact
(`Rounding.Quotient.value_scale`), and rounded once (`Rounding.Quotient.isNearest_round_scale`).
Since nothing is rounded past an integer (`Rounding.IsNearest.le`, `Rounding.IsNearest.ge`), the
number of digits of the result can be told from the number before it is rounded.
-/

set_option autoImplicit false

namespace Stencil
namespace Rounding

/-! ## Nearest integers

The definition compares with all integers, and half a step is enough to know. -/

/-- No integer is nearer to `x` than `n` is, and none that is equally near if `n` is odd. -/
def IsNearest (x : ℚ) (n : ℕ) : Prop :=
  (∀ k : ℤ, |x - n| ≤ |x - k|) ∧ ∀ k : ℤ, |x - n| = |x - k| → k = n ∨ Even n

theorem isNearest_of_abs_le {x : ℚ} {n : ℕ} (h : |x - n| ≤ 1 / 2)
    (heven : |x - n| = 1 / 2 → Even n) : IsNearest x n := by
  have hstep (k : ℤ) (hk : k ≠ n) : 1 ≤ |x - n| + |x - k| := by
    have hne : (1 : ℚ) ≤ |(n : ℚ) - k| := by
      exact_mod_cast Int.one_le_abs (sub_ne_zero.2 hk.symm)
    calc
      (1 : ℚ) ≤ |(n : ℚ) - k| := hne
      _ ≤ |n - x| + |x - k| := abs_sub_le _ _ _
      _ = |x - n| + |x - k| := by rw [abs_sub_comm]
  refine ⟨fun k => ?_, fun k hk => ?_⟩
  · by_cases hkn : k = n
    · rw [hkn, Int.cast_natCast]
    · linarith [hstep k hkn]
  · by_cases hkn : k = n
    · exact .inl hkn
    · exact .inr (heven (by linarith [hstep k hkn]))

/-- **Dividing and looking at the remainder rounds to the nearest integer, ties to even.** -/
theorem isNearest_nearest {num den : ℕ} (hden : 0 < den) :
    IsNearest ((num : ℚ) / den) (nearest num den) := by
  have hden' : (0 : ℚ) < den := Nat.cast_pos.2 hden
  -- the fraction that is lost by rounding down decides everything
  obtain ⟨f, hf⟩ : ∃ f : ℚ, f = (num % den : ℕ) / den := ⟨_, rfl⟩
  have hnum : (num : ℚ) / den = (num / den : ℕ) + f := by
    have hparts : (num : ℚ) = den * (num / den : ℕ) + (num % den : ℕ) := by
      exact_mod_cast (Nat.div_add_mod num den).symm
    rw [hf, div_eq_iff hden'.ne', add_mul, div_mul_cancel₀ _ hden'.ne', hparts, mul_comm]
  have hnonneg : 0 ≤ f := hf ▸ div_nonneg (Nat.cast_nonneg _) hden'.le
  have hlt : f < 1 := by
    rw [hf, div_lt_one hden']
    exact_mod_cast Nat.mod_lt num hden
  have hhalf : f < 1 / 2 ↔ 2 * (num % den) < den := by
    rw [hf, div_lt_div_iff₀ hden' two_pos, one_mul, mul_comm]
    exact_mod_cast Iff.rfl
  have hhalf' : 1 / 2 < f ↔ den < 2 * (num % den) := by
    rw [hf, div_lt_div_iff₀ two_pos hden', one_mul, mul_comm _ (2 : ℚ)]
    exact_mod_cast Iff.rfl
  have hdown : |(num : ℚ) / den - (num / den : ℕ)| = f := by
    rw [hnum, add_sub_cancel_left, abs_of_nonneg hnonneg]
  have hup : |(num : ℚ) / den - (num / den + 1 : ℕ)| = 1 - f := by
    rw [hnum, Nat.cast_add, Nat.cast_one, add_sub_add_left_eq_sub, abs_sub_comm,
      abs_of_pos (sub_pos.2 hlt)]
  -- the cases are the ones in which the program takes the upper or the lower neighbour
  rw [nearest]
  split
  · rename_i hr
    have hf' := hhalf.2 hr
    exact isNearest_of_abs_le (hdown.trans_le hf'.le) fun h => absurd (hdown.symm.trans h) hf'.ne
  · rename_i hr
    have hge : 1 / 2 ≤ f := not_lt.1 (mt hhalf.1 hr)
    split
    · rename_i hr'
      have hf' := hhalf'.2 hr'
      exact isNearest_of_abs_le (by rw [hup]; linarith) fun h => by rw [hup] at h; linarith
    · rename_i hr'
      have hle : f ≤ 1 / 2 := not_lt.1 (mt hhalf'.1 hr')
      split
      · rename_i hq
        exact isNearest_of_abs_le (hdown.trans_le hle) fun _ => Nat.even_iff.2 hq
      · rename_i hq
        exact isNearest_of_abs_le (by rw [hup]; linarith) fun _ => Nat.even_iff.2 (by omega)

/-- What lies above an integer is not rounded to below it. -/
theorem IsNearest.le {x : ℚ} {n k : ℕ} (h : IsNearest x n) (hk : (k : ℚ) ≤ x) : k ≤ n := by
  by_contra hlt
  have hn : (n : ℚ) < k := Nat.cast_lt.2 (not_le.1 hlt)
  have hnear := h.1 k
  rw [Int.cast_natCast, abs_of_nonneg (sub_nonneg.2 hk), abs_of_pos (by linarith)] at hnear
  linarith

/-- What lies below an integer is not rounded to above it. -/
theorem IsNearest.ge {x : ℚ} {n k : ℕ} (h : IsNearest x n) (hk : x ≤ k) : n ≤ k := by
  by_contra hlt
  have hn : (k : ℚ) < n := Nat.cast_lt.2 (not_le.1 hlt)
  have hnear := h.1 k
  rw [Int.cast_natCast, abs_of_neg (by linarith), abs_of_nonpos (sub_nonpos.2 hk)] at hnear
  linarith

namespace Quotient

/-- The number that a quotient stands for. -/
def value (x : Quotient) : ℚ := x.num / x.den

theorem value_scale {b : ℕ} (hb : 0 < b) (e : ℤ) (x : Quotient) :
    (x.scale b e).value = x.value * (b : ℚ) ^ e := by
  have hpow : (b : ℚ) ^ e = ((b ^ e.toNat : ℕ) : ℚ) / ((b ^ (-e).toNat : ℕ) : ℚ) := by
    have h := mul_zpow_eq_div hb 1 e
    rwa [Nat.cast_one, one_mul, one_mul] at h
  rw [hpow, value, value, div_mul_div_comm, ← Nat.cast_mul, ← Nat.cast_mul]
  rfl

/-- **Whatever a quotient is scaled by, it is rounded once.** -/
theorem isNearest_round_scale {x : Quotient} (hden : 0 < x.den) (e : ℤ) :
    IsNearest (x.value * 10 ^ e) (x.scale 10 e).round := by
  have hvalue := value_scale (b := 10) (by decide) e x
  rw [Nat.cast_ofNat] at hvalue
  rw [← hvalue]
  exact isNearest_nearest (scale_den_pos (by decide) hden e)

end Quotient
end Rounding

namespace Binary64

@[simp] theorem value_magnitude (m : ℕ) (e : ℤ) : (magnitude m e).value = m * 2 ^ e :=
  (mul_zpow_eq_magnitude m e).symm

end Binary64
end Stencil
