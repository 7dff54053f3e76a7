import Stencil.Proofs.Format.General
import Stencil.Proofs.Number.Significant

/-!
# Output with an exponent

The exponential conversion prints one digit before the point and as many behind it as the precision
says.  `Directive.format_exponential` says which: together they are the double rounded to so many
significant digits (`Layout.IsRounded`), and the exponent is the place of the first of them.  So no
decimal with as many digits is nearer to the double than the one that is printed
(`Layout.IsRounded.le_of_lt`).

Zero has no first digit that is not zero.  It is printed with zeros and the exponent zero.

The general conversion reads its exponent here and takes its digits from here or from the fixed
conversion, so that all printed digits of doubles are accounted for.
-/

set_option autoImplicit false

namespace Stencil

open Rounding

/-! ## Layouts with an exponent -/

namespace Layout

variable {x : Rounding.Quotient}

/-- There is never a digit too many, also where the number is rounded up to a power of ten. -/
theorem significant_lt (hden : 0 < x.den) (p : ℕ) : (significant p x).1 < 10 ^ (p + 1) := by
  rcases Nat.eq_zero_or_pos x.num with hnum | hnum
  · rw [significant, if_pos hnum]
    exact Nat.pow_pos (by decide)
  · exact (significant_isRounded hnum hden p).high

/-- One digit stands before the point, and together with those after it it is the number of the
significant digits. -/
theorem exists_exponential (hden : 0 < x.den) (p : ℕ) :
    ∃ digit fraction, exponential p x = ⟨[digit], fraction, some (significant p x).2⟩ ∧
      fraction.length = p ∧ Text.digitsValue (digit :: fraction) = (significant p x).1 := by
  have hlength := Numeral.length_padZeros_decimal (Nat.succ_pos p) (significant_lt hden p)
  have hvalue := Numeral.digitsValue_padZeros_decimal (p + 1) (significant p x).1
  have hform : exponential p x =
      ⟨(Numeral.padZeros (p + 1) (Numeral.decimal (significant p x).1)).take 1,
        (Numeral.padZeros (p + 1) (Numeral.decimal (significant p x).1)).drop 1,
        some (significant p x).2⟩ := rfl
  obtain ⟨digit, fraction, hds⟩ := List.exists_cons_of_length_eq_add_one hlength
  rw [hds] at hlength hvalue hform
  exact ⟨digit, fraction, hform, Nat.succ.inj hlength, hvalue⟩

end Layout

/-! ## Output -/

namespace Directive

variable {d : Directive} {o : Operands} {negative : Bool} {m : ℕ} {e : ℤ} {h : IsDouble m e} {p : ℕ}

/-- **Output with an exponent is correctly rounded.**  It has the sign of the double, one digit
before the point and as many after it as the precision says, and an exponent.  The digits are those
of the double rounded to so many, and the exponent is the place of the first one. -/
theorem format_exponential [Nesting] (d : Directive) (o : Operands)
    (hc : d.conversion = .exponent ∨ d.conversion = .exponentUpper) (hw : widthOf o = none)
    (hx : o.value = .float (.finite negative m e h))
    (hp : (precisionOf o).elim 6 Int.toNat = p) (hmax : p ≤ 2 ^ 31 - 1) :
    ∃ digit fraction letter power X,
      d.format o = .ok (d.sign negative ++ digit ::
        (if p = 0 ∧ .alternate ∉ d.flags then [] else '.' :: fraction) ++ letter :: power) ∧
      fraction.length = p ∧ (∀ c ∈ digit :: fraction, c.isDigit) ∧
      Text.isExponentLetter letter ∧ Numeral.literal? power = some X ∧
      if m = 0 then Text.digitsValue (digit :: fraction) = 0 ∧ X = 0
        else Layout.IsRounded p (m * 2 ^ e) (Text.digitsValue (digit :: fraction)) X := by
  have hfamily : d.conversion.family = .float .exponential := by
    rcases hc with hc | hc <;> rw [hc] <;> rfl
  have hden := Binary64.magnitude_den_pos m e
  have hproper := Json.isProper_exponential p (Binary64.magnitude m e)
  obtain ⟨digit, fraction, hform, hlength, hvalue⟩ := Layout.exists_exponential hden p
  obtain ⟨letter, power, hcase, hletter, hpower⟩ :=
    exists_inCase_exponentText d (Layout.significant p (Binary64.magnitude m e)).2
  refine ⟨digit, fraction, letter, power, _, ?_, hlength, ?_, hletter, hpower, ?_⟩
  · have hpoint : (fraction.isEmpty && !d.alternate) = true ↔
        p = 0 ∧ .alternate ∉ d.flags := by
      rw [Bool.and_eq_true, List.isEmpty_iff, ← List.length_eq_zero_iff, hlength]
      simp [alternate]
    rw [format_float hfamily hw hx hp hmax, Layout.text, inCase_render hproper, hform]
    simp only [hpoint, Option.elim_some, hcase, List.cons_append, List.nil_append,
      List.append_assoc]
  · rw [hform] at hproper
    refine List.forall_mem_cons.2 ⟨?_, hproper.fraction⟩
    exact hproper.whole.isDigits.2 digit List.mem_cons_self
  · rw [hvalue]
    split
    · rename_i hm
      have hzero : (Binary64.magnitude m e).num = 0 := by
        rw [hm]
        exact Nat.zero_mul _
      rw [Layout.significant, if_pos hzero]
      exact ⟨rfl, rfl⟩
    · rename_i hm
      have hnum : 0 < (Binary64.magnitude m e).num :=
        Quotient.scale_num_pos (by decide) (Nat.pos_of_ne_zero hm) e
      have hrounded := Layout.significant_isRounded hnum hden p
      rwa [Binary64.value_magnitude] at hrounded

end Directive
end Stencil
