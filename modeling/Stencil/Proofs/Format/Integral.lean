import Stencil.Proofs.Coercion.Integer
import Stencil.Proofs.Format.ReadBack

/-!
# Doubles that are integers

A double that is an integer can be printed as an integer, or as a number without digits after the
point, and the outputs are the same (`Directive.format_integral`).  One conversion cuts the double
off and writes the sign and the numeral of what it gets; the other lays out the significand with its
power of two, rounded, and writes the sign of the double.  Both meet in the parts of the output
(`Directive.parts_decimal_integral`, `Directive.parts_fixed_integral`): nothing is cut off and
nothing is rounded, and the sign of the double is the sign of the integer.  Only the negative zero
has a sign that no integer has.
-/

set_option autoImplicit false

namespace Stencil

/-! ## Magnitudes

A double that is an integer has a magnitude whose denominator divides its numerator, so rounding it
gives the quotient. -/

namespace Binary64

open Rounding

/-- An integer as a shifted significand. -/
theorem magnitude_num_of_eq {m : ℕ} {e : ℤ} {n : ℕ} (h : (m : ℚ) * 2 ^ e = n) :
    (magnitude m e).num = n * (magnitude m e).den := by
  have hden : ((magnitude m e).den : ℚ) ≠ 0 :=
    Nat.cast_ne_zero.2 (magnitude_den_pos m e).ne'
  rw [mul_zpow_eq_magnitude, div_eq_iff hden] at h
  exact_mod_cast h

/-- Without digits after the point, a double that is an integer is laid out as its numeral. -/
theorem text_fixed_of_eq {m : ℕ} {e : ℤ} {n : ℕ} (h : (m : ℚ) * 2 ^ e = n) :
    Layout.text .fixed false 0 (magnitude m e) = Numeral.decimal n := by
  have hround : ((magnitude m e).scale 10 ((0 : ℕ) : ℤ)).round = n := by
    show Rounding.nearest ((magnitude m e).num * 1) ((magnitude m e).den * 1) = n
    rw [Nat.mul_one, Nat.mul_one, magnitude_num_of_eq h, nearest_mul_right (magnitude_den_pos m e)]
  have hfixed : Layout.fixed 0 (magnitude m e) = ⟨Numeral.decimal n, [], none⟩ := by
    rw [Layout.fixed, hround]
    show Layout.Form.mk (Numeral.decimal (n / 1)) [] none = _
    rw [Nat.div_one]
  rw [Layout.text, hfixed]
  show Numeral.decimal n ++ [] ++ [] = _
  rw [List.append_nil, List.append_nil]

end Binary64

/-! ## Signs

The sign of a double is kept apart from its magnitude, that of an integer is not.  The two agree but
for the negative zero. -/

section

variable {negative : Bool} {m : ℕ} {e n : ℤ}

theorem shifted_eq_natAbs (h : withSign negative (m * 2 ^ e) = n) : (m : ℚ) * 2 ^ e = n.natAbs := by
  rw [Nat.cast_natAbs, Int.cast_abs, ← h, abs_withSign negative (shifted_nonneg zero_le_two m e)]

/-- The sign of a double that is an integer, but no negative zero, is the sign of the integer. -/
theorem decide_neg_of_withSign_eq (h : withSign negative (m * 2 ^ e) = n)
    (hzero : ¬ (negative = true ∧ n = 0)) : decide (n < 0) = negative := by
  have hnonneg : (0 : ℚ) ≤ m * 2 ^ e := shifted_nonneg zero_le_two m e
  cases negative with
  | false =>
    have hn : (0 : ℚ) ≤ n := hnonneg.trans_eq h
    exact decide_eq_false (not_lt.2 (Int.cast_nonneg_iff.1 hn))
  | true =>
    have hn : (n : ℚ) ≤ 0 := h.symm.trans_le (neg_nonpos.2 hnonneg)
    have hne : n ≠ 0 := fun he => hzero ⟨rfl, he⟩
    exact decide_eq_true (lt_of_le_of_ne (Int.cast_nonpos.1 hn) hne)

end

/-! ## Parts

Both conversions are reduced to the same parts: the sign that the flags ask for, and the numeral. -/

namespace Directive

variable {d : Directive} {n : ℤ}

/-- Of a value that is read as an integer, an integer conversion sees nothing else. -/
theorem parts_integer_congr [Nesting] {base : ℕ} (hf : d.conversion.family = .integer base)
    {v v' : Value} (h : v.toInteger = v'.toInteger) (precision : Option ℤ) :
    d.parts precision v = d.parts precision v' := by
  rw [parts, parts, hf]
  simp only [h]

/-- Without a precision, an integer in base ten is a sign and a numeral. -/
theorem parts_decimal_int [Nesting] (hf : d.conversion.family = .integer 10) (n : ℤ) :
    d.parts none (.int n) = .ok ⟨d.sign (n < 0), Numeral.text 10 n.natAbs, true⟩ := by
  have h := parts_int (d := d) (o := ⟨none, none, .null⟩) hf (by decide) nofun n
  have hzeros : precisionZeros ⟨none, none, .null⟩ (d.numeral 10 n) = 0 := Nat.zero_sub _
  rwa [hzeros, numeral_ten] at h

variable {negative : Bool} {m : ℕ} {e : ℤ}

theorem parts_decimal_integral [Nesting] (hf : d.conversion.family = .integer 10) {h : IsDouble m e}
    (hn : withSign negative (m * 2 ^ e) = n) :
    d.parts none (.float (.finite negative m e h)) = d.parts none (.int n) := by
  refine parts_integer_congr hf ?_ none
  rw [(Value.GivesExactly.float negative h).toInteger, hn, towardZero_intCast]
  rfl

theorem parts_fixed_integral [Nesting] (hf : d.conversion.family = .float .fixed)
    (ha : .alternate ∉ d.flags) {h : IsDouble m e} (hn : withSign negative (m * 2 ^ e) = n) :
    d.parts (some 0) (.float (.finite negative m e h)) =
      .ok ⟨d.sign negative, Numeral.text 10 n.natAbs, true⟩ := by
  have halt : d.alternate = false := by simpa [alternate] using ha
  have hbody : floatBody .fixed d.alternate 0 (.finite negative m e h) =
      Numeral.decimal n.natAbs := by
    rw [floatBody, halt, Binary64.text_fixed_of_eq (shifted_eq_natAbs hn)]
  rw [parts, hf]
  show Except.ok (Parts.mk (d.sign negative)
    (d.inCase (floatBody .fixed d.alternate 0 (.finite negative m e h))) true) = _
  rw [hbody]
  exact congrArg (fun s => Except.ok (Parts.mk (d.sign negative) s true)) (numeral_ten d n)

/-! ## The same output

What has the same parts has the same output, for any width, since filling up does not know which
conversion the parts came from. -/

/-- **A double that is an integer is printed as the integer is**, also where its digits behind the
point are asked for and there shall be none.  The precision that was read is none for the one and
zero for the other.  This holds with any flags but the one for the alternate form, and with any
width that can be filled up to, before or after the output. -/
theorem format_integral [Nesting] (d : Directive) (o : Operands) {c : Conversion}
    (hc : c = .fixed ∨ c = .fixedUpper) (ha : .alternate ∉ d.flags)
    (hw : ∀ w, widthOf o = some w → w.natAbs < 2 ^ 63) {q : SizeOperand} (hq : q.resolve = some 0)
    {h : IsDouble m e} (hn : withSign negative (m * 2 ^ e) = n)
    (hzero : ¬ (negative = true ∧ n = 0)) :
    let x : Value := .float (.finite negative m e h)
    let dd : Directive := { d with conversion := .decimal }
    let df : Directive := { d with conversion := c }
    ∃ t, dd.format { o with precision := none, value := x } = .ok t ∧
      df.format { o with precision := some q, value := x } = .ok t ∧
      dd.format { o with precision := none, value := .int n } = .ok t := by
  intro x dd df
  have hfixed : df.conversion.family = .float .fixed := by rcases hc with rfl | rfl <;> rfl
  have hprecision : precisionOf { o with precision := some q, value := x } = some 0 := by
    rw [precisionOf, Option.bind_some, hq]
    rfl
  have hint : dd.parts none (.int n) = .ok ⟨d.sign negative, Numeral.text 10 n.natAbs, true⟩ := by
    rw [parts_decimal_int rfl, decide_neg_of_withSign_eq hn hzero]
    rfl
  have hdd : dd.parts none x = dd.parts none (.int n) := parts_decimal_integral rfl hn
  have hdf : df.parts (some 0) x = dd.parts none (.int n) :=
    (parts_fixed_integral hfixed ha hn).trans hint.symm
  obtain ⟨t, ht⟩ : ∃ t, dd.format { o with precision := none, value := .int n } = .ok t := by
    rw [format_eq_fillUp dd (o := { o with precision := none, value := .int n }) hw]
    exact ⟨_, congrArg (· >>= _) hint⟩
  refine ⟨t, ?_, ?_, ht⟩
  · rw [← ht]
    exact format_congr_parts rfl rfl rfl hdd
  · rw [← ht]
    exact format_congr_parts rfl rfl rfl ((congrArg (df.parts · x) hprecision).trans hdf)

/-- Minus ten to the twenty-second in a field of thirty, whose zeros stand behind the sign. -/
theorem format_integral_ten_pow :
    let d : Directive := ⟨[], .decimal, none, [.zero, .plus, .grouping], none, none, none⟩
    let o : Operands := ⟨some (.argument (.int 30)), none, .null⟩
    let x : Value := .float (.finite true 4768371582031250 21 (by decide))
    let t : Text := "-00000010000000000000000000000".toList
    d.format { o with value := x } = .ok t ∧
      { d with conversion := .fixedUpper }.format
        { o with precision := some (.literal 0), value := x } = .ok t := by
  intro d o x t
  have hformat : d.format { o with value := .int (-10 ^ 22) } = .ok t := by decide +kernel
  have hwidth : ∀ w, Directive.widthOf o = some w → w.natAbs < 2 ^ 63 := by
    rintro w ⟨⟩
    decide
  have hvalue : withSign true ((4768371582031250 : ℕ) * 2 ^ (21 : ℤ)) = ((-10 ^ 22 : ℤ) : ℚ) := by
    norm_num [withSign]
  obtain ⟨u, hdecimal, hfixed, hint⟩ := format_integral d o (.inr rfl) (by decide) hwidth
    (q := .literal 0) rfl hvalue (by decide)
  obtain rfl : t = u := Except.ok.inj (hformat.symm.trans hint)
  exact ⟨hdecimal, hfixed⟩

end Directive
end Stencil
