import Stencil.Proofs.Format.ReadBack
import Stencil.Proofs.Number.HalfEven
import Stencil.Proofs.Numeral.Width

/-!
# Fixed point output

A double with a given number of digits after the point is printed as the decimal number of so many
digits that is nearest to it, and of two that are equally near as the one with the even last digit
(`Directive.format_fixed`).  Nothing is rounded before or after this: the digits before and behind
the point together are one integer (`Layout.digitsValue_fixed`), the scaled double rounded to it.

The sign is the sign of the double, also where all digits are zeros.
-/

set_option autoImplicit false

namespace Stencil

open Rounding

/-! ## Layouts with a fixed number of digits

The whole part and the fraction are quotient and remainder of one integer.  So their digits in a row
are the digits of this integer, if the fraction has its zeros in front. -/

namespace Layout

variable (p : ℕ) (x : Rounding.Quotient)

/-- There are as many digits after the point as are asked for. -/
theorem length_fraction_fixed : (fixed p x).fraction.length = p := by
  simp only [fixed]
  split
  · rename_i hp
    exact hp.symm
  · rename_i hp
    exact Numeral.length_padZeros_decimal (Nat.pos_of_ne_zero hp)
      (Nat.mod_lt _ (Nat.pow_pos (by decide)))

/-- **The digits on both sides of the point are those of one integer.** -/
theorem digitsValue_fixed :
    Text.digitsValue ((fixed p x).whole ++ (fixed p x).fraction) = (x.scale 10 p).round := by
  have hfraction : Text.digitsValue (fixed p x).fraction = (x.scale 10 p).round % 10 ^ p := by
    simp only [fixed]
    split
    · rename_i hp
      rw [hp, pow_zero, Nat.mod_one]
      rfl
    · exact Numeral.digitsValue_padZeros_decimal p _
  have hwhole : Text.digitsValue (fixed p x).whole = (x.scale 10 p).round / 10 ^ p :=
    Numeral.digitsValue_decimal _
  have hdigits : ∀ c ∈ (fixed p x).fraction, Text.isDecimalDigit c := by
    simp only [fixed]
    split
    · exact List.forall_mem_nil _
    · exact fun c hc => Numeral.isDecimalDigit_of_mem_padZeros hc
  rw [Text.digitsValue_append _ hdigits, length_fraction_fixed, hwhole, hfraction, Nat.mul_comm,
    Nat.div_add_mod]

end Layout

/-! ## Output

Without a width the output is the sign and the layout, and the letter case has nothing to change in
digits. -/

namespace Directive

variable {d : Directive} {o : Operands} {negative : Bool} {m : ℕ} {e : ℤ} {h : IsDouble m e} {p : ℕ}

/-- A finite double without a width is a sign and its magnitude. -/
theorem format_float [Nesting] {style : Layout.Style} (hf : d.conversion.family = .float style)
    (hw : widthOf o = none) (hx : o.value = .float (.finite negative m e h))
    (hp : (precisionOf o).elim 6 Int.toNat = p) (hmax : p ≤ 2 ^ 31 - 1) :
    d.format o = .ok (d.sign negative ++
      d.inCase (Layout.text style d.alternate p (Binary64.magnitude m e))) := by
  have htoNat : ((precisionOf o).getD defaultPrecision).toNat = p := by
    rw [← hp]
    cases precisionOf o <;> rfl
  have hle : ¬ maxPrecision < (precisionOf o).getD defaultPrecision := by
    have hbound : maxPrecision = 2 ^ 31 - 1 := rfl
    omega
  rw [format_of_widthOf_eq_none d hw, hx, parts, hf]
  simp only [if_neg hle, htoNat]
  rfl

/-- The letter case matters for the exponent only. -/
theorem inCase_render {f : Layout.Form} (hf : Json.IsProper f) (keepPoint : Bool) :
    d.inCase (f.render keepPoint) =
      f.whole ++ (if f.fraction.isEmpty && !keepPoint then [] else '.' :: f.fraction) ++
        f.exponent.elim [] fun e => d.inCase (Layout.Form.exponentText e) := by
  have hwhole : d.inCase f.whole = f.whole :=
    inCase_eq_self fun c hc => toUpper_of_isDigit (hf.whole.isDigits.2 c hc)
  have hfraction : d.inCase ('.' :: f.fraction) = '.' :: f.fraction := by
    refine inCase_eq_self fun c hc => ?_
    rcases List.mem_cons.1 hc with rfl | hc
    · rfl
    · exact toUpper_of_isDigit (hf.fraction c hc)
  have hpoint : d.inCase (if f.fraction.isEmpty && !keepPoint then [] else '.' :: f.fraction) =
      if f.fraction.isEmpty && !keepPoint then [] else '.' :: f.fraction := by
    split
    · exact inCase_nil d
    · exact hfraction
  rw [Layout.Form.render, inCase_append, inCase_append, hwhole, hpoint]
  cases f.exponent with
  | none => rw [inCase_nil, Option.elim_none]
  | some e => rfl

/-- **Fixed point output is correctly rounded.**  It has the sign of the double, an integer part
without a superfluous zero in front, and as many digits after the point as the precision says; and
all its digits, as one number, are what the double, scaled by a power of ten, is rounded to. -/
theorem format_fixed [Nesting] (d : Directive) (o : Operands)
    (hc : d.conversion = .fixed ∨ d.conversion = .fixedUpper) (hw : widthOf o = none)
    (hx : o.value = .float (.finite negative m e h))
    (hp : (precisionOf o).elim 6 Int.toNat = p) (hmax : p ≤ 2 ^ 31 - 1) :
    ∃ whole fraction,
      d.format o = .ok (
        (if negative then ['-'] else if .plus ∈ d.flags then ['+']
          else if .space ∈ d.flags then [' '] else []) ++ whole ++
          if p = 0 ∧ .alternate ∉ d.flags then [] else '.' :: fraction) ∧
      Json.IsWhole whole ∧ fraction.length = p ∧ (∀ c ∈ fraction, c.isDigit) ∧
      IsNearest (m * 2 ^ e * 10 ^ p) (Text.digitsValue (whole ++ fraction)) := by
  have hfamily : d.conversion.family = .float .fixed := by
    rcases hc with hc | hc <;> rw [hc] <;> rfl
  have hproper := Json.isProper_fixed p (Binary64.magnitude m e)
  have hlength := Layout.length_fraction_fixed p (Binary64.magnitude m e)
  have hvalue := Layout.digitsValue_fixed p (Binary64.magnitude m e)
  refine ⟨_, _, ?_, hproper.whole, hlength, hproper.fraction, ?_⟩
  · have hpoint : ((Layout.fixed p (Binary64.magnitude m e)).fraction.isEmpty && !d.alternate) =
        true ↔ p = 0 ∧ .alternate ∉ d.flags := by
      rw [Bool.and_eq_true, List.isEmpty_iff, ← List.length_eq_zero_iff, hlength]
      simp [alternate]
    rw [format_float hfamily hw hx hp hmax, Layout.text, inCase_render hproper, sign]
    simp only [hpoint, List.contains_iff_mem]
    simp only [Layout.fixed, Option.elim_none, List.append_nil, List.append_assoc]
  · have hnearest := Quotient.isNearest_round_scale (Binary64.magnitude_den_pos m e) p
    rwa [Binary64.value_magnitude, zpow_natCast, ← hvalue] at hnearest

/-- A quarter lies halfway between two tenths, and the even one is below it. -/
theorem format_fixed_tie :
    let d : Directive := ⟨"%+.1f".toList, .fixed, none, [.plus], none, some (.literal 1), none⟩
    let o : Operands :=
      ⟨none, some (.literal 1), .float (.finite true 0x10000000000000 (-54) (by decide))⟩
    d.format o = .ok "-0.2".toList ∧
      IsNearest ((0x10000000000000 : ℕ) * 2 ^ (-54 : ℤ) * 10 ^ 1) 2 := by
  intro d o
  have hformat : d.format o = .ok "-0.2".toList := by decide +kernel
  obtain ⟨whole, fraction, hf, -, hlength, -, hnearest⟩ :=
    format_fixed d o (.inl rfl) rfl rfl (p := 1) rfl (by decide)
  rw [if_pos rfl, if_neg (fun h => absurd h.1 one_ne_zero), hformat] at hf
  have htext : ['0'] ++ ['.', '2'] = whole ++ '.' :: fraction :=
    (List.cons.inj (Except.ok.inj hf)).2
  obtain ⟨c, rfl⟩ := List.length_eq_one_iff.1 hlength
  obtain ⟨rfl, hpoint⟩ := List.append_inj' htext rfl
  cases hpoint
  exact ⟨hformat, hnearest⟩

end Directive
end Stencil
