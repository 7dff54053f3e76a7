import Stencil.Numeral.Positional

/-!
# Rounding a quotient

Exact arithmetic on a quotient of natural numbers: rounding it to the nearest integer, scaling it
by a power of a base, and finding the place of its first digit.  Both the reading of numbers into
doubles and the printing of doubles in decimal rest on these three.
-/

set_option autoImplicit false

namespace Stencil
namespace Rounding

/-- The integer nearest to `num / den`, the even one of two that are equally near. -/
def nearest (num den : Nat) : Nat :=
  let q := num / den
  let r := num % den
  if 2 * r < den then q else if den < 2 * r then q + 1 else if q % 2 = 0 then q else q + 1

/-- A quotient of natural numbers, not necessarily in lowest terms. -/
structure Quotient where
  num : Nat
  den : Nat
  deriving DecidableEq, Repr

namespace Quotient

/-- The quotient times `b ^ e`. -/
def scale (b : Nat) (e : Int) (x : Quotient) : Quotient :=
  ⟨x.num * Nat.pow b e.toNat, x.den * Nat.pow b (-e).toNat⟩

/-- `x ≤ y` for quotients with positive denominators. -/
def le (x y : Quotient) : Bool := x.num * y.den ≤ y.num * x.den

/-- The integer nearest to the quotient, ties to even. -/
def round (x : Quotient) : Nat := nearest x.num x.den

/-- The integer part of the quotient. -/
def floor (x : Quotient) : Nat := x.num / x.den

/-- The place of the first digit to the base `b`: the largest `e` with `b ^ e ≤ x`, found from
the guess that the numbers of digits of numerator and denominator give. -/
def leadingPlace (b : Nat) (length : Nat → Nat) (x : Quotient) : Int :=
  let guess : Int := (length x.num : Int) - length x.den
  if le (scale b guess ⟨1, 1⟩) x then guess else guess - 1

/-- The place of the first decimal digit of a positive quotient. -/
def decimalPlace (x : Quotient) : Int := leadingPlace 10 Numeral.decimalLength x

/-- The place of the first binary digit of a positive quotient. -/
def binaryPlace (x : Quotient) : Int := leadingPlace 2 Nat.log2 x

end Quotient
end Rounding
end Stencil
