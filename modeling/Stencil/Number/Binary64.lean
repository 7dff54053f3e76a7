import Stencil.Number.Rounding

/-!
# Double precision numbers

A double is not a number, an infinity, or a sign with a significand below `2 ^ 53` and a binary
exponent.  The representation is unique: the significand uses all 53 bits unless the exponent is
the least one.  All arithmetic on doubles in this library is exact arithmetic on significand and
exponent; `nearest` is the one place where a number is rounded to a double.
-/

set_option autoImplicit false

namespace Stencil

/-- `m · 2 ^ e` is how a finite double represents its magnitude: `m` is below `2 ^ 53`, and at
least `2 ^ 52` unless the exponent is the least one. -/
abbrev IsDouble (m : Nat) (e : Int) : Prop :=
  m < 0x20000000000000 ∧ -1074 ≤ e ∧ e ≤ 971 ∧ (0x10000000000000 ≤ m ∨ e = -1074)

/-- A double precision number. -/
inductive Binary64 where
  /-- The number `± m · 2 ^ e`. -/
  | finite (negative : Bool) (m : Nat) (e : Int) (isDouble : IsDouble m e)
  | infinite (negative : Bool)
  | nan
  deriving DecidableEq, Repr

namespace Binary64

open Rounding

/-! ## The interchange format -/

/-- The double with the given 64 bits. -/
def ofBits (w : Nat) : Binary64 :=
  let negative : Bool := w / 0x8000000000000000 % 2 = 1
  let field : Nat := w / 0x10000000000000 % 2048
  let fraction : Nat := w % 0x10000000000000
  if h : field = 2047 then (if fraction = 0 then infinite negative else nan)
  else if h' : field = 0 then finite negative fraction (-1074) (by omega)
  else finite negative (0x10000000000000 + fraction) ((field : Int) - 1075) (by omega)

/-- The 64 bits of a double; `nan` has the quiet bit set. -/
def toBits : Binary64 → Nat
  | finite negative m e _ =>
    negative.toNat * 0x8000000000000000 +
      (if m < 0x10000000000000 then m
        else (e + 1075).toNat * 0x10000000000000 + (m - 0x10000000000000))
  | infinite negative => negative.toNat * 0x8000000000000000 + 2047 * 0x10000000000000
  | nan => 2047 * 0x10000000000000 + 0x8000000000000

/-! ## Parts -/

/-- Zero, with a sign. -/
def zero (negative : Bool) : Binary64 := finite negative 0 (-1074) (by decide)

/-- Neither infinite nor undefined. -/
def isFinite : Binary64 → Bool
  | finite .. => true
  | _ => false

/-- Below zero, or the negative zero, or the negative infinity. -/
def isNegative : Binary64 → Bool
  | finite negative .. => negative
  | infinite negative => negative
  | nan => false

/-- One of the two zeros. -/
def isZero : Binary64 → Bool
  | finite _ m _ _ => m = 0
  | _ => false

/-- `m · 2 ^ e` as a quotient. -/
def magnitude (m : Nat) (e : Int) : Quotient := Quotient.scale 2 e ⟨m, 1⟩

/-- The integer part of a finite double, towards zero. -/
def truncate? : Binary64 → Option Int
  | finite negative m e _ =>
    let n : Int := (magnitude m e).floor
    some (if negative then -n else n)
  | _ => none

/-! ## Rounding to a double -/

/-- The double `± m · 2 ^ e`, or the infinity where the exponent is too large. -/
def ofParts (negative : Bool) (m : Nat) (e : Int) : Binary64 :=
  if h : IsDouble m e then finite negative m e h else infinite negative

/-- The double nearest to a positive quotient, the even one of two that are equally near, with the
given sign; infinite from halfway past the largest double on. -/
def nearest (negative : Bool) (x : Quotient) : Binary64 :=
  if x.num = 0 then zero negative
  else
    let e := max (x.binaryPlace - 52) (-1074)
    let m := (x.scale 2 (-e)).round
    if m = 0x20000000000000 then ofParts negative 0x10000000000000 (e + 1) else ofParts negative m e

/-- The double nearest to an integer. -/
def ofInt (n : Int) : Binary64 := nearest (n < 0) ⟨n.natAbs, 1⟩

/-- The double nearest to `± coefficient · 10 ^ exponent`.  Exponents far outside the range of
doubles are decided without computing the power. -/
def ofDecimal (negative : Bool) (coefficient : Nat) (exponent : Int) : Binary64 :=
  if coefficient = 0 then zero negative
  else if 400 < exponent then infinite negative
  else if exponent + Numeral.decimalLength coefficient < -400 then zero negative
  else nearest negative (Quotient.scale 10 exponent ⟨coefficient, 1⟩)

end Binary64
end Stencil
