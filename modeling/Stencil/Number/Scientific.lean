import Stencil.Number.Binary64
import Stencil.Text.Blank
import Stencil.Text.Digit

/-!
# Decimal floating point numbers

A decimal number keeps the coefficient and the exponent it was written with, so `1E+3` and `1000`
are different decimals of one value.  There are also signed infinities and two kinds of undefined
number, quiet and signaling, that may carry a payload of digits.

`read?` accepts white space around the number, underscores anywhere and digits of every script.
Numbers whose exponent is beyond what the format can hold are refused.
-/

set_option autoImplicit false

namespace Stencil

/-- A decimal floating point number. -/
inductive Scientific where
  /-- The number `± coefficient · 10 ^ exponent`. -/
  | finite (negative : Bool) (coefficient : Nat) (exponent : Int)
  | infinite (negative : Bool)
  /-- Undefined; a payload of zero is none. -/
  | nan (negative signaling : Bool) (payload : Nat)
  deriving DecidableEq, Repr

namespace Scientific

/-! ## Parts -/

/-- Neither infinite nor undefined. -/
def isFinite : Scientific → Bool
  | finite .. => true
  | _ => false

/-- A zero of either sign and any exponent. -/
def isZero : Scientific → Bool
  | finite _ c _ => c = 0
  | _ => false

/-- The place of the first digit of the coefficient. -/
def place (coefficient : Nat) (exponent : Int) : Int :=
  exponent + Numeral.decimalLength coefficient - 1

/-- The integer part of `c · 10 ^ e`.  When no digit stands before the point, it is zero without
computing the power. -/
def floor (c : Nat) (e : Int) : Nat :=
  if 0 ≤ e then c * Nat.pow 10 e.toNat
  else if Numeral.decimalLength c ≤ (-e).toNat then 0
  else c / Nat.pow 10 (-e).toNat

/-- The nearest double; a signaling undefined number has none. -/
def toBinary64? : Scientific → Option Binary64
  | finite negative c e => some (Binary64.ofDecimal negative c e)
  | infinite negative => some (.infinite negative)
  | nan _ signaling _ => if signaling then none else some .nan

/-! ## Writing -/

/-- The text of a decimal: positional while the exponent is not positive and the first digit stands
at most five places after the point, with an exponent otherwise. -/
def text : Scientific → Text
  | infinite negative => (if negative then ['-'] else []) ++ "Infinity".toList
  | nan negative signaling payload =>
    (if negative then ['-'] else []) ++ (if signaling then ['s'] else []) ++ "NaN".toList ++
      (if payload = 0 then [] else Numeral.decimal payload)
  | finite negative c e =>
    let ds := Numeral.decimal c
    let left : Int := e + ds.length
    let point : Int := if e ≤ 0 ∧ -6 < left then left else 1
    let body : Text :=
      if point ≤ 0 then '0' :: '.' :: (Text.fill '0' (-point).toNat ++ ds)
      else if ds.length ≤ point.toNat then ds ++ Text.fill '0' (point.toNat - ds.length)
      else ds.take point.toNat ++ '.' :: ds.drop point.toNat
    let power : Text :=
      if left = point then []
      else 'E' :: (if left < point then '-' else '+') :: Numeral.decimal (left - point).natAbs
    (if negative then ['-'] else []) ++ body ++ power

/-! ## Reading -/

/-- The largest exponent of the first digit. -/
def maxPlace : Int := 999999999999999999

/-- The least exponent of the last digit. -/
def minExponent : Int := -1999999999999999997

/-- A finite decimal, refused when its exponent cannot be held. -/
def finite? (negative : Bool) (c : Nat) (e : Int) : Option Scientific :=
  if e < minExponent then none
  else if maxPlace < place c e then none
  else some (finite negative c e)

/-- The value of a digit run that may be empty. -/
def payload? (s : Text) : Option Nat := (s.mapM Text.digitValue?).map (Numeral.value 10)

/-- An exponent: a letter `e`, an optional sign and one or more digits; or nothing at all. -/
def exponent? : Text → Option Int
  | [] => some 0
  | c :: s =>
    if c = 'e' ∨ c = 'E' then
      match s with
      | '-' :: s => (Text.digitRun? s).map fun ds => -(Numeral.value 10 ds : Int)
      | '+' :: s => (Text.digitRun? s).map fun ds => Numeral.value 10 ds
      | s => (Text.digitRun? s).map fun ds => Numeral.value 10 ds
    else none

/-- The parts of a number in decimal notation: digits before and after the point, and exponent.
There must be a digit on one side of the point. -/
def parts? (s : Text) : Option (List Nat × List Nat × Int) :=
  let (whole, s) := Text.run Text.isDecimalDigit s
  let (fraction, s) : Text × Text :=
    match s with
    | '.' :: s => Text.run Text.isDecimalDigit s
    | s => ([], s)
  if whole.isEmpty && fraction.isEmpty then none
  else (exponent? s).map fun e =>
    (whole.filterMap Text.digitValue?, fraction.filterMap Text.digitValue?, e)

/-- Reads a number without its sign, case ignored for the names of what is not finite. -/
def readUnsigned? (negative : Bool) (s : Text) : Option Scientific :=
  let name := Text.lower s
  if name = "inf".toList ∨ name = "infinity".toList then some (infinite negative)
  else match Text.after? "nan".toList name with
    | some s => (payload? s).map (nan negative false)
    | none =>
      match Text.after? "snan".toList name with
      | some s => (payload? s).map (nan negative true)
      | none => do
        let (whole, fraction, e) ← parts? s
        finite? negative (Numeral.value 10 (whole ++ fraction)) (e - fraction.length)

/-- Reads a decimal number. -/
def read? (s : Text) : Option Scientific :=
  match (Text.trim s).filter (· ≠ '_') with
  | '-' :: s => readUnsigned? true s
  | '+' :: s => readUnsigned? false s
  | s => readUnsigned? false s

end Scientific
end Stencil
