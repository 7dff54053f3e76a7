import Stencil.Text.Basic

/-!
# Positional numerals

Digits of a number to a base, and the number of given digits, for numbers of any length.  Both
directions work by halves, so that numbers with hundreds of thousands of digits stay cheap:

* `digits b n` splits `n` at the power `b ^ 2 ^ k`, and so on down to single digits;
* `value b ds` joins neighbouring digits to digits of the base `b ^ 2`, and so on until one is
  left.
-/

set_option autoImplicit false

namespace Stencil
namespace Numeral

/-! ## From numbers to digits -/

/-- The weight `b ^ 2 ^ k` of the upper half of `2 ^ (k + 1)` digits. -/
def halfWeight (b k : Nat) : Nat := Nat.pow b (Nat.pow 2 k)

/-- The last `2 ^ k` digits of `n`, zeros in front included. -/
def lowDigits (b : Nat) : (k n : Nat) → List Nat
  | 0, n => [n]
  | k + 1, n => lowDigits b k (n / halfWeight b k) ++ lowDigits b k (n % halfWeight b k)

/-- The digits of a number below `b ^ 2 ^ k`, without zeros in front. -/
def digitsBelow (b : Nat) : (k n : Nat) → List Nat
  | 0, n => [n]
  | k + 1, n =>
    if n < halfWeight b k then digitsBelow b k n
    else digitsBelow b k (n / halfWeight b k) ++ lowDigits b k (n % halfWeight b k)

/-- The digits of `n` to the base `b ≥ 2`, most significant first.  Zero has one digit. -/
def digits (b n : Nat) : List Nat := digitsBelow b (n.log2.log2 + 1) n

/-- A numeral: the digits of `n` as characters, letters in lower case. -/
def text (b n : Nat) : Text := (digits b n).map Nat.digitChar

/-- The decimal numeral of `n`. -/
def decimal (n : Nat) : Text := text 10 n

/-- The decimal numeral of an integer, with a minus sign if it is negative. -/
def signedDecimal (n : Int) : Text :=
  if n < 0 then '-' :: decimal n.natAbs else decimal n.natAbs

/-- The numeral of an integer to one of the bases two, eight and sixteen, or else to base ten. -/
def signedText (base n : Int) : Text :=
  let b := if base = 2 then 2 else if base = 8 then 8 else if base = 16 then 16 else 10
  if n < 0 then '-' :: text b n.natAbs else text b n.natAbs

/-- The number of decimal digits of `n`. -/
def decimalLength (n : Nat) : Nat := (digits 10 n).length

/-! ## From digits to numbers -/

/-- Joins neighbouring digits, least significant first, to digits of the squared base. -/
def joinPairs (b : Nat) : List Nat → List Nat
  | low :: high :: ds => (low + high * b) :: joinPairs b ds
  | ds => ds

/-- The value of digits, least significant first, after joining them at most `rounds` times. -/
def joinAll : (rounds b : Nat) → List Nat → Nat
  | 0, _, ds => ds.headD 0
  | rounds + 1, b, ds => joinAll rounds (b * b) (joinPairs b ds)

/-- The value of digits to the base `b`, most significant first. -/
def value (b : Nat) (ds : List Nat) : Nat := joinAll (ds.length.log2 + 1) b ds.reverse

/-! ## Fixed width -/

/-- `s` with zeros in front, up to `width` characters. -/
def padZeros (width : Nat) (s : Text) : Text := Text.fill '0' (width - s.length) ++ s

end Numeral
end Stencil
