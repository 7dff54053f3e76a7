import Stencil.Number.Shortest

/-!
# Decimal layouts of doubles

A number is laid out as a whole part, a fraction and possibly an exponent.  The three layouts of
a conversion take the number of digits from the directive and round the exact value once, ties to
even:

* `fixed p` has `p` digits after the point;
* `exponential p` has one digit before the point and `p` after it;
* `general p` has `p` significant digits and takes the exponential layout when the exponent is
  below -4 or not below `p`; unless the alternate form is asked for, it drops the zeros at the end
  of the fraction.

`display` is the layout of a number inside a text: the shortest digits that read back, without an
exponent from `10 ^ -4` up to but not including `10 ^ 16`.
-/

set_option autoImplicit false

namespace Stencil
namespace Layout

open Rounding

/-- The parts of a number that is laid out in decimal. -/
structure Form where
  whole : Text
  fraction : Text
  exponent : Option Int
  deriving DecidableEq, Repr

namespace Form

/-- An exponent: its sign is always written, and at least two digits. -/
def exponentText (e : Int) : Text :=
  'e' :: (if e < 0 then '-' else '+') :: Numeral.padZeros 2 (Numeral.decimal e.natAbs)

/-- The text of a form.  A point without a fraction is written only on demand. -/
def render (keepPoint : Bool) (f : Form) : Text :=
  f.whole ++ (if f.fraction.isEmpty && !keepPoint then [] else '.' :: f.fraction) ++
    (match f.exponent with
      | some e => exponentText e
      | none => [])

/-- A form without the zeros at the end of its fraction. -/
def dropZeros (f : Form) : Form :=
  { f with fraction := (f.fraction.reverse.dropWhile (· = '0')).reverse }

end Form

/-! ## Given numbers of digits -/

/-- The layout with `p` digits after the point. -/
def fixed (p : Nat) (x : Quotient) : Form :=
  let n := (x.scale 10 p).round
  { whole := Numeral.decimal (n / Nat.pow 10 p)
    fraction := if p = 0 then [] else Numeral.padZeros p (Numeral.decimal (n % Nat.pow 10 p))
    exponent := none }

/-- The number rounded to `p + 1` significant digits: these digits as an integer, and the place of
the first.  Rounding up to a power of ten moves the place. -/
def significant (p : Nat) (x : Quotient) : Nat × Int :=
  if x.num = 0 then (0, 0)
  else
    let place := x.decimalPlace
    let n := (x.scale 10 (p - place)).round
    if n = Nat.pow 10 (p + 1) then (Nat.pow 10 p, place + 1) else (n, place)

/-- The layout with one digit before the point and `p` after it. -/
def exponential (p : Nat) (x : Quotient) : Form :=
  let (n, place) := significant p x
  let ds := Numeral.padZeros (p + 1) (Numeral.decimal n)
  { whole := ds.take 1, fraction := ds.drop 1, exponent := some place }

/-- The layout with `p` significant digits, at least one, zeros at the end included. -/
def generalFull (p : Nat) (x : Quotient) : Form :=
  let last := p - 1
  let place := (significant last x).2
  if -4 ≤ place ∧ place ≤ last then fixed (last - place).toNat x else exponential last x

/-- More significant digits than any double needs, wherever its first digit stands. -/
def enoughDigits : Nat := 1400

/-- The layout with `p` significant digits, zeros at the end of the fraction kept on demand.  Where
they are not kept, digits that no double needs are not worked out in the first place. -/
def general (keepZeros : Bool) (p : Nat) (x : Quotient) : Form :=
  if keepZeros then generalFull p x else (generalFull (min p enoughDigits) x).dropZeros

/-- The three layouts a directive can ask for. -/
inductive Style where
  | fixed
  | exponential
  | general
  deriving DecidableEq, Repr

/-- The text of a magnitude in a style with a precision. -/
def text (style : Style) (alternate : Bool) (p : Nat) (x : Quotient) : Text :=
  match style with
  | .fixed => (fixed p x).render alternate
  | .exponential => (exponential p x).render alternate
  | .general => (general alternate p x).render alternate

/-! ## The shortest digits -/

/-- The form of `n · 10 ^ k`, zeros at the end of `n` dropped. -/
def shortForm (n : Nat) (k : Int) : Form :=
  let all := Numeral.decimal n
  let ds := (all.reverse.dropWhile (· = '0')).reverse
  let point : Int := all.length + k
  if -4 < point ∧ point ≤ 16 then
    if point ≤ 0 then ⟨['0'], Text.fill '0' (-point).toNat ++ ds, none⟩
    else
      let whole := point.toNat
      ⟨ds.take whole ++ Text.fill '0' (whole - ds.length), ds.drop whole, none⟩
  else ⟨ds.take 1, ds.drop 1, some (point - 1)⟩

/-- The sign of a number as it is displayed. -/
def signText (negative : Bool) : Text := if negative then ['-'] else []

/-- A double as it is displayed.  A whole number without an exponent may be given the fraction
`.0` to set it off from an integer. -/
def display (setOff : Bool) : Binary64 → Text
  | .nan => "nan".toList
  | .infinite negative => signText negative ++ "inf".toList
  | .finite negative m e _ =>
    let form := if m = 0 then ⟨['0'], [], none⟩ else
      shortForm (Shortest.shortest m e).1 (Shortest.shortest m e).2
    let form := if setOff && form.fraction.isEmpty && form.exponent.isNone then
      { form with fraction := ['0'] } else form
    signText negative ++ form.render false

end Layout
end Stencil
