import Stencil.Fault
import Stencil.Numeral.Positional
import Stencil.Text.Blank
import Stencil.Text.Digit

/-!
# Integers written in text

Two notations are read here.

* A **literal** has an optional sign and then either decimal digits of any script or one of the
  markers `0x`, `0o`, `0b` with digits of that base.  It may be of any length.
* A **plain integer** is decimal only, may be surrounded by white space and may have single
  underscores between digits.  It is read only up to `digitLimit` digits, the length up to which
  texts are converted at once; positions, sizes and indices are plain integers.
-/

set_option autoImplicit false

namespace Stencil
namespace Numeral

/-- The most digits a plain integer may have, leading zeros included, and the most digits with
which an integer is written inside another value. -/
def digitLimit : Nat := 4300

/-- The number of a run of decimal digits, within the digit limit. -/
def limited (ds : List Nat) : Except Fault Nat :=
  if ds.length ≤ digitLimit then .ok (value 10 ds) else .error .numeralTooLong

/-- The decimal numeral of an integer, within the digit limit. -/
def limitedText (n : Int) : Except Fault Text :=
  if decimalLength n.natAbs ≤ digitLimit then .ok (signedDecimal n) else .error .numeralTooLong

/-- A text without its sign: whether it is negative, and the rest. -/
def takeSign : Text → Bool × Text
  | '-' :: s => (true, s)
  | '+' :: s => (false, s)
  | s => (false, s)

/-- An integer from its sign and magnitude. -/
def signed (negative : Bool) (n : Nat) : Int := if negative then -n else n

/-! ## Literals -/

/-- The value of an ASCII digit or letter as a digit to a base of at most sixteen. -/
def baseDigit? (b : Nat) (c : Char) : Option Nat :=
  let d :=
    if c.isDigit then c.toNat - '0'.toNat
    else if 'a' ≤ c ∧ c ≤ 'f' then c.toNat - 'a'.toNat + 10
    else if 'A' ≤ c ∧ c ≤ 'F' then c.toNat - 'A'.toNat + 10
    else b
  if d < b then some d else none

/-- The number of one or more digits to the base `b`. -/
def baseValue? (b : Nat) : Text → Option Nat
  | [] => none
  | s => (s.mapM (baseDigit? b)).map (value b)

/-- A literal without its sign. -/
def unsignedLiteral? : Text → Option Nat
  | '0' :: 'x' :: s | '0' :: 'X' :: s => baseValue? 16 s
  | '0' :: 'o' :: s | '0' :: 'O' :: s => baseValue? 8 s
  | '0' :: 'b' :: s | '0' :: 'B' :: s => baseValue? 2 s
  | s => (Text.digitRun? s).map (value 10)

/-- The integer that a literal writes. -/
def literal? (s : Text) : Option Int :=
  (unsignedLiteral? (takeSign s).2).map (signed (takeSign s).1)

/-! ## Plain integers -/

/-- The digits of a text in which single underscores may stand between digits. -/
def groupedDigits? (digit? : Char → Option Nat) : Text → Option (List Nat)
  | [] => none
  | [c] => (digit? c).map ([·])
  | c :: '_' :: s => do return (← digit? c) :: (← groupedDigits? digit? s)
  | c :: s => do return (← digit? c) :: (← groupedDigits? digit? s)

/-- Reads a plain integer with the given blanks and digits. -/
def readPlain (blank : Char → Bool) (digit? : Char → Option Nat) (s : Text) : Except Fault Int :=
  let (negative, body) := takeSign (Text.trimWhere blank s)
  match groupedDigits? digit? body with
  | some ds => (limited ds).map (signed negative)
  | none => .error .malformedInteger

/-- Reads a plain integer. -/
def read (s : Text) : Except Fault Int := readPlain Text.isSpacing Text.digitValue? s

/-- Reads a plain integer in ASCII, from bytes. -/
def readAscii (s : Text) : Except Fault Int :=
  readPlain Text.isAsciiSpacing (baseDigit? 10) s

/-- Reads a plain integer, or a bare run of decimal digits of any length. -/
def readLong (s : Text) : Except Fault Int :=
  match Text.digitRun? s with
  | some ds => .ok (value 10 ds)
  | none => read s

end Numeral
end Stencil
