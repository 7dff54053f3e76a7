import Stencil.Coercion.Basic
import Stencil.Json.Writer

/-!
# Arguments as numbers

`toInteger` reads an argument as an exact integer, cutting off a fraction; `toFloat` reads it as
the nearest double; `toSize` reads it as a width or precision, which is none at all when the
argument is no finite number.

Texts are read as literals of any length first.  What is not a literal is read as a decimal number
by `toInteger`, provided its integer part has at most `maxDecimalDigits` digits, and as a double by
`toFloat`.  The empty text is zero.
-/

set_option autoImplicit false

namespace Stencil

/-- The most integer digits of a decimal number that is read as an integer. -/
def maxDecimalDigits : Nat := 100000

/-! ## Integers -/

/-- The integer part of a decimal number with few enough digits. -/
def Scientific.toInteger? : Scientific → Option Int
  | finite negative c e =>
    if maxDecimalDigits ≤ place c e then none else some (Numeral.signed negative (floor c e))
  | _ => none

/-- The text of a number without the blanks around it and without underscores. -/
def Text.plain (s : Text) : Text := (Text.trim s).filter (· ≠ '_')

/-- The integer that a text writes, as a literal or as a decimal number. -/
def Text.toInteger? (s : Text) : Option Int :=
  let s := Text.plain s
  if s.isEmpty then some 0
  else match Numeral.literal? s with
    | some n => some n
    | none => (Scientific.read? s).bind Scientific.toInteger?

namespace Value

/-- Reads an object as an integer: the one it stands for, or else the integer part of its double, if
it counts as a real number.  An exception other than for a wrong type is not held back where the
integer is asked for, and more of them are where the double is. -/
def foreignInteger (o : Foreign) : Except Fault (Coerced Int) :=
  Fault.catching ErrorClass.isNoInteger (o.toInt.map .good)
    (if o.isReal then
      Fault.catching ErrorClass.isNoNumber
        (o.toDouble.map fun x => .ofOption 0 x.truncate?) (.ok (.fallback 0))
    else .ok (.fallback 0))

/-- Reads an argument as an integer.  Only an exception of an object makes this fail. -/
def toInteger : Value → Except Fault (Coerced Int)
  | int n => .ok (.good n)
  | bool b => .ok (.good b.toInt)
  | float x => .ok (.ofOption 0 x.truncate?)
  | text s => .ok (.ofOption 0 s.toInteger?)
  | bytes false bs => .ok (.ofOption 0 (Utf8.decode bs).toInteger?)
  | scientific x => .ok (.ofOption 0 x.toInteger?)
  | fraction x => .ok (.good (x.num.tdiv x.den))
  | object o => foreignInteger o
  | _ => .ok (.fallback 0)

end Value

/-! ## Doubles -/

namespace Binary64

/-- A digit or an underscore. -/
def isGroupChar (c : Char) : Bool := Text.isDecimalDigit c || c = '_'

/-- The digits of a part of a number; the empty part has none. -/
def groupDigits? (s : Text) : Option (List Nat) :=
  if s.isEmpty then some [] else Numeral.groupedDigits? Text.digitValue? s

/-- An exponent: a letter `e`, an optional sign and digits; or nothing at all. -/
def exponent? : Text → Option Int
  | [] => some 0
  | c :: s =>
    if c = 'e' ∨ c = 'E' then
      (Numeral.groupedDigits? Text.digitValue? (Numeral.takeSign s).2).map fun ds =>
        Numeral.signed (Numeral.takeSign s).1 (Numeral.value 10 ds)
    else none

/-- Reads a number without its sign: a name of what is not finite, or decimal notation. -/
def readUnsigned? (negative : Bool) (s : Text) : Option Binary64 :=
  let name := Text.lower s
  if name = "inf".toList ∨ name = "infinity".toList then some (infinite negative)
  else if name = "nan".toList then some nan
  else do
    let (whole, s) := Text.run isGroupChar s
    let (fraction, s) : Text × Text :=
      match s with
      | '.' :: s => Text.run isGroupChar s
      | s => ([], s)
    let ds := (← groupDigits? whole) ++ (← groupDigits? fraction)
    if ds.isEmpty then none
    let e ← exponent? s
    return ofDecimal negative (Numeral.value 10 ds) (e - (← groupDigits? fraction).length)

/-- Reads a double in decimal notation.  A single underscore may stand between two digits. -/
def read? (s : Text) : Option Binary64 :=
  readUnsigned? (Numeral.takeSign s).1 (Numeral.takeSign s).2

/-- Reads a double from the characters of bytes, with ASCII blanks around it. -/
def readAscii? (s : Text) : Option Binary64 := read? (Text.trimWhere Text.isAsciiSpacing s)

end Binary64

/-- The double nearest to what a text writes, as a literal or in decimal notation. -/
def Text.toFloat? (s : Text) : Option Binary64 :=
  let s := Text.trim s
  if s.isEmpty then some (Binary64.zero false)
  else match Numeral.literal? (s.filter (· ≠ '_')) with
    | some n => some (Binary64.ofInt n)
    | none => Binary64.read? s

namespace Value

/-- A double that is finite. -/
def finite? (x : Binary64) : Option Binary64 := if x.isFinite then some x else none

/-- Reads an argument as a double.  Only an exception of an object makes this fail. -/
def toFloat : Value → Except Fault (Coerced Binary64)
  | float x => .ok (.good x)
  | int n => .ok (.good (.ofInt n))
  | bool b => .ok (.good (.ofInt b.toInt))
  | text s => .ok (.ofOption (.zero false) s.toFloat?)
  | bytes false bs => .ok (.ofOption (.zero false) (Utf8.decode bs).toFloat?)
  | bytes true bs => .ok (.ofOption (.zero false) (Binary64.readAscii? (bs.map Quoted.byteChar)))
  | scientific x => .ok (.ofOption (.zero false) x.toBinary64?)
  | fraction x => .ok (.ofOption (.zero false) (finite? (Json.ofFraction x)))
  | object o => Coerced.guarded ErrorClass.isNoNumber (.zero false) o.toDouble
  | _ => .ok (.fallback (.zero false))

/-- Reads an argument as a width or precision. -/
def toSize (v : Value) : Except Fault (Coerced (Option Int)) := do
  let x ← v.toFloat
  if x.ok then
    match x.value.truncate? with
    | some n => return .good (some n)
    | none => return .fallback none
  else return .fallback none

end Value
end Stencil
