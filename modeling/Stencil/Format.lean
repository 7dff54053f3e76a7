import Stencil.Field
import Stencil.Template

/-!
# Formatting

`format template args` replaces each directive of the template by its argument, converted as the
directive asks; `formatWith` takes the arguments from a value that can be gone through.  Arguments
that are missing or of the wrong kind are converted from a default, so faults come from sizes and
numbers beyond the limits, and from arguments that raise exceptions of their own.
-/

set_option autoImplicit false

namespace Stencil

/-! ## Conversions -/

/-- The families of conversions, which share their rules. -/
inductive Family where
  | text
  | integer (base : Nat)
  | float (style : Layout.Style)
  | char
  | truth
  | json
  deriving DecidableEq, Repr

/-- The family of a conversion. -/
def Conversion.family : Conversion → Family
  | string => .text
  | decimal | integer | unsigned => .integer 10
  | octal => .integer 8
  | hex | hexUpper => .integer 16
  | binary | binaryUpper => .integer 2
  | fixed | fixedUpper => .float .fixed
  | exponent | exponentUpper => .float .exponential
  | shortest | shortestUpper => .float .general
  | char => .char
  | boolean | booleanUpper => .truth
  | json | jsonUpper => .json

/-- The marker of a base. -/
def baseMarker : Nat → Text
  | 2 => ['0', 'b']
  | 8 => ['0']
  | 16 => ['0', 'x']
  | _ => []

namespace Directive

/-- A text in the letter case of the directive. -/
def inCase (d : Directive) (s : Text) : Text := if d.conversion.isUpper then s.upper else s

/-- A text, cut to the precision. -/
def formatText (f : Field) (s : Text) : Except Fault Text :=
  f.fill [] (match f.precision with
    | some p => s.take p.toNat
    | none => s)

/-- The digits of a magnitude, with zeros in front up to the precision. -/
def integerDigits (base : Nat) (precision : Option Int) (n : Nat) : Except Fault Text :=
  match precision with
  | some p =>
    if maxFill ≤ p then .error .sizeTooLarge
    else .ok (Numeral.padZeros p.toNat (Numeral.text base n))
  | none => .ok (Numeral.text base n)

/-- What stands before the digits of an integer: a sign in base ten; in another base its marker, if
the alternate form is asked for, the integer is not zero, and an octal numeral does not begin with
a zero already. -/
def integerLead (d : Directive) (base : Nat) (n : Int) (digits : Text) : Text :=
  if base = 10 then d.sign (n < 0)
  else if d.alternate && n ≠ 0 && !(base = 8 && digits.head? = some '0') then baseMarker base
  else []

/-- An integer in a base.  Only in base ten is its sign written. -/
def formatInteger (d : Directive) (f : Field) (base : Nat) (n : Int) : Except Fault Text := do
  let digits ← integerDigits base f.precision n.natAbs
  f.fill (d.inCase (d.integerLead base n digits)) (d.inCase digits)

/-- The precision of a floating point conversion that has none. -/
def defaultPrecision : Int := 6

/-- The largest precision of a floating point conversion. -/
def maxPrecision : Int := 0x7fffffff

/-- The magnitude of a double in a style. -/
def floatBody (style : Layout.Style) (alternate : Bool) (p : Nat) : Binary64 → Text
  | .finite _ m e _ => Layout.text style alternate p (Binary64.magnitude m e)
  | .infinite _ => "inf".toList
  | .nan => "nan".toList

/-- A double in a style.  Zeros are filled in only in front of digits. -/
def formatFloat (d : Directive) (f : Field) (style : Layout.Style) (x : Binary64) :
    Except Fault Text :=
  let p := f.precision.getD defaultPrecision
  if maxPrecision < p then .error .precisionTooLarge
  else
    { f with zero := f.zero && x.isFinite }.fill (d.sign x.isNegative)
      (d.inCase (floatBody style d.alternate p.toNat x))

/-- The words for a truth value. -/
def truthText (d : Directive) (b : Bool) : Text :=
  d.inCase
    (if d.alternate then (if b then "yes".toList else "no".toList) else Json.boolText b)

/-- A value in a field, converted as the directive asks. -/
def formatValue [Nesting] (d : Directive) (f : Field) (v : Value) : Except Fault Text :=
  match d.conversion.family with
  | .text => do formatText f (← v.toText).value
  | .integer base => do d.formatInteger f base (← v.toInteger).value
  | .float style => do d.formatFloat f style (← v.toFloat).value
  | .char => do f.fillSpaces [(← v.toChar).value]
  | .truth => do f.fill [] (d.truthText (← v.toTruth).value)
  | .json => do f.fillSpaces (← v.toJson).value

/-- The output of a directive for what it reads, once its sizes have been read. -/
def format [Nesting] (d : Directive) (o : Operands) : Except Fault Text :=
  d.formatValue (Field.ofOperands d o) o.value

/-- The output of a directive for what it reads: its sizes first, and then its value. -/
def output [Nesting] (d : Directive) (o : Operands) : Except Fault Text := do
  o.readSizes
  d.format o

end Directive

/-! ## Templates -/

namespace Item

/-- What an item reads, and the cursor after it. -/
def operands (c : Cursor) : Item → Option Operands × Cursor
  | directive d => (some (d.operands c).1, (d.operands c).2)
  | _ => (none, c)

/-- The output of an item, and the cursor after it. -/
def format [Nesting] (c : Cursor) : Item → Except Fault (Text × Cursor)
  | literal s => .ok (s, c)
  | escape => .ok (['%'], c)
  | directive d => do return (← d.output (d.operands c).1, (d.operands c).2)

end Item

namespace Lexeme

/-- The output of lexemes one after the other.  Each is understood only when it is reached. -/
def formatAll [Nesting] : List Lexeme → Cursor → Except Fault Text
  | [], _ => .ok []
  | l :: ls, c => do
    let item ← l.decode
    let (s, c) ← item.format c
    return s ++ (← formatAll ls c)

end Lexeme

/-- A template with its directives replaced by the arguments. -/
def format [Nesting] (template : Text) (args : List Value) : Except Fault Text :=
  Lexeme.formatAll (Lexeme.ofTemplate template) (Cursor.start args)

/-- A template with its directives replaced by the items of a value.  The value is not looked at
when there is no percent sign in the template. -/
def formatWith [Nesting] (template : Text) (args : Value) : Except Fault Text :=
  if '%' ∈ template then do format template (← args.items) else .ok template

end Stencil
