import Stencil.Cursor
import Stencil.Coercion.Text

/-!
# Fields

A field is the room that a conversion fills: its width, its precision, the side of the fill and
what the fill is made of.  `Field.fill` is the only place where fill is added: after the output,
or as zeros between its lead (a sign or the marker of a base) and its digits, or as spaces in front
of everything.
-/

set_option autoImplicit false

namespace Stencil

/-- The room that a conversion fills. -/
structure Field where
  width : Option Int
  precision : Option Int
  left : Bool
  zero : Bool
  deriving DecidableEq, Repr

/-- Fill and digits of at least this length cannot be made.

The bound stands on the width, although what is made is only the fill, which is shorter than the
width by the length of the output.  A width from here on that is missed by less than this asks for
fill that no memory holds, and is refused with the others: memory is set aside. -/
def maxFill : Int := 0x8000000000000000

/-- `lead ++ body`, filled up to the width. -/
def fillTo (width : Option Int) (left zero : Bool) (lead body : Text) : Except Fault Text :=
  match width with
  | none => .ok (lead ++ body)
  | some w =>
    if w ≤ ((lead ++ body).length : Int) then .ok (lead ++ body)
    else if maxFill ≤ w then .error .sizeTooLarge
    else
      let missing := w.toNat - (lead ++ body).length
      .ok (
        if left then lead ++ body ++ Text.fill ' ' missing
        else if zero then lead ++ Text.fill '0' missing ++ body
        else Text.fill ' ' missing ++ lead ++ body)

namespace SizeOperand

/-- Reads the size that an operand gives: none where an argument is no finite number. -/
def read : SizeOperand → Except Fault (Option Int)
  | literal n => .ok (some n)
  | argument v => v.toSize.map Coerced.value

/-- The size that an operand gives.  Where it cannot be read, no output is made of it
(`Directive.output`). -/
def resolve (s : SizeOperand) : Option Int :=
  match s.read with
  | .ok n => n
  | .error _ => none

end SizeOperand

namespace Operands

/-- Reads the sizes, the width before the precision. -/
def readSizes (o : Operands) : Except Fault Unit := do
  let _ ← o.width.mapM SizeOperand.read
  let _ ← o.precision.mapM SizeOperand.read

end Operands

namespace Field

/-- The field of a directive with its sizes read.  A negative width asks for fill after the output,
a negative precision is none, and zeros are filled in only in front. -/
def ofOperands (d : Directive) (o : Operands) : Field :=
  let width := o.width.bind SizeOperand.resolve
  let precision := o.precision.bind SizeOperand.resolve
  let left := d.left || width.any (· < 0)
  { width := width.map fun w => (w.natAbs : Int)
    precision := precision.filter (0 ≤ ·)
    left := left
    zero := d.zero && !left }

/-- `lead ++ body`, filled up to the width of the field. -/
def fill (f : Field) (lead body : Text) : Except Fault Text :=
  fillTo f.width f.left f.zero lead body

/-- `body`, filled up to the width of the field with spaces only. -/
def fillSpaces (f : Field) (body : Text) : Except Fault Text :=
  fillTo f.width f.left false [] body

end Field
end Stencil
