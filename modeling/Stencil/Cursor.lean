import Stencil.Directive.Basic
import Stencil.Value.Basic

/-!
# Reading arguments

A cursor goes through the arguments of one template.  A directive reads an argument by position or
takes the next one; reading by position does not move the cursor, and an argument that does not
exist is missing, not a fault.

`Directive.operands` collects all that one directive reads, in the order width, precision, value.
How far the cursor moves depends on the directive alone and never on the values read.
-/

set_option autoImplicit false

namespace Stencil

/-- The arguments of a template, and how many have been taken in order. -/
structure Cursor where
  values : List Value
  offset : Nat
  deriving Repr

namespace Cursor

/-- A cursor before the first argument. -/
def start (values : List Value) : Cursor := ⟨values, 0⟩

/-- The argument at a position counted from one, and null where there is none. -/
def get (c : Cursor) (position : Int) : Value :=
  if 1 ≤ position then c.values.getD (position.toNat - 1) .null else .null

/-- The next argument, and the cursor after it. -/
def next (c : Cursor) : Value × Cursor :=
  let c := { c with offset := c.offset + 1 }
  (c.get c.offset, c)

end Cursor

/-- Where the value of a width or precision comes from. -/
inductive SizeOperand where
  | literal (n : Int)
  | argument (v : Value)
  deriving Repr

/-- What a directive reads. -/
structure Operands where
  width : Option SizeOperand
  precision : Option SizeOperand
  value : Value
  deriving Repr

namespace Size

/-- Reads a size. -/
def operand (c : Cursor) : Size → SizeOperand × Cursor
  | literal n => (.literal n, c)
  | argument position => (.argument (c.get position), c)
  | next => (.argument c.next.1, c.next.2)

/-- Reads a size that may be missing. -/
def operand? (c : Cursor) : Option Size → Option SizeOperand × Cursor
  | some s => (some (s.operand c).1, (s.operand c).2)
  | none => (none, c)

end Size

namespace Directive

/-- Reads the value of a directive. -/
def value (d : Directive) (c : Cursor) : Value × Cursor :=
  match d.position with
  | some n => (c.get n, c)
  | none => c.next

/-- Reads width, precision and value, in this order. -/
def operands (d : Directive) (c : Cursor) : Operands × Cursor :=
  let width := Size.operand? c d.width
  let precision := Size.operand? width.2 d.precision
  let value := d.value precision.2
  (⟨width.1, precision.1, value.1⟩, value.2)

end Directive
end Stencil
