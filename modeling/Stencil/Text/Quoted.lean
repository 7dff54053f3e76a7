import Stencil.Text.Printable

/-!
# Quoted texts

A quoted text shows a value unambiguously inside brackets or in a diagnostic.  It stands between
single quotes, or between double quotes when it holds a single quote and no double one.  The
backslash and the enclosing quote are escaped, as are line feed, carriage return and tab; any
other character without a visible form is written by its code point in two, four or eight
hexadecimal digits.

Byte strings are quoted by the same rules, with every byte outside printable ASCII written in two
hexadecimal digits.
-/

set_option autoImplicit false

namespace Stencil
namespace Quoted

/-- The low `width` hexadecimal digits of `n`. -/
def hex : (width n : Nat) → Text
  | 0, _ => []
  | width + 1, n => hex width (n / 16) ++ [Nat.digitChar (n % 16)]

theorem length_hex (width n : Nat) : (hex width n).length = width := by
  induction width generalizing n with
  | zero => rfl
  | succ w ih => simp [hex, ih]

/-- The single quote. -/
def single : Char := '\x27'

/-- The double quote. -/
def double : Char := '\x22'

/-- The quote that encloses a text: single, unless the text holds single quotes only. -/
def mark (s : Text) : Char := if single ∈ s ∧ double ∉ s then double else single

/-- A character by its code point, in the shortest of the three forms. -/
def codePoint (c : Char) : Text :=
  if c.toNat ≤ 0xFF then '\\' :: 'x' :: hex 2 c.toNat
  else if c.toNat ≤ 0xFFFF then '\\' :: 'u' :: hex 4 c.toNat
  else '\\' :: 'U' :: hex 8 c.toNat

/-- One character inside the quote `q`. -/
def escape (q c : Char) : Text :=
  if c = q ∨ c = '\\' then ['\\', c]
  else if c = '\n' then ['\\', 'n']
  else if c = '\r' then ['\\', 'r']
  else if c = '\t' then ['\\', 't']
  else if Text.isPrintable c then [c]
  else codePoint c

/-- A text in quotes. -/
def text (s : Text) : Text := mark s :: (s.flatMap (escape (mark s)) ++ [mark s])

/-- The character of a byte, for the bytes of ASCII. -/
def byteChar (b : UInt8) : Char := Char.ofNat b.toNat

/-- One byte inside the quote `q`. -/
def escapeByte (q : Char) (b : UInt8) : Text :=
  if b < 0x80 then escape q (byteChar b) else '\\' :: 'x' :: hex 2 b.toNat

/-- A byte string in quotes, with the letter that marks it. -/
def bytes (bs : List UInt8) : Text :=
  let q := mark (bs.map byteChar)
  'b' :: q :: (bs.flatMap (escapeByte q) ++ [q])

/-- A mutable byte string: quoted like any other, except that a single quote is always escaped. -/
def byteBuffer (bs : List UInt8) : Text :=
  let q := mark (bs.map byteChar)
  let one (b : UInt8) : Text := if b.toNat = 0x27 then ['\\', single] else escapeByte q b
  "bytearray(b".toList ++ q :: (bs.flatMap one ++ [q, ')'])

end Quoted
end Stencil
