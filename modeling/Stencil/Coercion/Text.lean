import Stencil.Coercion.Number

/-!
# Arguments as texts, characters, truth values and JSON

Each reading has its default: a missing argument is printed as `<undef>`, a value without a text
as its address, what is no character as the null character, what fails a truth test as true, and
what has no JSON form as `null`.

Where an object is asked for its text or its truth, the default stands for every exception.  It does
not where an object is asked for its integer, nor where sets are written as JSON: these readings
fail with exceptions of the classes that their defaults do not stand for.
-/

set_option autoImplicit false

namespace Stencil
namespace Value

/-- What is printed for a missing argument. -/
def undefinedText : Text := "<undef>".toList

/-- Reads an argument as text.  Integers of any size have one. -/
def toText [Nesting] : Value → Except Fault (Coerced Text)
  | null => .ok (.fallback undefinedText)
  | text s => .ok (.good s)
  | bool b => .ok (.good (Json.boolText b))
  | int n => .ok (.good (Numeral.signedDecimal n))
  | v => Coerced.guarded ErrorClass.isException v.address v.plain

/-- The null character. -/
def nullChar : Char := '\x00'

/-- The character of a code point.  The codes from `0xD800` to `0xDFFF` are halves of pairs and no
characters by themselves; the null character is given for them. -/
def charOf? (n : Int) : Option Char :=
  if 0 ≤ n ∧ n ≤ 0x10FFFF then some (Char.ofNat n.toNat) else none

/-- Reads an argument as a character: the first of a text, or the one with that code point. -/
def toChar : Value → Except Fault (Coerced Char)
  | text s => .ok (.ofOption nullChar s.head?)
  | v => do
    let n ← v.toInteger
    return .ofOption nullChar (if n.ok then charOf? n.value else none)

/-- Reads an argument as a truth value: zero, the empty and the missing are false. -/
def toTruth : Value → Except Fault (Coerced Bool)
  | null => .ok (.good false)
  | bool b => .ok (.good b)
  | int n => .ok (.good (n ≠ 0))
  | float x => .ok (.good !x.isZero)
  | scientific x => .ok (.good !x.isZero)
  | fraction x => .ok (.good (x ≠ 0))
  | complex re im => .ok (.good !(re.isZero && im.isZero))
  | text s => .ok (.good !s.isEmpty)
  | bytes _ bs => .ok (.good !bs.isEmpty)
  | list vs | tuple vs | set _ vs => .ok (.good !vs.isEmpty)
  | dict es => .ok (.good !es.isEmpty)
  | object o => Coerced.guarded ErrorClass.isException true (Fault.ofAnswer o.truth)
  | record .. | recordType _ | formatMap _ => .ok (.good true)

/-- Reads an argument as JSON. -/
def toJson [Nesting] (v : Value) : Except Fault (Coerced Text) :=
  Coerced.guarded ErrorClass.isNoJson Json.nullText (Json.write v)

end Value
end Stencil
