import Stencil.FormatMap.Substitution
import Stencil.Value.Display

/-!
# Compiling templates and reading format maps

`FormatMap.compile` turns the named placeholders of a template into directives with positions.
`FormatMap.ofValue` reads a format map from a value: a map as it is, a dictionary or a list of pairs
as names with indices, any other list as names.
-/

set_option autoImplicit false

namespace Stencil

namespace Value

/-- Reads a value as an exact integer, as an index is read: a text must be a plain integer, and a
number that is not finite is refused. -/
def toIndex : Value → Except Fault Int
  | int n => .ok n
  | bool b => .ok b.toInt
  | float x =>
    match x with
    | .finite .. => .ok (x.truncate?.getD 0)
    | .infinite _ => .error .infiniteNumber
    | .nan => .error .undefinedNumber
  | scientific x =>
    match x with
    | .finite negative c e => .ok (Numeral.signed negative (Scientific.floor c e))
    | .infinite _ => .error .infiniteNumber
    | .nan .. => .error .undefinedNumber
  | fraction x => .ok (x.num.tdiv x.den)
  | text s => Numeral.read s
  | bytes _ bs => Numeral.readAscii (bs.map Quoted.byteChar)
  | object o => o.toInt
  | _ => .error .notInteger

/-- The two items of a list or tuple of two. -/
def pair? : Value → Option (Value × Value)
  | list [a, b] => some (a, b)
  | tuple [a, b] => some (a, b)
  | _ => none

end Value

namespace FormatMap

/-- A template with its named placeholders turned into positions. -/
def compile (map : FormatMap) (template : Text) : Except Fault Text :=
  match map with
  | names ns => compileNames ns template
  | pairs ps => compilePairs ps template

/-- One pair of a map: the text of the first value and the integer of the second. -/
def entry [Nesting] (p : Value × Value) : Except Fault (Text × Int) := do
  let name ← p.1.plain
  let index ← p.2.toIndex
  return (name, index)

/-- Reads a format map from a value; null stands for the standard one. -/
def ofValue [Nesting] : Value → Except Fault FormatMap
  | .null => .ok standard
  | .formatMap m => .ok m
  | .dict es => do return pairs (← es.mapM entry)
  | v => do
    let items ← v.items
    match items.mapM Value.pair? with
    | some (p :: ps) => return pairs (← (p :: ps).mapM entry)
    | _ => return names (← items.mapM Value.plain)

/-- A value that must be a format map already. -/
def require : Value → Except Fault FormatMap
  | .formatMap m => .ok m
  | v => .error (.unsupportedMap v.typeName)

end FormatMap
end Stencil
