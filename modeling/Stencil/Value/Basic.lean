import Stencil.FormatMap.Basic
import Stencil.Number.Binary64
import Stencil.Number.Scientific

/-!
# Argument values

The values that can be formatted: numbers of five kinds, texts and byte strings, containers,
records, format maps, and objects of other types, of which only the answers are known.

Nothing here interprets a value.  How it is displayed, read as a number, tested or written as JSON
is said in the modules for these activities.
-/

set_option autoImplicit false

namespace Stencil

/-- The name of a type, and of the module that it comes from. -/
structure TypeName where
  home : Text
  name : Text
  deriving DecidableEq, Repr

namespace TypeName

/-- A type name with its module in front. -/
def qualified (t : TypeName) : Text := t.home ++ '.' :: t.name

end TypeName

/-- An object of a type that is not known here: what it answers where it is asked for something.  An
error is the exception that it raises instead.  What it gives for an integer or a double is missing
where its type does not say how these are given. -/
structure Foreign where
  type : TypeName
  /-- Its text on its own. -/
  display : Except ErrorClass Text
  /-- Its text inside a container or a diagnostic. -/
  form : Except ErrorClass Text
  /-- Its truth. -/
  truth : Except ErrorClass Bool := .ok true
  /-- The integer it stands for. -/
  index : Option (Except ErrorClass Int) := none
  /-- The double it gives. -/
  float : Option (Except ErrorClass Binary64) := none
  /-- It counts as a real number, so that its double is asked for where it has no integer. -/
  isReal : Bool := false
  deriving Repr

namespace Foreign

/-- An object that gives a text and nothing else. -/
def ofText (type : TypeName) (s : Text) : Foreign := { type, display := .ok s, form := .ok s }

/-- The integer that an object is asked for. -/
def toInt (o : Foreign) : Except Fault Int :=
  match o.index with
  | some r => Fault.ofAnswer r
  | none => .error .notInteger

/-- The double that an object is asked for: the one that it gives, or else that of its integer,
which must not be too large. -/
def toDouble (o : Foreign) : Except Fault Binary64 :=
  match o.float, o.index with
  | some r, _ => Fault.ofAnswer r
  | none, some r => do
    let n ← Fault.ofAnswer r
    if (Binary64.ofInt n).isFinite then .ok (.ofInt n) else .error .numberTooLarge
  | none, none => .error .notNumber

end Foreign

/-- A value that may be given as an argument. -/
inductive Value where
  | null
  | bool (b : Bool)
  | int (n : Int)
  | float (x : Binary64)
  | scientific (x : Scientific)
  | fraction (x : Rat)
  | complex (re im : Binary64)
  | text (s : Text)
  /-- A byte string, or a byte buffer, which can be changed in place. -/
  | bytes (buffer : Bool) (bs : List UInt8)
  | list (items : List Value)
  | tuple (items : List Value)
  /-- A set, given by its elements in the order in which they are gone through. -/
  | set (frozen : Bool) (items : List Value)
  /-- A dictionary, in order of insertion. -/
  | dict (entries : List (Value × Value))
  /-- A record: its type and its named fields. -/
  | record (type : TypeName) (fields : List (Text × Value))
  /-- A type of records, as a value of its own. -/
  | recordType (type : TypeName)
  | object (o : Foreign)
  | formatMap (map : FormatMap)
  deriving Repr

namespace Value

instance : Inhabited Value := ⟨null⟩

/-- The name of the type of a value, as messages show it. -/
def typeName : Value → Text
  | null => "NoneType".toList
  | bool _ => "bool".toList
  | int _ => "int".toList
  | float _ => "float".toList
  | scientific _ => "Decimal".toList
  | fraction _ => "Fraction".toList
  | complex .. => "complex".toList
  | text _ => "str".toList
  | bytes buffer _ => if buffer then "bytearray".toList else "bytes".toList
  | list _ => "list".toList
  | tuple _ => "tuple".toList
  | set frozen _ => if frozen then "frozenset".toList else "set".toList
  | dict _ => "dict".toList
  | record type _ => type.name
  | recordType _ => "type".toList
  | object o => o.type.name
  | formatMap (.names _) => "NameMap".toList
  | formatMap (.pairs _) => "IndexMap".toList

/-- The items of a value that can be gone through: the characters of a text, the numbers of a byte
string, the elements of a container, the keys of a dictionary. -/
def items : Value → Except Fault (List Value)
  | text s => .ok (s.map fun c => text [c])
  | bytes _ bs => .ok (bs.map fun b => int b.toNat)
  | list vs => .ok vs
  | tuple vs => .ok vs
  | set _ vs => .ok vs
  | dict es => .ok (es.map (·.1))
  | _ => .error .notIterable

end Value
end Stencil
