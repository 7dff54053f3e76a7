import Stencil.Text.Utf8
import Stencil.Value.Display

/-!
# Values as JSON

`write` gives the JSON text of a value on one line without white space.  Characters beyond ASCII
are written as they are.

JSON knows no numbers that are not finite, so these become `null`; decimals and fractions are
written as the nearest double, byte strings as the text they hold, records as objects of their
fields, and sets as arrays in the order of their elements' displayed forms, which does not depend
on how a set is gone through.  Keys that are numbers, truth values or null are written as text.
Everything else has no JSON form.
-/

set_option autoImplicit false

namespace Stencil
namespace Json

open Nesting

/-- One character inside a JSON string. -/
def escape (c : Char) : Text :=
  if c = '\x22' ∨ c = '\\' then ['\\', c]
  else if c = '\n' then ['\\', 'n']
  else if c = '\r' then ['\\', 'r']
  else if c = '\t' then ['\\', 't']
  else if c = '\x0C' then ['\\', 'f']
  else if c = '\x08' then ['\\', 'b']
  else if c.toNat < 0x20 then '\\' :: 'u' :: Quoted.hex 4 c.toNat
  else [c]

/-- A JSON string. -/
def quote (s : Text) : Text := '\x22' :: (s.flatMap escape ++ ['\x22'])

/-- The word for what JSON has no number for, and for the missing value. -/
def nullText : Text := "null".toList

/-- A truth value. -/
def boolText (b : Bool) : Text := if b then "true".toList else "false".toList

/-- A double, or null when it is not finite. -/
def number (x : Binary64) : Text := if x.isFinite then Layout.display true x else nullText

/-- The double nearest to a fraction. -/
def ofFraction (x : Rat) : Binary64 := Binary64.nearest (x < 0) ⟨x.num.natAbs, x.den⟩

/-- The text of a key. -/
def key : Value → Except Fault Text
  | .text s => .ok s
  | .int n => Numeral.limitedText n
  | .float x => if x.isFinite then .ok (Layout.display true x) else .error .keyNotFinite
  | .bool b => .ok (boolText b)
  | .null => .ok nullText
  | _ => .error .notJson

/-- Texts one after the other with commas between. -/
def join (ss : List Text) : Text := (ss.intersperse [',']).flatten

/-- A JSON array of written items. -/
def array (items : List Text) : Text := '[' :: (join items ++ [']'])

/-- One member of a JSON object. -/
def member (name value : Text) : Text := quote name ++ ':' :: value

/-- A JSON object of written members. -/
def object (members : List Text) : Text := '\x7b' :: (join members ++ ['\x7d'])

/-- Attempts in the order of their sort keys. -/
def sortedByKey {α : Type} (keys : List Text) (attempts : List α) : List α :=
  (Sorting.sortBy (fun p q => Text.atMost p.1 q.1) (keys.zip attempts)).map (·.2)

/-- A format map as the object of its one field. -/
def ofFormatMap (levels : Nat) : FormatMap → Except Fault Text
  | .names ns =>
    enter .tooDeep levels fun n => enter .tooDeep n fun _ =>
      .ok (object [member "names".toList (array (ns.map quote))])
  | .pairs ps =>
    enter .tooDeep levels fun n => enter .tooDeep n fun n => do
      let items ← ps.mapM fun p => enter .tooDeep n fun _ => do
        return array [quote p.1, ← Numeral.limitedText p.2]
      return object [member "pairs".toList (array items)]

/-! ## Looking ahead

A value is gone through before it is written, to find the numbers that are not finite, and so are
the fields of a record and the elements of a set when their turn comes.  This does not change what
is written, but a value that is nested too deep, or a record that cannot be taken apart, is found
out before anything else can fail.
-/

/-- How many levels of a format map lie one inside the other. -/
def mapDepth : FormatMap → Nat
  | .names _ => 2
  | .pairs ps => if ps.isEmpty then 2 else 3

mutual

/-- How many levels of a value lie one inside the other: of lists, tuples and the values of
dictionaries, and, if `all` are asked for, of their keys, of sets and of records as well. -/
def depth (all : Bool) : Value → Nat
  | .list vs | .tuple vs => itemsDepth all vs + 1
  | .dict es => entriesDepth all es + 1
  | .set _ vs => if all then itemsDepth all vs + 1 else 0
  | .record _ fs => if all then fieldsDepth all fs + 1 else 0
  | .formatMap m => if all then mapDepth m else 0
  | _ => 0

/-- The levels of the items of a container. -/
def itemsDepth (all : Bool) : List Value → Nat
  | [] => 0
  | v :: vs => max (depth all v) (itemsDepth all vs)

/-- The levels of the entries of a dictionary. -/
def entriesDepth (all : Bool) : List (Value × Value) → Nat
  | [] => 0
  | (k, v) :: es =>
    max (if all then max (depth all k) (depth all v) else depth all v) (entriesDepth all es)

/-- The levels of the fields of a record. -/
def fieldsDepth (all : Bool) : List (Text × Value) → Nat
  | [] => 0
  | (_, v) :: fs => max (depth all v) (fieldsDepth all fs)

end

/-- A record, or a tuple with a record in it. -/
def holdsRecord : Value → Bool
  | .record .. | .formatMap _ => true
  | .tuple vs => anyHoldsRecord vs
  | _ => false
where
  /-- One of the values holds a record. -/
  anyHoldsRecord : List Value → Bool
    | [] => false
    | v :: vs => holdsRecord v || anyHoldsRecord vs

mutual

/-- A dictionary in the value has a key with a record in it.  Taking a record apart leaves a
dictionary in its place, which cannot be a key.  Sets are copied as they are. -/
def hasRecordKey : Value → Bool
  | .list vs | .tuple vs => anyHasRecordKey vs
  | .dict es => entriesHaveRecordKey es
  | .record _ fs => fieldsHaveRecordKey fs
  | _ => false

/-- One of the values has such a key. -/
def anyHasRecordKey : List Value → Bool
  | [] => false
  | v :: vs => hasRecordKey v || anyHasRecordKey vs

/-- One of the entries has such a key or is one. -/
def entriesHaveRecordKey : List (Value × Value) → Bool
  | [] => false
  | (k, v) :: es => holdsRecord k || hasRecordKey v || entriesHaveRecordKey es

/-- One of the fields has such a key. -/
def fieldsHaveRecordKey : List (Text × Value) → Bool
  | [] => false
  | (_, v) :: fs => hasRecordKey v || fieldsHaveRecordKey fs

end

/-- Takes a record apart: all of its fields, before the first of them is written. -/
def takeApart (levels : Nat) (fields : List (Text × Value)) : Except Fault Unit :=
  if levels < fieldsDepth true fields then .error .tooDeep
  else if fieldsHaveRecordKey fields then .error .notJson
  else .ok ()

/-- Goes through values that are to be written. -/
def lookThrough (levels : Nat) (items : List Value) : Except Fault Unit :=
  if levels < itemsDepth false items then .error .tooDeep else .ok ()

/-! ## Writing -/

mutual

/-- The JSON text of a value, if it has no more than so many levels. -/
def writeWithin (levels : Nat) : Value → Except Fault Text
  | .null => .ok nullText
  | .bool b => .ok (boolText b)
  | .int n => Numeral.limitedText n
  | .float x => .ok (number x)
  | .scientific x => .ok (number (x.toBinary64?.getD .nan))
  | .fraction x => .ok (number (ofFraction x))
  | .text s => .ok (quote s)
  | .bytes _ bs => .ok (quote (Utf8.decode bs))
  | .list vs => enter .tooDeep levels fun n => do return array (← writeItems n vs)
  | .tuple vs => enter .tooDeep levels fun n => do return array (← writeItems n vs)
  | .set _ vs => enter .tooDeep levels fun n => do
    let keys ← Value.quotedItems n vs
    lookThrough n vs
    return array (← (sortedByKey keys (attempts n vs)).mapM id)
  | .dict es => enter .tooDeep levels fun n => do return object (← writeEntries n es)
  | .record _ fs => enter .tooDeep levels fun n => do
    takeApart n fs
    return object (← writeFields n fs)
  | .formatMap m => ofFormatMap levels m
  | .complex .. | .recordType _ | .object _ => .error .notJson

/-- The JSON texts of items, in order. -/
def writeItems (levels : Nat) : List Value → Except Fault (List Text)
  | [] => .ok []
  | v :: vs => do return (← writeWithin levels v) :: (← writeItems levels vs)

/-- The attempts to write each item. -/
def attempts (levels : Nat) : List Value → List (Except Fault Text)
  | [] => []
  | v :: vs => writeWithin levels v :: attempts levels vs

/-- The members of a dictionary. -/
def writeEntries (levels : Nat) : List (Value × Value) → Except Fault (List Text)
  | [] => .ok []
  | (k, v) :: es => do
    let name ← key k
    let value ← writeWithin levels v
    return member name value :: (← writeEntries levels es)

/-- The members of a record. -/
def writeFields (levels : Nat) : List (Text × Value) → Except Fault (List Text)
  | [] => .ok []
  | (name, v) :: fs => do
    return member name (← writeWithin levels v) :: (← writeFields levels fs)

end

/-- The JSON text of a value. -/
def write [Nesting] (v : Value) : Except Fault Text := do
  lookThrough Nesting.limit [v]
  writeWithin Nesting.limit v

end Json
end Stencil
