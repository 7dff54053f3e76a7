import Stencil.Nesting
import Stencil.Number.Layout
import Stencil.Numeral.Literal
import Stencil.Text.Quoted
import Stencil.Value.Basic

/-!
# Values as text

`quoted` is the form of a value inside a container or a diagnostic, where texts are quoted; `plain`
is its form on its own.  The two differ only for texts, decimals, fractions and objects.

A value has no text when it holds an object that raises an exception instead of giving one, when it
holds an integer with more digits than may be written inside another value, or when it is nested
deeper than can be followed.  `address` is the text of last resort, which names only the type.
-/

set_option autoImplicit false

namespace Stencil
namespace Value

open Nesting

/-- Texts one after the other, with a comma and a space between neighbours. -/
def commaJoin (ss : List Text) : Text := (ss.intersperse [',', ' ']).flatten

/-- The type of an object, qualified by the module that defines it. -/
def qualifiedType : Value → Text
  | scientific _ => "decimal.Decimal".toList
  | fraction _ => "fractions.Fraction".toList
  | record type _ => type.qualified
  | object o => o.type.qualified
  | formatMap m => "printfmt.types.".toList ++ (formatMap m).typeName
  | v => v.typeName

/-- The text of a value that has no other: its type, and a mark for its address. -/
def address (v : Value) : Text :=
  '<' :: qualifiedType v ++ " object at 0xADDR>".toList

/-- A complex number: the real part only when it is not the positive zero. -/
def complexText (re im : Binary64) : Text :=
  if re = Binary64.zero false then Layout.display false im ++ ['j']
  else
    let sign : Text := if im.isNegative then [] else ['+']
    '(' :: (Layout.display false re ++ sign ++ Layout.display false im ++ ['j', ')'])

/-- The words for truth values. -/
def boolText (b : Bool) : Text := if b then "True".toList else "False".toList

/-- The items of a tuple in parentheses; a single item is followed by a comma. -/
def tupleText (items : List Text) : Text :=
  match items with
  | [s] => '(' :: (s ++ [',', ')'])
  | ss => '(' :: (commaJoin ss ++ [')'])

/-- The elements of a set in braces; the empty set by the name of its type. -/
def setText (frozen : Bool) (items : List Text) : Text :=
  let braces := '\x7b' :: (commaJoin items ++ ['\x7d'])
  if frozen then
    "frozenset(".toList ++ (if items.isEmpty then [] else braces) ++ [')']
  else if items.isEmpty then "set()".toList else braces

/-- A format map in the notation of a record. -/
def formatMapText (levels : Nat) : FormatMap → Except Fault Text
  | .names ns =>
    enter .tooDeep levels fun n => enter .tooDeep n fun _ =>
      .ok ("NameMap(names=".toList ++ tupleText (ns.map Quoted.text) ++ [')'])
  | .pairs ps =>
    enter .tooDeep levels fun n => enter .tooDeep n fun n => do
      let items ← ps.mapM fun p => enter .tooDeep n fun _ => do
        return tupleText [Quoted.text p.1, ← Numeral.limitedText p.2]
      return "IndexMap(pairs=".toList ++ tupleText items ++ [')']

mutual

/-- The form of a value inside a container or a diagnostic, if it has no more than so many
levels. -/
def quotedWithin (levels : Nat) : Value → Except Fault Text
  | null => .ok "None".toList
  | bool b => .ok (boolText b)
  | int n => Numeral.limitedText n
  | float x => .ok (Layout.display true x)
  | scientific x => .ok ("Decimal('".toList ++ x.text ++ "')".toList)
  | fraction x => do
    let num ← Numeral.limitedText x.num
    let den ← Numeral.limitedText x.den
    return "Fraction(".toList ++ num ++ [',', ' '] ++ den ++ [')']
  | complex re im => .ok (complexText re im)
  | text s => .ok (Quoted.text s)
  | bytes buffer bs => .ok (if buffer then Quoted.byteBuffer bs else Quoted.bytes bs)
  | list vs => enter .tooDeep levels fun n => do
    return '[' :: (commaJoin (← quotedItems n vs) ++ [']'])
  | tuple vs => enter .tooDeep levels fun n => do return tupleText (← quotedItems n vs)
  | set frozen vs => enter .tooDeep levels fun n => do return setText frozen (← quotedItems n vs)
  | dict es => enter .tooDeep levels fun n => do
    return '\x7b' :: (commaJoin (← quotedEntries n es) ++ ['\x7d'])
  | record type fs => enter .tooDeep levels fun n => do
    return type.name ++ '(' :: (commaJoin (← quotedFields n fs) ++ [')'])
  | recordType type => .ok ("<class '".toList ++ type.qualified ++ "'>".toList)
  | object o => Fault.ofAnswer o.form
  | formatMap m => formatMapText levels m

/-- The forms of the items of a container. -/
def quotedItems (levels : Nat) : List Value → Except Fault (List Text)
  | [] => .ok []
  | v :: vs => do return (← quotedWithin levels v) :: (← quotedItems levels vs)

/-- The entries of a dictionary, key and value with a colon between. -/
def quotedEntries (levels : Nat) : List (Value × Value) → Except Fault (List Text)
  | [] => .ok []
  | (k, v) :: es => do
    let key ← quotedWithin levels k
    let value ← quotedWithin levels v
    return (key ++ [':', ' '] ++ value) :: (← quotedEntries levels es)

/-- The fields of a record, name and value with an equals sign between. -/
def quotedFields (levels : Nat) : List (Text × Value) → Except Fault (List Text)
  | [] => .ok []
  | (name, v) :: fs => do
    return (name ++ '=' :: (← quotedWithin levels v)) :: (← quotedFields levels fs)

end

/-- The form of a value inside a container or a diagnostic. -/
def quoted [Nesting] (v : Value) : Except Fault Text := quotedWithin displayLimit v

/-- The form of a value on its own. -/
def plain [Nesting] : Value → Except Fault Text
  | text s => .ok s
  | scientific x => .ok x.text
  | fraction x => do
    let num ← Numeral.limitedText x.num
    if x.den = 1 then return num
    return num ++ '/' :: (← Numeral.limitedText x.den)
  | object o => Fault.ofAnswer o.display
  | v => quoted v

end Value
end Stencil
