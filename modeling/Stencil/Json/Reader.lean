import Stencil.Coercion.Number
import Stencil.Nesting

/-!
# Reading JSON

`Json.read` reads a text that is one JSON value with white space around it.  Besides the standard
grammar, the names `NaN`, `Infinity` and `-Infinity` are read as doubles.  A number with a fraction
or an exponent is a double, any other an exact integer.  Where a key comes twice, the later value
takes the place of the earlier one.

The first thing that is wrong, from left to right, is reported as a `Problem`.  Arrays and objects
are followed as deep as `Nesting.readLimit` says; the bracket that opens one level more is a problem
of its own, whatever comes after it.
-/

set_option autoImplicit false

namespace Stencil
namespace Json

open Nesting

/-- What is wrong with a text that should be JSON. -/
inductive Problem where
  | expectingValue
  | expectingName
  | expectingColon
  | expectingComma
  | extraData
  | unterminatedString
  | controlCharacter
  | unknownEscape
  | malformedCodePoint
  | byteOrderMark
  /-- An integer has more digits than can be read. -/
  | numeralTooLong
  /-- Arrays and objects are nested deeper than can be followed. -/
  | tooDeep
  deriving DecidableEq, Repr

namespace Problem

/-- The wording of a problem. -/
def message : Problem → Text
  | expectingValue => "Expecting value".toList
  | expectingName => "Expecting property name enclosed in double quotes".toList
  | expectingColon => "Expecting ':' delimiter".toList
  | expectingComma => "Expecting ',' delimiter".toList
  | extraData => "Extra data".toList
  | unterminatedString => "Unterminated string starting at".toList
  | controlCharacter => "Invalid control character at".toList
  | unknownEscape => "Invalid \\escape".toList
  | malformedCodePoint => "Invalid \\uXXXX escape".toList
  | byteOrderMark => "Unexpected UTF-8 BOM (decode using utf-8-sig)".toList
  | numeralTooLong => "Too many digits".toList
  | tooDeep => "Too deeply nested".toList

end Problem

/-! ## Strings -/

/-- The character that a single letter after a backslash stands for. -/
def unescape? (c : Char) : Option Char :=
  if c = '\x22' ∨ c = '\\' ∨ c = '/' then some c
  else if c = 'b' then some '\x08'
  else if c = 'f' then some '\x0C'
  else if c = 'n' then some '\n'
  else if c = 'r' then some '\r'
  else if c = 't' then some '\t'
  else none

/-- The code of four hexadecimal digits. -/
def code? (a b c d : Char) : Option Nat :=
  ([a, b, c, d].mapM (Numeral.baseDigit? 16)).map (Numeral.value 16)

/-- The first half of a pair of codes for one character. -/
def isHigh (n : Nat) : Bool := 0xD800 ≤ n && n ≤ 0xDBFF

/-- The second half of a pair of codes for one character. -/
def isLow (n : Nat) : Bool := 0xDC00 ≤ n && n ≤ 0xDFFF

/-- Puts a code in front of codes.  The two halves of a pair become one code. -/
def consCode (n : Nat) : List Nat → List Nat
  | [] => [n]
  | m :: codes =>
    if isHigh n && isLow m then (0x10000 + (n - 0xD800) * 0x400 + (m - 0xDC00)) :: codes
    else n :: m :: codes

/-- A code in front of the codes that are read after it. -/
def before (n : Nat) (r : Except Problem (List Nat × Text)) : Except Problem (List Nat × Text) :=
  r.map fun (codes, rest) => (consCode n codes, rest)

/-- Reads the codes of a string up to its closing quote, and gives what follows the quote.  After
an escape of four digits, the text must not be at its end. -/
def readCodes : Text → Except Problem (List Nat × Text)
  | [] => .error .unterminatedString
  | ['\\'] => .error .unterminatedString
  | '\\' :: 'u' :: a :: b :: c :: d :: rest =>
    if rest.isEmpty then .error .malformedCodePoint
    else match code? a b c d with
      | none => .error .malformedCodePoint
      | some n => before n (readCodes rest)
  | '\\' :: c :: rest =>
    if c = 'u' then .error .malformedCodePoint
    else match unescape? c with
      | none => .error .unknownEscape
      | some c => before c.toNat (readCodes rest)
  | c :: rest =>
    if c = '\x22' then .ok ([], rest)
    else if c.toNat < 0x20 then .error .controlCharacter
    else before c.toNat (readCodes rest)

/-- Reads a string up to its closing quote, and gives what follows the quote. -/
def readString (s : Text) : Except Problem (Text × Text) :=
  (readCodes s).map fun (codes, rest) => (codes.map Char.ofNat, rest)

/-! ## Numbers and names -/

/-- The digits at the beginning of a text. -/
def asciiDigits (s : Text) : Text × Text := Text.run Char.isDigit s

/-- The fraction at the beginning of a text: a point and at least one digit, or nothing. -/
def fraction (s : Text) : Text × Text :=
  match s with
  | '.' :: s' =>
    match asciiDigits s' with
    | ([], _) => ([], s)
    | (ds, rest) => ('.' :: ds, rest)
  | _ => ([], s)

/-- The sign at the beginning of a text. -/
def exponentSign : Text → Text × Text
  | '-' :: s => (['-'], s)
  | '+' :: s => (['+'], s)
  | s => ([], s)

/-- The exponent at the beginning of a text: a letter `e`, a sign or none and at least one digit, or
nothing. -/
def exponent (s : Text) : Text × Text :=
  match s with
  | c :: s' =>
    if c = 'e' ∨ c = 'E' then
      match asciiDigits (exponentSign s').2 with
      | ([], _) => ([], s)
      | (ds, rest) => (c :: ((exponentSign s').1 ++ ds), rest)
    else ([], s)
  | [] => ([], s)

/-- The whole part at the beginning of a text: a zero, or digits that do not begin with one. -/
def whole? (s : Text) : Option (Text × Text) :=
  match s with
  | '0' :: rest => some (['0'], rest)
  | _ =>
    match asciiDigits s with
    | ([], _) => none
    | (ds, rest) => some (ds, rest)

/-- Reads a number: an integer, or a double if it has a fraction or an exponent. -/
def readNumber (negative : Bool) (s : Text) : Except Problem (Value × Text) :=
  match whole? s with
  | none => .error .expectingValue
  | some (ds, s) =>
    let f := fraction s
    let e := exponent f.2
    if f.1.isEmpty && e.1.isEmpty then
      match Numeral.limited (ds.filterMap (Numeral.baseDigit? 10)) with
      | .ok n => .ok (.int (Numeral.signed negative n), s)
      | .error _ => .error .numeralTooLong
    else
      .ok (.float ((Binary64.readUnsigned? negative (ds ++ f.1 ++ e.1)).getD .nan), e.2)

/-- The values that are written as names. -/
def names : List (Text × Value) :=
  [("null".toList, .null), ("true".toList, .bool true), ("false".toList, .bool false),
   ("NaN".toList, .float .nan), ("Infinity".toList, .float (.infinite false)),
   ("-Infinity".toList, .float (.infinite true))]

/-- Reads a name or a number. -/
def readScalar (s : Text) : Except Problem (Value × Text) :=
  match names.findSome? fun n => (Text.after? n.1 s).map fun rest => (n.2, rest) with
  | some r => .ok r
  | none =>
    match s with
    | '-' :: s => readNumber true s
    | s => readNumber false s

/-! ## Containers -/

/-- The white space of JSON. -/
def isBlank (c : Char) : Bool := c = ' ' || c = '\t' || c = '\n' || c = '\r'

/-- A text without the white space in front. -/
def skipBlanks (s : Text) : Text := s.dropWhile isBlank

/-- Puts a value under a key: in the place of the earlier value, or at the end. -/
def insert (entries : List (Text × Value)) (name : Text) (v : Value) : List (Text × Value) :=
  if entries.any fun e => e.1 = name then
    entries.map fun e => if e.1 = name then (name, v) else e
  else entries ++ [(name, v)]

/-- A dictionary of members, the last value of each name at the place of the first. -/
def ofMembers (members : List (Text × Value)) : Value :=
  .dict ((members.foldl (fun es m => insert es m.1 m.2) []).map fun e => (.text e.1, e.2))

mutual

/-- Reads one value with no more than so many levels; `fuel` bounds the number of nested reads. -/
def readValue : (fuel levels : Nat) → Text → Except Problem (Value × Text)
  | 0, _, _ => .error .expectingValue
  | _ + 1, _, [] => .error .expectingValue
  | fuel + 1, levels, c :: s =>
    if c = '\x22' then (readString s).map fun (t, rest) => (.text t, rest)
    else if c = '\x7b' then enter .tooDeep levels fun n =>
      match skipBlanks s with
      | '\x7d' :: rest => .ok (ofMembers [], rest)
      | s => (readMembers fuel n s).map fun (ms, rest) => (ofMembers ms, rest)
    else if c = '[' then enter .tooDeep levels fun n =>
      match skipBlanks s with
      | ']' :: rest => .ok (.list [], rest)
      | s => (readElements fuel n s).map fun (vs, rest) => (.list vs, rest)
    else readScalar (c :: s)

/-- Reads the elements of an array up to its closing bracket. -/
def readElements : (fuel levels : Nat) → Text → Except Problem (List Value × Text)
  | 0, _, _ => .error .expectingValue
  | fuel + 1, levels, s =>
    match readValue fuel levels s with
    | .error p => .error p
    | .ok (v, s) =>
      match skipBlanks s with
      | ']' :: rest => .ok ([v], rest)
      | ',' :: s =>
        (readElements fuel levels (skipBlanks s)).map fun (vs, rest) => (v :: vs, rest)
      | _ => .error .expectingComma

/-- Reads the members of an object up to its closing brace. -/
def readMembers : (fuel levels : Nat) → Text → Except Problem (List (Text × Value) × Text)
  | 0, _, _ => .error .expectingName
  | _ + 1, _, [] => .error .expectingName
  | fuel + 1, levels, c :: s =>
    if c = '\x22' then
      match readString s with
      | .error p => .error p
      | .ok (name, s) =>
        match skipBlanks s with
        | ':' :: s =>
          match readValue fuel levels (skipBlanks s) with
          | .error p => .error p
          | .ok (v, s) =>
            match skipBlanks s with
            | '\x7d' :: rest => .ok ([(name, v)], rest)
            | ',' :: s =>
              (readMembers fuel levels (skipBlanks s)).map fun (ms, rest) => ((name, v) :: ms, rest)
            | _ => .error .expectingComma
        | _ => .error .expectingColon
    else .error .expectingName

end

/-- Reads a text that is one value.  A value of `n` characters takes at most `2 n` nested reads. -/
def read [Nesting] (s : Text) : Except Problem Value :=
  if s.head? = some '\uFEFF' then .error .byteOrderMark
  else
    match readValue (2 * s.length + 2) readLimit (skipBlanks s) with
    | .error p => .error p
    | .ok (v, rest) => if (skipBlanks rest).isEmpty then .ok v else .error .extraData

end Json
end Stencil
