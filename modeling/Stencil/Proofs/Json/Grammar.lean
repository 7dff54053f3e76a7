import Stencil.Json.Reader

/-!
# The language of JSON

`Json.IsText` says which texts are JSON, production by production and without saying how they are
written or read: it is the `JSON-text` of RFC 8259, a value with white space around it.  White space
is a production of its own, so the same definition allows it around every element of an array and
every value of an object.

`Json.outside` takes the strings out of a text.  What is said of a JSON text outside of its strings
(that there is no white space, or no name of a number that is not finite) is said of what is left.
-/

set_option autoImplicit false

namespace Stencil
namespace Json

/-! ## Numbers -/

/-- One or more of the ten digits. -/
def IsDigits (s : Text) : Prop := s ≠ [] ∧ ∀ c ∈ s, c.isDigit

/-- A whole part: a zero, or digits that do not begin with one. -/
inductive IsWhole : Text → Prop where
  | zero : IsWhole ['0']
  | digits {ds : Text} (h : IsDigits ds) (h0 : ds.head? ≠ some '0') : IsWhole ds

/-- A fraction: nothing, or a point and digits. -/
inductive IsFraction : Text → Prop where
  | absent : IsFraction []
  | present {ds : Text} (h : IsDigits ds) : IsFraction ('.' :: ds)

/-- An exponent: nothing, or a letter `e`, perhaps a sign, and digits. -/
inductive IsExponent : Text → Prop where
  | absent : IsExponent []
  | present {e : Char} {sign ds : Text} (he : e ∈ ['e', 'E']) (hs : sign ∈ [[], ['-'], ['+']])
      (h : IsDigits ds) : IsExponent (e :: (sign ++ ds))

/-- A number. -/
inductive IsNumber : Text → Prop where
  | parts {sign whole fraction exponent : Text} (hs : sign ∈ [[], ['-']]) (hw : IsWhole whole)
      (hf : IsFraction fraction) (he : IsExponent exponent) :
      IsNumber (sign ++ (whole ++ fraction ++ exponent))

/-! ## Strings -/

/-- A hexadecimal digit in either case. -/
def IsHex (c : Char) : Prop := c ∈ "0123456789abcdefABCDEF".toList

/-- A character of a string: any but the quote, the backslash and the control characters, an escape
of one letter, or an escape of four digits. -/
inductive IsStringChar : Text → Prop where
  | plain {c : Char} (h : 0x20 ≤ c.toNat) (hq : c ≠ '\x22') (hb : c ≠ '\\') : IsStringChar [c]
  | letter {c : Char} (h : c ∈ "\x22\\/bfnrt".toList) : IsStringChar ['\\', c]
  | code {a b c d : Char} (ha : IsHex a) (hb : IsHex b) (hc : IsHex c) (hd : IsHex d) :
      IsStringChar ['\\', 'u', a, b, c, d]

/-- A string. -/
inductive IsString : Text → Prop where
  | quoted {chars : List Text} (h : ∀ s ∈ chars, IsStringChar s) :
      IsString ('\x22' :: (chars.flatten ++ ['\x22']))

/-! ## Values -/

/-- White space between tokens, which may be empty. -/
def IsGap (s : Text) : Prop := ∀ c ∈ s, c ∈ [' ', '\t', '\n', '\r']

/-- A name of an object, with white space around it. -/
inductive IsName : Text → Prop where
  | padded {a s b : Text} (ha : IsGap a) (h : IsString s) (hb : IsGap b) : IsName (a ++ s ++ b)

/-- Texts with a comma between neighbours. -/
def separated (ss : List Text) : Text := List.intercalate [','] ss

/-- A JSON text: a value with white space around it. -/
inductive IsText : Text → Prop where
  | padded {a s b : Text} (ha : IsGap a) (h : IsText s) (hb : IsGap b) : IsText (a ++ s ++ b)
  | null : IsText "null".toList
  | yes : IsText "true".toList
  | no : IsText "false".toList
  | number {s : Text} (h : IsNumber s) : IsText s
  | string {s : Text} (h : IsString s) : IsText s
  | emptyArray {g : Text} (h : IsGap g) : IsText ('[' :: (g ++ [']']))
  | array (items : List Text) (hne : items ≠ []) (h : ∀ s ∈ items, IsText s) :
      IsText ('[' :: (separated items ++ [']']))
  | emptyObject {g : Text} (h : IsGap g) : IsText ('\x7b' :: (g ++ ['\x7d']))
  | object (members : List (Text × Text)) (hne : members ≠ []) (hn : ∀ m ∈ members, IsName m.1)
      (h : ∀ m ∈ members, IsText m.2) :
      IsText ('\x7b' :: (separated (members.map fun m => m.1 ++ ':' :: m.2) ++ ['\x7d']))

/-! ## Outside of strings -/

/-- What stands outside of the strings of a text that begins inside of one, or outside. -/
def outsideFrom : (inside : Bool) → Text → Text
  | _, [] => []
  | true, '\\' :: _ :: s => outsideFrom true s
  | true, c :: s => outsideFrom (c ≠ '\x22') s
  | false, c :: s => if c = '\x22' then outsideFrom true s else c :: outsideFrom false s

/-- What stands outside of the strings of a text. -/
def outside (s : Text) : Text := outsideFrom false s

end Json
end Stencil
