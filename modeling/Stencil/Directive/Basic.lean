import Stencil.Numeral.Literal

/-!
# Directives

A directive is a percent sign, an optional position, flags, an optional width, an optional
precision, an optional length modifier and a conversion letter.  It comes in two forms.

* A `Spec` is a directive **as it is written**: its numbers are runs of digits of any script and
  length.  `Spec.source` is the text it is written as.
* A `Directive` is a directive **as it is understood**: its numbers are numbers.  `Spec.decode`
  understands a spec, and fails only where a number has more digits than can be read.
-/

set_option autoImplicit false

namespace Stencil

/-! ## Parts -/

/-- What a directive converts its argument to. -/
inductive Conversion where
  | string
  | decimal
  | integer
  | unsigned
  | octal
  | hex
  | hexUpper
  | binary
  | binaryUpper
  | fixed
  | fixedUpper
  | exponent
  | exponentUpper
  | shortest
  | shortestUpper
  | char
  | boolean
  | booleanUpper
  | json
  | jsonUpper
  deriving DecidableEq, Repr

namespace Conversion

/-- The letter of a conversion. -/
def letter : Conversion → Char
  | string => 's'
  | decimal => 'd'
  | integer => 'i'
  | unsigned => 'u'
  | octal => 'o'
  | hex => 'x'
  | hexUpper => 'X'
  | binary => 'b'
  | binaryUpper => 'B'
  | fixed => 'f'
  | fixedUpper => 'F'
  | exponent => 'e'
  | exponentUpper => 'E'
  | shortest => 'g'
  | shortestUpper => 'G'
  | char => 'c'
  | boolean => 'y'
  | booleanUpper => 'Y'
  | json => 'j'
  | jsonUpper => 'J'

/-- All conversions. -/
def all : List Conversion :=
  [string, decimal, integer, unsigned, octal, hex, hexUpper, binary, binaryUpper, fixed,
   fixedUpper, exponent, exponentUpper, shortest, shortestUpper, char, boolean, booleanUpper,
   json, jsonUpper]

/-- The conversion of a letter. -/
def ofLetter? (c : Char) : Option Conversion := all.find? fun v => v.letter = c

/-- A conversion whose output is in upper case. -/
def isUpper (v : Conversion) : Bool := v.letter.isUpper

theorem mem_all (v : Conversion) : v ∈ all := by cases v <;> decide

@[simp] theorem ofLetter?_letter (v : Conversion) : ofLetter? v.letter = some v := by
  cases v <;> decide

theorem letter_of_ofLetter? {c : Char} {v : Conversion} (h : ofLetter? c = some v) :
    v.letter = c := by
  simpa using List.find?_some h

end Conversion

/-- A flag of a directive. -/
inductive Flag where
  | left
  | plus
  | space
  | zero
  | alternate
  | grouping
  deriving DecidableEq, Repr

namespace Flag

/-- The character of a flag. -/
def char : Flag → Char
  | left => '-'
  | plus => '+'
  | space => ' '
  | zero => '0'
  | alternate => '#'
  | grouping => '\x27'

/-- All flags. -/
def all : List Flag := [left, plus, space, zero, alternate, grouping]

/-- The flag of a character. -/
def ofChar? (c : Char) : Option Flag := all.find? fun f => f.char = c

@[simp] theorem ofChar?_char (f : Flag) : ofChar? f.char = some f := by cases f <;> decide

theorem char_of_ofChar? {c : Char} {f : Flag} (h : ofChar? c = some f) : f.char = c := by
  simpa using List.find?_some h

end Flag

/-- A length modifier.  It says how wide an argument is where arguments have a width, and changes
nothing here. -/
inductive Length where
  | byte
  | short
  | long
  | longLong
  | longDouble
  deriving DecidableEq, Repr

namespace Length

/-- The letters of a length modifier. -/
def letters : Length → Text
  | byte => ['h', 'h']
  | short => ['h']
  | long => ['l']
  | longLong => ['l', 'l']
  | longDouble => ['L']

end Length

/-! ## As it is written -/

/-- A width or precision as it is written.  A number with a dollar sign is accepted in its place
and sets no size. -/
inductive SizeSpec where
  | next
  | argument (digits : Text)
  | literal (digits : Text)
  | ignored (digits : Text)
  deriving DecidableEq, Repr

namespace SizeSpec

/-- The text a size is written as. -/
def source : SizeSpec → Text
  | next => ['*']
  | argument ds => '*' :: (ds ++ ['$'])
  | literal ds => ds
  | ignored ds => ds ++ ['$']

end SizeSpec

/-- A directive as it is written. -/
structure Spec where
  position : Option Text
  flags : List Flag
  width : Option SizeSpec
  precision : Option SizeSpec
  length : Option Length
  conversion : Conversion
  deriving DecidableEq, Repr

namespace Spec

/-- The text a directive is written as. -/
def source (s : Spec) : Text :=
  '%' :: ((s.position.elim [] (· ++ ['$'])) ++ s.flags.map Flag.char ++
    s.width.elim [] SizeSpec.source ++ s.precision.elim [] (fun p => '.' :: p.source) ++
    s.length.elim [] Length.letters ++ [s.conversion.letter])

end Spec

/-! ## As it is understood -/

/-- A width or precision. -/
inductive Size where
  /-- The number itself. -/
  | literal (n : Int)
  /-- The value of the argument at that position. -/
  | argument (position : Int)
  /-- The value of the next argument. -/
  | next
  deriving DecidableEq, Repr

namespace Size

/-- A size in the notation of a record. -/
def display : Size → Text
  | next => "Star(*)".toList
  | argument n => "Star(*".toList ++ Numeral.signedDecimal n ++ ['$', ')']
  | literal n => "Star(".toList ++ Numeral.signedDecimal n ++ [')']

/-- Understands a size on its own: a star, a star with a number and one more character, a number.
A number with a dollar sign is no size.  The numbers are plain integers, which may have a sign. -/
def ofText : Text → Except Fault (Option Size)
  | [] => .ok none
  | ['*'] => .ok (some next)
  | '*' :: s => do return some (argument (← Numeral.read s.dropLast))
  | s => if s.getLast? = some '$' then .ok none else do return some (literal (← Numeral.read s))

end Size

/-- A directive as it is understood. -/
structure Directive where
  /-- The text it was written as. -/
  source : Text
  conversion : Conversion
  /-- The position of its argument, counted from one; without it, the next argument is taken. -/
  position : Option Nat
  flags : List Flag
  width : Option Size
  precision : Option Size
  length : Option Length
  deriving DecidableEq, Repr

namespace Directive

/-- Fill goes after the output. -/
def left (d : Directive) : Bool := d.flags.contains .left

/-- Fill is made of zeros: asked for, and not overruled by the flag for filling after. -/
def zero (d : Directive) : Bool := d.flags.contains .zero && !d.left

/-- The alternate form is asked for. -/
def alternate (d : Directive) : Bool := d.flags.contains .alternate

/-- The sign of a number: a minus for a negative one, otherwise what the flags ask for, where the
plus wins over the space. -/
def sign (d : Directive) (negative : Bool) : Text :=
  if negative then ['-']
  else if d.flags.contains .plus then ['+']
  else if d.flags.contains .space then [' ']
  else []

end Directive

/-- The number of a run of decimal digits, within the digit limit. -/
def digitsNumber (ds : Text) : Except Fault Nat := Numeral.limited (ds.filterMap Text.digitValue?)

namespace SizeSpec

/-- Understands a size. -/
def decode : SizeSpec → Except Fault (Option Size)
  | next => .ok (some .next)
  | argument ds => do return some (.argument (← digitsNumber ds))
  | literal ds => do return some (.literal (← digitsNumber ds))
  | ignored _ => .ok none

/-- Understands a size that may be missing. -/
def decode? : Option SizeSpec → Except Fault (Option Size)
  | some s => decode s
  | none => .ok none

end SizeSpec

namespace Spec

/-- Understands a directive. -/
def decode (s : Spec) : Except Fault Directive := do
  let position ← s.position.mapM digitsNumber
  let width ← SizeSpec.decode? s.width
  let precision ← SizeSpec.decode? s.precision
  return {
    source := s.source
    conversion := s.conversion
    position := position
    flags := s.flags
    width := width
    precision := precision
    length := s.length }

end Spec
end Stencil
