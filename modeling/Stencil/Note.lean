import Stencil.Format

/-!
# Notes on arguments that could not be read

Each time a default takes the place of an argument, a note can be made of it: the value as it would
be displayed in a container, the kind of reading, and the default.  Notes are worked out from the
reading and the value alone, so formatting itself need not carry them.

`Directive.readings` lists the readings of one directive in the order in which they happen, and
`Lexeme.readings` those of a template.
-/

set_option autoImplicit false

namespace Stencil

/-- An argument that could not be read, as it is displayed, and the default in its place. -/
structure Note where
  subject : Text
  kind : Kind
  fallback : Text
  deriving DecidableEq, Repr

/-- The word for a kind of reading. -/
def Kind.word : Kind → Text
  | integer => "integer".toList
  | float => "float".toList
  | size => "size".toList
  | text => "text".toList
  | char => "char".toList
  | truth => "boolean".toList
  | json => "json".toList

namespace Note

/-- The wording of a note. -/
def message (n : Note) : Text :=
  "Could not coerce ".toList ++ n.subject ++ " to ".toList ++ n.kind.word ++ ", using ".toList ++
    n.fallback ++ ['.']

/-- The note on a value, if the value can be displayed. -/
def on [Nesting] (v : Value) (kind : Kind) (fallback : Text) : List Note :=
  match v.quoted with
  | .ok subject => [⟨subject, kind, fallback⟩]
  | .error _ => []

end Note

namespace Value

/-- The number that is missed when a text is not an integer: the decimal it writes, if it writes
one, or else the plain text. -/
def missedInteger (s : Text) : Value :=
  match Scientific.read? (Text.plain s) with
  | some x => scientific x
  | none => text (Text.plain s)

/-- The value that a note on reading an integer shows. -/
def integerSubject : Value → Value
  | text s => missedInteger s
  | bytes false bs => missedInteger (Utf8.decode bs)
  | object o =>
    match o.toDouble with
    | .ok x => if o.isReal then float x else object o
    | .error _ => object o
  | v => v

/-- The note on a reading, if a default took the place of a value. -/
def noteOn [Nesting] {α : Type} (v : Value) (kind : Kind) (word : α → Text) :
    Except Fault (Coerced α) → List Note
  | .ok r => if r.ok then [] else Note.on v kind (word r.value)
  | .error _ => []

/-- The notes on reading an integer. -/
def integerNotes [Nesting] (v : Value) : List Note :=
  noteOn v.integerSubject .integer (fun _ => ['0']) v.toInteger

/-- The notes on reading a double. -/
def floatNotes [Nesting] (v : Value) : List Note :=
  noteOn v .float (fun _ => "0.0".toList) v.toFloat

/-- The notes on reading a value as a kind.  A missing size or text is no cause for one. -/
def notes [Nesting] (kind : Kind) (v : Value) : List Note :=
  match kind with
  | .integer => v.integerNotes
  | .float => v.floatNotes
  | .size =>
    match v with
    | null => []
    | v => v.floatNotes ++ noteOn v .size (fun _ => "None".toList) v.toSize
  | .text =>
    match v with
    | null => []
    | v => noteOn v .text Quoted.text v.toText
  | .char =>
    match v with
    | text s => if s.isEmpty then Note.on v .char "'\\x00'".toList else []
    | v => v.integerNotes ++ noteOn v .char (fun _ => "'\\x00'".toList) v.toChar
  | .truth => noteOn v .truth (fun _ => "True".toList) v.toTruth
  | .json => noteOn v .json (fun _ => "'null'".toList) v.toJson

end Value

/-! ## Notes on a template -/

namespace Conversion

/-- The kind of reading that a conversion asks for. -/
def kind (v : Conversion) : Kind :=
  match v.family with
  | .text => .text
  | .integer _ => .integer
  | .float _ => .float
  | .char => .char
  | .truth => .truth
  | .json => .json

end Conversion

namespace SizeOperand

/-- The reading of a size: none where it is a number in the template. -/
def readings : SizeOperand → List (Kind × Value)
  | literal _ => []
  | argument v => [(.size, v)]

end SizeOperand

namespace Operands

/-- The readings of a directive in the order in which they happen. -/
def readings (o : Operands) (kind : Kind) : List (Kind × Value) :=
  o.width.elim [] SizeOperand.readings ++ o.precision.elim [] SizeOperand.readings ++
    [(kind, o.value)]

end Operands

namespace Item

/-- The readings of an item. -/
def readings (c : Cursor) : Item → List (Kind × Value)
  | directive d => (d.operands c).1.readings d.conversion.kind
  | _ => []

end Item

namespace Lexeme

/-- The readings of lexemes one after the other. -/
def readings : List Lexeme → Cursor → List (Kind × Value)
  | [], _ => []
  | l :: ls, c =>
    match l.decode with
    | .ok item => item.readings c ++ readings ls (item.operands c).2
    | .error _ => []

end Lexeme

/-- The notes on formatting a template with arguments. -/
def notes [Nesting] (template : Text) (args : List Value) : List Note :=
  (Lexeme.readings (Lexeme.ofTemplate template) (Cursor.start args)).flatMap fun r =>
    r.2.notes r.1

end Stencil
