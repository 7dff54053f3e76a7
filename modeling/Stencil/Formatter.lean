import Stencil.Cache
import Stencil.Format

/-!
# Formatters

A formatter has a format map of its own and works on a cache.  It formats positional arguments,
arguments by position for a template with names, and arguments by name.

An operation gives its answer and the cache it leaves.  When formatting fails after a template was
compiled, the compiled form stays in the cache.
-/

set_option autoImplicit false

namespace Stencil

/-- Where the arguments of a template come from. -/
inductive Source where
  /-- Arguments by position, for a template without names. -/
  | sequential (values : Value)
  /-- Arguments by position, for a template whose names the map turns into positions. -/
  | indexed (values map : Value)
  /-- Arguments by name, for a template whose names the map turns into positions. -/
  | named (values map : Value)
  /-- A value that is no source. -/
  | other (v : Value)
  deriving Repr

namespace Source

/-- The values of names, one for each slot; null where a slot has no name or the name no value. -/
def arguments (values : Value) (slots : List (Option Text)) : Except Fault (List Value) :=
  slots.mapM fun slot =>
    match slot, values with
    | none, _ => .ok .null
    | some name, .dict es => .ok (lookup name es)
    | some _, _ => .error .notNamed
where
  /-- The value of a name in a dictionary, and null where it has none. -/
  lookup (name : Text) (es : List (Value × Value)) : Value :=
    ((es.find? fun e => match e.1 with
      | .text key => key = name
      | _ => false).map (·.2)).getD .null

end Source

/-- A formatter: the map it uses where none is given. -/
structure Formatter where
  map : FormatMap
  deriving DecidableEq, Repr

namespace Formatter

/-- The map of an operation: the one that is given, or else the formatter's own. -/
def chooseMap [Nesting] (f : Formatter) : Value → Except Fault FormatMap
  | .null => .ok f.map
  | v => FormatMap.ofValue v

/-- Compiles a template. -/
def compile [Nesting] (f : Formatter) (c : Cache) (map : Value) (template : Text) :
    Except Fault Text × Cache :=
  match f.chooseMap map with
  | .error e => (.error e, c)
  | .ok m => c.compile (.ok m) template

/-- Compiles a template and formats arguments with the result. -/
def formatCompiled [Nesting] (f : Formatter) (c : Cache) (map : Value) (template : Text)
    (args : Value) : Except Fault Text × Cache :=
  match f.compile c map template with
  | (.ok compiled, c) => (formatWith compiled args, c)
  | (.error e, c) => (.error e, c)

/-- Formats a template with arguments from a source. -/
def render [Nesting] (f : Formatter) (c : Cache) (template : Text) :
    Source → Except Fault Text × Cache
  | .sequential values => (formatWith template values, c)
  | .indexed values map => f.formatCompiled c map template values
  | .named values map =>
    match map with
    | .formatMap m =>
      match m.slots >>= Source.arguments values with
      | .ok args => f.formatCompiled c map template (.list args)
      | .error e => (.error e, c)
    | _ => (.error .notNamed, c)
  | .other v => (.error (.unsupportedSource v.typeName), c)

/-- Formats a template with named placeholders; a dictionary gives its arguments by name, any other
value by position. -/
def formatNamed [Nesting] (f : Formatter) (c : Cache) (template : Text) (args map : Value) :
    Except Fault Text × Cache :=
  match f.chooseMap map with
  | .error e => (.error e, c)
  | .ok m =>
    match args with
    | .dict _ => f.render c template (.named args (.formatMap m))
    | _ => f.render c template (.indexed args (.formatMap m))

end Formatter
end Stencil
