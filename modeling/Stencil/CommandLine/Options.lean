import Stencil.Text.Basic

/-!
# Command lines

A command line is options of the program, the name of a command, and options and words of the
command.  Short options may be combined in one argument; an option with a value takes it from the
rest of its argument or else from the next argument, whatever that looks like.  Two dashes end the
options.  Options of the program stand before the command; those of a command may stand among its
words.

`Invocation.ofArguments?` gives nothing for a command line that does not fit.
-/

set_option autoImplicit false

namespace Stencil

/-- An option. -/
inductive Switch where
  | verbose
  | plain
  | help
  | json
  | named
  | map
  deriving DecidableEq, Repr

namespace Switch

/-- The letter of an option after one dash. -/
def short : Switch → Char
  | verbose => 'v'
  | plain => 'p'
  | help => 'h'
  | json => 'j'
  | named => 'n'
  | map => 'm'

/-- The name of an option after two dashes. -/
def long : Switch → Text
  | verbose => "verbose".toList
  | plain => "plain".toList
  | help => "help".toList
  | json => "json".toList
  | named => "named".toList
  | map => "map".toList

/-- The option takes a value. -/
def takesValue : Switch → Bool
  | map => true
  | _ => false

end Switch

/-- An option as it is given, with its value if it takes one. -/
structure Setting where
  switch : Switch
  value : Text
  deriving DecidableEq, Repr

namespace Setting

/-- What one argument gives: settings, and at the end perhaps an option whose value is the next
argument. -/
structure Reading where
  settings : List Setting
  pending : Option Switch
  deriving DecidableEq, Repr

/-- Reads options by their letters. -/
def readShort? (allowed : List Switch) : Text → Option Reading
  | [] => some ⟨[], none⟩
  | c :: s =>
    match allowed.find? fun w => w.short = c with
    | none => none
    | some w =>
      if w.takesValue then
        if s.isEmpty then some ⟨[], some w⟩ else some ⟨[⟨w, s⟩], none⟩
      else (readShort? allowed s).map fun r => { r with settings := ⟨w, []⟩ :: r.settings }

/-- Reads an option by its name, perhaps with a value after an equals sign. -/
def readLong? (allowed : List Switch) (s : Text) : Option Reading :=
  match Text.splitAt? '=' s with
  | some (name, v) =>
    match allowed.find? fun w => w.long = name with
    | some w => if w.takesValue then some ⟨[⟨w, v⟩], none⟩ else none
    | none => none
  | none =>
    match allowed.find? fun w => w.long = s with
    | some w => if w.takesValue then some ⟨[], some w⟩ else some ⟨[⟨w, []⟩], none⟩
    | none => none

/-- Reads an argument that is one or more options. -/
def read? (allowed : List Switch) : Text → Option Reading
  | '-' :: '-' :: s => readLong? allowed s
  | '-' :: s => readShort? allowed s
  | _ => none

end Setting

/-- Options and words, apart. -/
structure Split where
  settings : List Setting
  words : List Text
  deriving DecidableEq, Repr

namespace Split

/-- An argument that is read as options. -/
def isOption : Text → Bool
  | '-' :: _ :: _ => true
  | _ => false

/-- Puts settings in front. -/
def withSettings (new : List Setting) (s : Split) : Split :=
  { s with settings := new ++ s.settings }

/-- Takes options and words apart.  If options may not stand among words, all arguments from the
first word on are words. -/
def ofArguments? (allowed : List Switch) (amongWords : Bool) : List Text → Option Split
  | [] => some ⟨[], []⟩
  | arg :: args =>
    if arg = ['-', '-'] then some ⟨[], args⟩
    else if isOption arg then
      match Setting.read? allowed arg with
      | none => none
      | some ⟨settings, none⟩ => (ofArguments? allowed amongWords args).map (withSettings settings)
      | some ⟨settings, some w⟩ =>
        match args with
        | [] => none
        | v :: args =>
          (ofArguments? allowed amongWords args).map (withSettings (settings ++ [⟨w, v⟩]))
    else if amongWords then
      (ofArguments? allowed amongWords args).map fun s => { s with words := arg :: s.words }
    else some ⟨[], arg :: args⟩

/-- How often an option is given. -/
def count (s : Split) (w : Switch) : Nat := s.settings.countP fun x => x.switch = w

/-- An option is given. -/
def has (s : Split) (w : Switch) : Bool := s.settings.any fun x => x.switch = w

/-- The values of an option in order. -/
def valuesOf (s : Split) (w : Switch) : List Text :=
  (s.settings.filter fun x => x.switch = w).map Setting.value

end Split

/-- What the program is asked to do. -/
inductive Command where
  | help
  | format (template : Text) (args : List Text) (json named : Bool) (map : List Text)
  | compile (template : Text) (map : List Text)
  | demo
  deriving DecidableEq, Repr

/-- A command and the options of the program. -/
structure Invocation where
  verbosity : Nat
  plain : Bool
  command : Command
  deriving DecidableEq, Repr

namespace Command

/-- The command that options and words after its name ask for. -/
def ofSplit? (name : Text) (s : Split) : Option Command :=
  if s.has .help then some help
  else if name = "format".toList then
    match s.words with
    | [] => none
    | template :: args =>
      some (format template args (s.has .json) (s.has .named) (s.valuesOf .map))
  else if name = "compile".toList then
    match s.words with
    | [template] => some (compile template (s.valuesOf .map))
    | _ => none
  else if s.words.isEmpty then some demo else none

/-- The options of a command. -/
def switches? (name : Text) : Option (List Switch) :=
  if name = "format".toList then some [.json, .named, .map, .help]
  else if name = "compile".toList then some [.map, .help]
  else if name = "demo".toList then some [.help]
  else none

end Command

namespace Invocation

/-- What a command line asks for. -/
def ofArguments? (args : List Text) : Option Invocation :=
  match Split.ofArguments? [.verbose, .plain, .help] false args with
  | none => none
  | some s =>
    let invocation (c : Command) : Invocation := ⟨s.count .verbose, s.has .plain, c⟩
    if s.has .help then some (invocation .help)
    else match s.words with
      | [] => none
      | name :: args =>
        match Command.switches? name with
        | none => none
        | some allowed =>
          match Split.ofArguments? allowed true args with
          | none => none
          | some s => (Command.ofSplit? name s).map invocation

end Invocation
end Stencil
