import Stencil.CommandLine.Options
import Stencil.Formatter
import Stencil.Json.Reader
import Stencil.Note
import Stencil.Text.Colour

/-!
# Running commands

`Outcome.ofArguments` answers a command line with an exit code and the two output texts:

* 0 with the result on the standard output, and, when debugging is asked for, a line on the error
  output for each compiled template and each argument that could not be read;
* 1 with a banner on the error output, when a placeholder is not in the format map;
* 2 when the command line does not fit, with a line on the error output when the fault is in the
  text of an argument.

Control sequences are taken out of the standard output and out of error lines; the banner keeps its
colours unless plain output is asked for.  All other faults are left to the caller.
-/

set_option autoImplicit false

namespace Stencil

/-- Why a command has no result. -/
inductive Refusal where
  /-- An entry of a map with indices has no index. -/
  | mapEntry (entry : Text)
  /-- An argument that should be given by name has no name. -/
  | namedArgument (arg : Text)
  /-- An argument is not JSON. -/
  | jsonArgument (arg : Text) (problem : Json.Problem)
  | fault (f : Fault)
  deriving DecidableEq, Repr

namespace Refusal

/-- The wording of a refusal that is due to the text of an argument. -/
def message? : Refusal → Option Text
  | mapEntry e =>
    some ("Expected NAME=INDEX for every map entry, got `".toList ++ e ++ "`.".toList)
  | namedArgument a => some ("Expected NAME=VALUE, got `".toList ++ a ++ "`.".toList)
  | jsonArgument a p =>
    some ("Argument `".toList ++ a ++ "` is not valid JSON: ".toList ++ p.message ++ ['.'])
  | fault _ => none

end Refusal

/-! ## Arguments -/

namespace Command

/-- An entry of a map with indices. -/
def mapEntry (entry : Text) : Except Refusal (Text × Int) :=
  match Text.splitAt? '=' entry with
  | some (name, index) =>
    if !index.isEmpty && index.all Text.isDigitLike then
      match Numeral.read index with
      | .ok n => .ok (name, n)
      | .error f => .error (.fault f)
    else .error (.mapEntry entry)
  | none => .error (.mapEntry entry)

/-- The format map of the entries: the standard one when there are none, one with indices when any
entry has an equals sign, and otherwise one of names. -/
def formatMap (entries : List Text) : Except Refusal FormatMap :=
  if entries.isEmpty then .ok .standard
  else if entries.any (fun e => '=' ∈ e) then (entries.mapM mapEntry).map .pairs
  else .ok (.names entries)

/-- The value of an argument: JSON if asked for, or else the text itself. -/
def argument [Nesting] (json : Bool) (arg : Text) : Except Refusal Value :=
  if json then
    match Json.read arg with
    | .ok v => .ok v
    | .error .numeralTooLong => .error (.fault .numeralTooLong)
    | .error .tooDeep => .error (.fault .tooDeep)
    | .error p => .error (.jsonArgument arg p)
  else .ok (.text arg)

/-- The name and the value of an argument that is given by name. -/
def namedArgument [Nesting] (json : Bool) (arg : Text) : Except Refusal (Text × Value) :=
  match Text.splitAt? '=' arg with
  | some (name, raw) => (argument json raw).map fun v => (name, v)
  | none => .error (.namedArgument arg)

/-! ## Results -/

/-- What a command prints: lines of output, and debugging lines. -/
structure Report where
  output : List Text
  debug : List Text
  deriving DecidableEq, Repr

/-- The debugging line for a compiled template. -/
def compiledLine (template compiled : Text) : Text :=
  "DEBUG printfmt.compiler: Compiled ".toList ++ Quoted.text template ++ " into ".toList ++
    Quoted.text compiled ++ ['.']

/-- The debugging line for a note. -/
def noteLine (n : Note) : Text := "DEBUG printfmt.coercion: ".toList ++ n.message

/-- A result of the library as the result of a command. -/
def lift {α : Type} : Except Fault α → Except Refusal α
  | .ok a => .ok a
  | .error f => .error (.fault f)

/-- The formatter of a command. -/
def formatter : Formatter := ⟨.standard⟩

/-- The debugging lines of a template that is formatted with arguments. -/
def noteLines [Nesting] (template : Text) (args : List Value) : List Text :=
  (notes template args).map noteLine

/-- The debugging lines of a template that is compiled and then formatted with arguments. -/
def compiledLines [Nesting] (map : FormatMap) (template : Text) (args : Except Fault (List Value)) :
    List Text :=
  match map.compile template, args with
  | .ok compiled, .ok args => compiledLine template compiled :: noteLines compiled args
  | _, _ => []

/-- The report on a template without names. -/
def reportFormat [Nesting] (template : Text) (args : List Value) : Except Refusal Report := do
  let output ← lift (formatter.render .empty template (.sequential (.tuple args))).1
  return ⟨[output], noteLines template args⟩

/-- The report on a template with names and its arguments by position. -/
def reportIndexed [Nesting] (map : FormatMap) (template : Text) (args : List Value) :
    Except Refusal Report := do
  let output ← lift (formatter.formatNamed .empty template (.list args) (.formatMap map)).1
  return ⟨[output], compiledLines map template (.ok args)⟩

/-- The report on a template with names and its arguments by name. -/
def reportNamed [Nesting] (map : FormatMap) (template : Text) (members : List (Text × Value)) :
    Except Refusal Report := do
  let values := Json.ofMembers members
  let output ← lift (formatter.formatNamed .empty template values (.formatMap map)).1
  return ⟨[output], compiledLines map template (map.slots >>= Source.arguments values)⟩

/-- The report on compiling a template. -/
def reportCompile [Nesting] (map : FormatMap) (template : Text) : Except Refusal Report := do
  let compiled ← lift (formatter.compile .empty (.formatMap map) template).1
  return ⟨[compiled], [compiledLine template compiled]⟩

/-- The examples of the demonstration: a template and its report. -/
def examples [Nesting] : List (Text × Except Refusal Report) :=
  let text (s : String) : Value := .text s.toList
  let positional := "%-1$s %-2$s: %4$s".toList
  let named := "%-date$s %-type$s: %message$s".toList
  let hex := "%#llx".toList
  let binary := "%#B".toList
  [(positional, reportFormat positional
      [text "2025-04-26", text "ERROR", text "unused", text "Disk full"]),
   (named, reportNamed .standard named
      [("date".toList, text "2025-04-26"), ("type".toList, text "ERROR"),
       ("message".toList, text "Disk full")]),
   (hex, reportFormat hex [.int 0x1FFFFFFFFFFF]),
   (binary, reportFormat binary [.int 42])]

/-- A demonstration line: the template in grey, filled up to 32 characters, and its output. -/
def exampleLine (template result : Text) : Text :=
  Colour.escape :: "[90m".toList ++ template ++ Text.fill ' ' (32 - template.length) ++
    Colour.escape :: "[0m ".toList ++ result

/-- Runs a command. -/
def run [Nesting] : Command → Except Refusal Report
  | help => .ok ⟨[], []⟩
  | compile template map => do reportCompile (← formatMap map) template
  | format template args json named map =>
    if named then do
      let members ← args.mapM (namedArgument json)
      reportNamed (← formatMap map) template members
    else do
      let values ← args.mapM (argument json)
      if map.isEmpty then reportFormat template values
      else reportIndexed (← formatMap map) template values
  | demo => do
    let reports ← examples.mapM fun e => e.2.map fun r => (e.1, r)
    return ⟨reports.flatMap fun r => r.2.output.map (exampleLine r.1),
      reports.flatMap fun r => r.2.debug⟩

end Command

/-! ## Outcomes -/

/-- What a run of the program leaves behind. -/
structure Outcome where
  exit : Nat
  stdout : Text
  stderr : Text
  deriving DecidableEq, Repr

namespace Outcome

/-- Text for an output that takes colour codes out if it should be plain. -/
def forOutput (plain : Bool) (s : Text) : Text := if plain then Colour.strip s else s

/-- A line. -/
def line (s : Text) : Text := s ++ ['\n']

/-- The banner for a placeholder that is not in the format map. -/
def banner (name template : Text) : Text :=
  let esc := Colour.escape
  line (esc :: "[30;43m COMPILE ERROR. ".toList ++ esc :: "[0m Placeholder `".toList ++
    esc :: "[1;97m".toList ++ name ++ esc :: "[0m` is not in the format map.".toList) ++
  line (esc :: "[90m  ".toList ++ template ++ esc :: "[0m".toList)

/-- The outcome of a command line that does not fit. -/
def usage : Outcome := ⟨2, [], []⟩

/-- The outcome of an invocation.  Debugging is on at the second degree of verbosity. -/
def ofInvocation [Nesting] (debug : Bool) (i : Invocation) : Except Fault Outcome :=
  match i.command.run with
  | .ok report =>
    .ok {
      exit := 0
      stdout := report.output.flatMap fun s => forOutput i.plain (Colour.stripAll (line s))
      stderr :=
        if debug || 2 ≤ i.verbosity then
          report.debug.flatMap fun s => forOutput i.plain (line s)
        else [] }
  | .error (.fault (.undeclared name template)) =>
    .ok ⟨1, [], forOutput i.plain (banner name template)⟩
  | .error (.fault f) => .error f
  | .error r =>
    .ok {
      exit := 2
      stdout := []
      stderr := forOutput i.plain
        (Colour.stripAll (line ("Error: Invalid value: ".toList ++ r.message?.getD []))) }

/-- The outcome of a command line. -/
def ofArguments [Nesting] (debug : Bool) (args : List Text) : Except Fault Outcome :=
  match Invocation.ofArguments? args with
  | some i => ofInvocation debug i
  | none => .ok usage

end Outcome
end Stencil
