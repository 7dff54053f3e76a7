import Stencil.Proofs.CommandLine.Spelling
import Stencil.Proofs.Format.Faults
import Stencil.Proofs.FormatMap.Named
import Stencil.Proofs.Text.Colour

/-!
# The command line and the library

A command line is another way to call the library.  `LibraryCall` has the three calls that there
are commands for, and `Asks` says which command lines ask for which call: arguments by position
without a map, by position with one, by name, or just to compile.  The words stand after two
dashes, so a template or an argument may look like an option or have equals signs.

What the program does is then said by `Outcome.Shows`: it prints the result of the call without its
control sequences, reports an undeclared placeholder with its name and its template, and leaves all
other faults to the caller.  `Outcome.ofArguments_shows` is that it does so for all templates,
arguments and maps.

The way there is made in three steps: a command line that asks for a call is read as a command, the
command runs the call, and its report is turned into an outcome.  Whatever a command adds of its
own, such as lines for debugging, goes elsewhere than the result.
-/

set_option autoImplicit false

namespace Stencil

open Fallible

/-! ## Dictionaries of arguments

Arguments with names come as pairs, in which a name may occur several times, and are put into a
dictionary one by one.  Formatting only ever looks names up, so a dictionary counts for no more than
the last value of each name (`GivesLast`). -/

namespace Json

/-- The value that is found under a name is the one that was put there last. -/
theorem find?_insert (entries : List (Text × Value)) (name : Text) (v : Value) (n : Text) :
    (insert entries name v).find? (fun e => e.1 = n) =
      if name = n then some (name, v) else entries.find? fun e => e.1 = n := by
  rw [insert]
  split
  · rename_i hany
    have hkeys : ((fun e : Text × Value => decide (e.1 = n)) ∘ fun e =>
        if e.1 = name then (name, v) else e) = fun e => decide (e.1 = n) := by
      funext e
      by_cases he : e.1 = name <;> simp [he]
    rw [List.find?_map, hkeys]
    by_cases hn : name = n
    · subst hn
      obtain ⟨e, he, hen⟩ := List.any_eq_true.1 hany
      have hsome : (entries.find? fun e => e.1 = name).isSome := List.find?_isSome.2 ⟨e, he, hen⟩
      obtain ⟨f, hf⟩ := Option.isSome_iff_exists.1 hsome
      have hfn : f.1 = name := by simpa using List.find?_some hf
      rw [hf, if_pos rfl, Option.map_some, if_pos hfn]
    · rw [if_neg hn]
      cases hf : entries.find? fun e => e.1 = n with
      | none => rfl
      | some f =>
        have hfn : f.1 = n := by simpa using List.find?_some hf
        rw [Option.map_some, if_neg fun h => hn (h.symm.trans hfn)]
  · rename_i hany
    have hnone : name = n → entries.find? (fun e => e.1 = n) = none := by
      rintro rfl
      rw [List.find?_eq_none]
      exact fun e he hn => hany (List.any_eq_true.2 ⟨e, he, hn⟩)
    rw [List.find?_append]
    by_cases hn : name = n
    · rw [hnone hn, if_pos hn]
      simp [hn]
    · simp [hn]

/-- Of several values that are put under a name one after the other the last one is found. -/
theorem find?_foldl_insert (ms : List (Text × Value)) (entries : List (Text × Value)) (n : Text) :
    (ms.foldl (fun es m => insert es m.1 m.2) entries).find? (fun e => e.1 = n) =
      (ms.reverse.find? fun m => m.1 = n).or (entries.find? fun e => e.1 = n) := by
  induction ms generalizing entries with
  | nil => rfl
  | cons m ms ih =>
    obtain ⟨name, v⟩ := m
    rw [List.foldl_cons, ih, find?_insert, List.reverse_cons, List.find?_append, Option.or_assoc]
    congr 1
    by_cases hn : name = n <;> simp [hn]

end Json

/-- A dictionary has the values that are given for names, the last one for each name. -/
def GivesLast (es : List (Value × Value)) (pairs : List (Text × Text)) : Prop :=
  ∀ name, Source.arguments.lookup name es =
    ((pairs.reverse.find? fun p => p.1 = name).map fun p => .text p.2).getD .null

namespace Source

theorem lookup_map (name : Text) (entries : List (Text × Value)) :
    arguments.lookup name (entries.map fun e => (.text e.1, e.2)) =
      ((entries.find? fun e => e.1 = name).map (·.2)).getD .null := by
  rw [arguments.lookup, List.find?_map, Option.map_map]
  rfl

/-- Arguments depend on a dictionary only through the values of names. -/
theorem arguments_congr {es es' : List (Value × Value)}
    (h : ∀ name, arguments.lookup name es = arguments.lookup name es')
    (slots : List (Option Text)) : arguments (.dict es) slots = arguments (.dict es') slots := by
  rw [arguments, arguments]
  congr 1
  funext slot
  cases slot with
  | none => rfl
  | some name => exact congrArg _ (h name)

end Source

theorem Json.exists_ofMembers (pairs : List (Text × Text)) :
    ∃ es, Json.ofMembers (pairs.map fun p => (p.1, .text p.2)) = .dict es ∧ GivesLast es pairs := by
  refine ⟨_, rfl, fun name => ?_⟩
  rw [Source.lookup_map, Json.find?_foldl_insert, List.find?_nil, Option.or_none,
    ← List.map_reverse, List.find?_map, Option.map_map]
  rfl

namespace Formatter

/-- Formatting by name depends on a dictionary only through the values of names. -/
theorem formatNamed_congr [Nesting] {es es' : List (Value × Value)}
    (h : ∀ name, Source.arguments.lookup name es = Source.arguments.lookup name es')
    (f : Formatter) (c : Cache) (template : Text) (map : Value) :
    f.formatNamed c template (.dict es) map = f.formatNamed c template (.dict es') map := by
  rw [formatNamed, formatNamed]
  cases f.chooseMap map with
  | error e => rfl
  | ok m =>
    show f.render c template (.named (.dict es) (.formatMap m)) =
      f.render c template (.named (.dict es') (.formatMap m))
    rw [render, render]
    cases m.slots with
    | error e => rfl
    | ok slots =>
      rw [ok_bind, ok_bind, Source.arguments_congr h]

end Formatter

/-! ## Calls of the library

The call is what a programmer would write, with the map and the arguments already read.  `Asks` is
the only place that knows how it is spelled on a command line. -/

/-- A call of the library on a template. -/
inductive LibraryCall where
  /-- Arguments by position, for a template without names. -/
  | sprintf (args : List Value)
  /-- Arguments of either kind, for a template with names. -/
  | formatNamed (args : Value) (map : FormatMap)
  | compile (map : FormatMap)

/-- The result of a call, on a formatter that has done nothing before. -/
def LibraryCall.result [Nesting] (template : Text) : LibraryCall → Except Fault Text
  | sprintf args => formatWith template (.tuple args)
  | formatNamed args map =>
    (Command.formatter.formatNamed .empty template args (.formatMap map)).1
  | compile map => map.compile template

open Command (Declares)
open Invocation (commandLine)

/-- The command lines that ask for a call of the library. -/
inductive Asks (template : Text) : List Text → LibraryCall → Prop where
  | sprintf (args : List Text) :
      Asks template (commandLine "format".toList [] (template :: args))
        (.sprintf (args.map .text))
  | byPosition {opts entries : List Text} {map : FormatMap} (hs : Spells opts false entries)
      (hne : entries ≠ []) (hm : Declares entries map) (args : List Text) :
      Asks template (commandLine "format".toList opts (template :: args))
        (.formatNamed (.list (args.map .text)) map)
  | byName {opts entries : List Text} {map : FormatMap} (hs : Spells opts true entries)
      (hm : Declares entries map) {pairs : List (Text × Text)} (hn : ∀ p ∈ pairs, '=' ∉ p.1)
      {es : List (Value × Value)} (hes : GivesLast es pairs) :
      Asks template
        (commandLine "format".toList opts (template :: pairs.map fun p => p.1 ++ '=' :: p.2))
        (.formatNamed (.dict es) map)
  | compile {opts entries : List Text} {map : FormatMap} (hs : Spells opts false entries)
      (hm : Declares entries map) :
      Asks template (commandLine "compile".toList opts [template]) (.compile map)

/-! ## Commands

A command reads its words into arguments and a map, and calls the library with them.  Words are read
as they are here, since no option asks for anything else. -/

namespace Command

variable {template : Text} {entries args : List Text} {map : FormatMap}

/-- The command does what a call does, and adds lines for debugging. -/
def Runs [Nesting] (c : Command) (result : Except Fault Text) : Prop :=
  ∃ debug : Text → List Text, c.run = (lift result).map fun s => ⟨[s], debug s⟩

theorem lift_bind_eq_map (result : Except Fault Text) (debug : Text → List Text) :
    (do
      let s ← lift result
      return (⟨[s], debug s⟩ : Report)) = (lift result).map fun s => ⟨[s], debug s⟩ := by
  cases lift result <;> rfl

theorem mapM_argument [Nesting] (args : List Text) :
    args.mapM (argument false) = .ok (args.map Value.text) :=
  mapM_eq_ok fun _ _ => rfl

theorem mapM_namedArgument [Nesting] {pairs : List (Text × Text)} (h : ∀ p ∈ pairs, '=' ∉ p.1) :
    (pairs.map fun p => p.1 ++ '=' :: p.2).mapM (namedArgument false) =
      .ok (pairs.map fun p => (p.1, .text p.2)) := by
  induction pairs with
  | nil => rfl
  | cons p pairs ih =>
    obtain ⟨hp, hpairs⟩ := List.forall_mem_cons.1 h
    have hnamed : namedArgument false (p.1 ++ '=' :: p.2) = .ok (p.1, .text p.2) := by
      rw [namedArgument, Text.splitAt?_append hp]
      rfl
    exact mapM_cons_ok hnamed (ih hpairs)

/-- Arguments without a map are formatted by position. -/
theorem runs_sprintf [Nesting] (args : List Text) :
    (format template args false false []).Runs
      (LibraryCall.result template (.sprintf (args.map .text))) := by
  refine ⟨fun _ => noteLines template (args.map .text), ?_⟩
  show (args.mapM (argument false) >>= fun values => reportFormat template values) = _
  rw [mapM_argument, ok_bind]
  exact lift_bind_eq_map ..

/-- Arguments with a map are assigned to its names in order. -/
theorem runs_byPosition [Nesting] (hne : entries ≠ []) (hm : Declares entries map)
    (args : List Text) :
    (format template args false false entries).Runs
      (LibraryCall.result template (.formatNamed (.list (args.map .text)) map)) := by
  refine ⟨fun _ => compiledLines map template (.ok (args.map .text)), ?_⟩
  have hempty : entries.isEmpty = false := List.isEmpty_eq_false_iff.2 hne
  show (args.mapM (argument false) >>= fun values =>
    if entries.isEmpty then reportFormat template values
    else formatMap entries >>= fun m => reportIndexed m template values) = _
  rw [mapM_argument, ok_bind, hempty, formatMap_eq_ok_iff.2 hm]
  exact lift_bind_eq_map ..

/-- Arguments with names go to the placeholders with these names. -/
theorem runs_byName [Nesting] (hm : Declares entries map) {pairs : List (Text × Text)}
    (hn : ∀ p ∈ pairs, '=' ∉ p.1) {es : List (Value × Value)} (hes : GivesLast es pairs) :
    (format template (pairs.map fun p => p.1 ++ '=' :: p.2) false true entries).Runs
      (LibraryCall.result template (.formatNamed (.dict es) map)) := by
  obtain ⟨es', hes', hlast⟩ := Json.exists_ofMembers pairs
  have hlookup (name : Text) :
      Source.arguments.lookup name es' = Source.arguments.lookup name es := by
    rw [hes name, hlast name]
  refine ⟨fun _ => compiledLines map template (map.slots >>= Source.arguments (.dict es')), ?_⟩
  show ((pairs.map fun p => p.1 ++ '=' :: p.2).mapM (namedArgument false) >>= fun members =>
    formatMap entries >>= fun m => reportNamed m template members) = _
  rw [mapM_namedArgument hn, ok_bind, formatMap_eq_ok_iff.2 hm, ok_bind, reportNamed, hes',
    LibraryCall.result, ← formatter.formatNamed_congr hlookup]
  exact lift_bind_eq_map ..

/-- A formatter that has done nothing before compiles a template as its map says. -/
theorem formatter_compile [Nesting] (map : FormatMap) (template : Text) :
    (formatter.compile .empty (.formatMap map) template).1 = map.compile template := by
  have hchoose : formatter.chooseMap (.formatMap map) = .ok map := rfl
  simp only [Formatter.compile, hchoose, Cache.compile, ok_bind]
  cases map.compile template <;> rfl

/-- A template alone is compiled. -/
theorem runs_compile [Nesting] (hm : Declares entries map) :
    (compile template entries).Runs (LibraryCall.result template (.compile map)) := by
  refine ⟨fun compiled => [compiledLine template compiled], ?_⟩
  show (formatMap entries >>= fun m => reportCompile m template) = _
  rw [formatMap_eq_ok_iff.2 hm, ok_bind, reportCompile, formatter_compile]
  exact lift_bind_eq_map ..

end Command

/-- **A command line that asks for a call is read as a command that runs it.** -/
theorem Asks.exists_command [Nesting] {template : Text} {words : List Text} {call : LibraryCall}
    (h : Asks template words call) :
    ∃ c : Command, Invocation.ofArguments? words = some ⟨0, false, c⟩ ∧
      c.Runs (call.result template) := by
  cases h with
  | sprintf args => exact ⟨_, Invocation.ofArguments?_format .nothing .., Command.runs_sprintf args⟩
  | byPosition hs hne hm args =>
    exact ⟨_, Invocation.ofArguments?_format hs .., Command.runs_byPosition hne hm args⟩
  | byName hs hm hn hes =>
    exact ⟨_, Invocation.ofArguments?_format hs .., Command.runs_byName hm hn hes⟩
  | compile hs hm => exact ⟨_, Invocation.ofArguments?_compile hs .., Command.runs_compile hm⟩

/-! ## Outcomes

The result of a call is a text or a fault, and a call can only fail in a few ways.  One of them is
reported by the program itself, in the form of a banner that shows the name and the template. -/

/-- A call of the library fails with the faults of formatting, or because of a name. -/
theorem LibraryCall.result_failsOnly [Nesting] (template : Text) (call : LibraryCall) :
    FailsOnly (Fault.IsOf template) (call.result template) := by
  cases call with
  | sprintf args =>
    exact (formatWith_failsOnly template _).mono fun e he =>
      Fault.isOf_of_isOfFormatting he template
  | formatNamed args map => exact Command.formatter.formatNamed_failsOnly .empty map template args
  | compile map => exact map.compile_failsOnly template

namespace Outcome

variable {template name : Text}

/-- What the program does with the result of a call on a template. -/
structure Shows (template : Text) (result : Except Fault Text)
    (outcome : Except Fault Outcome) : Prop where
  returned : ∀ s, result = .ok s →
    ∃ err, outcome = .ok ⟨0, Colour.stripAll s ++ ['\n'], err⟩
  undeclared : ∀ name t, result = .error (.undeclared name t) → t = template ∧
    ∃ err, outcome = .ok ⟨1, [], err⟩ ∧ name <:+: err ∧ template <:+: err
  other : ∀ f, result = .error f → (∀ name t, f ≠ .undeclared name t) → outcome = .error f

theorem infix_line {s t : Text} (h : s <:+: t) : s <:+: line t :=
  h.trans (List.prefix_append t _).isInfix

theorem name_infix_banner (name template : Text) : name <:+: banner name template :=
  (infix_line (List.infix_append _ name _)).trans (List.prefix_append _ _).isInfix

theorem template_infix_banner (name template : Text) : template <:+: banner name template :=
  (infix_line (List.infix_append _ template _)).trans (List.suffix_append _ _).isInfix

theorem shows_of_runs [Nesting] {c : Command} {result : Except Fault Text} (hc : c.Runs result)
    (hf : FailsOnly (Fault.IsOf template) result) (debug : Bool) :
    Shows template result (ofInvocation debug ⟨0, false, c⟩) := by
  obtain ⟨lines, hrun⟩ := hc
  rw [ofInvocation, hrun]
  cases result with
  | ok s =>
    refine ⟨?_, nofun, nofun⟩
    rintro s' ⟨⟩
    have hout : [s].flatMap (fun s => forOutput false (Colour.stripAll (line s))) =
        Colour.stripAll s ++ ['\n'] := by
      rw [List.flatMap_singleton]
      exact Colour.removeWhere_append (by decide) s
    exact ⟨_, congrArg (fun out => Except.ok (Outcome.mk 0 out _)) hout⟩
  | error f =>
    refine ⟨nofun, ?_, ?_⟩
    · rintro name t ⟨⟩
      obtain rfl := hf _ rfl name t rfl
      exact ⟨rfl, banner name t, rfl, name_infix_banner name t, template_infix_banner name t⟩
    · rintro f' ⟨⟩ hne
      cases f with
      | undeclared name t => exact absurd rfl (hne name t)
      | _ => rfl

/-- **The program prints what the library returns.** -/
theorem ofArguments_shows [Nesting] {words : List Text} {call : LibraryCall}
    (h : Asks template words call)
    (debug : Bool) : Shows template (call.result template) (ofArguments debug words) := by
  obtain ⟨c, hc, hruns⟩ := h.exists_command
  rw [ofArguments, hc]
  exact shows_of_runs hruns (call.result_failsOnly template) debug

/-- The later of two values that are given for a name is printed, and what comes after its second
equals sign belongs to it.  Colours are taken out of a value.  A name that is not in the standard
map is reported. -/
theorem ofArguments_shows_later :
    let words := commandLine "format".toList ["-n".toList, "-m".toList, "a=1".toList]
      ["%a$s".toList, "a=x".toList, "a=y=z".toList]
    let words' := commandLine "compile".toList [] ["%b$s".toList]
    let red : Text := Colour.escape :: "[31mred".toList ++ Colour.escape :: "[0m".toList
    let words'' := commandLine "format".toList [] ["%s".toList, red]
    Asks "%a$s".toList words (.formatNamed (.dict [(.text ['a'], .text "y=z".toList)])
        (.pairs [(['a'], 1)])) ∧
      Asks "%b$s".toList words' (.compile .standard) ∧
      Asks "%s".toList words'' (.sprintf [.text red]) ∧
      (∃ err, ofArguments false words = .ok ⟨0, "y=z\n".toList, err⟩) ∧
      (∃ err, ofArguments false words'' = .ok ⟨0, "red\n".toList, err⟩) ∧
      ∃ err, ofArguments false words' = .ok ⟨1, [], err⟩ ∧ ['b'] <:+: err ∧
        "%b$s".toList <:+: err := by
  intro words words' red words''
  have hentry : ∀ p ∈ [((['a'], ['1']) : Text × Text)], '=' ∉ p.1 ∧ Numeral.IsIndex p.2 := by
    have hdigit : Text.isDecimalDigit '1' := by decide
    simp only [List.forall_mem_singleton]
    exact ⟨by decide, ⟨by simp, by simpa using hdigit⟩, by simp [Numeral.digitLimit]⟩
  have hpairs : ∀ p ∈ [((['a'], ['x']) : Text × Text), (['a'], "y=z".toList)], '=' ∉ p.1 := by
    decide
  have hes : GivesLast [(.text ['a'], .text "y=z".toList)]
      [(['a'], ['x']), (['a'], "y=z".toList)] := by
    obtain ⟨es, hes, hlast⟩ := Json.exists_ofMembers [(['a'], ['x']), (['a'], "y=z".toList)]
    cases hes
    exact hlast
  have hnamed : Asks "%a$s".toList words
      (.formatNamed (.dict [(.text ['a'], .text "y=z".toList)]) (.pairs [(['a'], 1)])) :=
    .byName (.named (by decide) (.entry .letter .nothing))
      (.indices (List.cons_ne_nil _ _) hentry) hpairs hes
  have hcompile : Asks "%b$s".toList words' (.compile .standard) := .compile .nothing .standard
  have hresult : LibraryCall.result "%a$s".toList
      (.formatNamed (.dict [(.text ['a'], .text "y=z".toList)]) (.pairs [(['a'], 1)])) =
        .ok "y=z".toList := by decide +kernel
  have hstrip : Colour.stripAll "y=z".toList = "y=z".toList :=
    Colour.removeWhere_eq_self_of_not_mem (by decide)
  have hformat : Asks "%s".toList words'' (.sprintf [.text red]) := .sprintf [red]
  have hred : LibraryCall.result "%s".toList (.sprintf [.text red]) = .ok red := by
    decide +kernel
  have hplain : Colour.stripAll red = "red".toList := by decide +kernel
  have hfault : LibraryCall.result "%b$s".toList (.compile .standard) =
      .error (.undeclared ['b'] "%b$s".toList) := by decide +kernel
  refine ⟨hnamed, hcompile, hformat, ?_, ?_, ?_⟩
  · obtain ⟨err, herr⟩ := (ofArguments_shows hnamed false).returned _ hresult
    rw [hstrip] at herr
    exact ⟨err, herr⟩
  · obtain ⟨err, herr⟩ := (ofArguments_shows hformat false).returned _ hred
    rw [hplain] at herr
    exact ⟨err, herr⟩
  · exact ((ofArguments_shows hcompile false).undeclared _ _ hfault).2

end Outcome
end Stencil
