import Stencil.Proofs.CommandLine.MapEntries
import Stencil.Proofs.Json.Limits

/-!
# Reading the words of a command

A command reads its words before it asks the library for anything: first its arguments, then its
map entries (`Command.words`).  `Command.read` is that stage alone, and `Task.report` is what comes
after it (`Command.run_eq`).

A word fits, or it is refused with a message, or it is **overread**: it passes the test that stands
before its reading, and the reading itself fails.  This happens to an index that only looks numeric,
to a JSON argument with an integer that has too many digits, and to one that is nested deeper than
can be followed.  The first word that does not fit decides how the command ends
(`Outcome.ofInvocation_reading`): with exit code 2 and nothing on the standard output, as it should,
unless it is overread.  Then the fault of reading it is left to the caller.

Which words are overread is a question about their reading.  That a word is not can be seen from its
text (`Word.IsWithin`), and where this is seen of all words, a command whose words do not fit ends
as it should (`Outcome.ofInvocation_of_isWithin`).
-/

set_option autoImplicit false

namespace Stencil

open Fallible Nesting
open Numeral (IsIndex Overread)

/-! ## The two stages of a command

A command is written as one computation.  It is shown to be two of them in a row, of which the first
knows the words and the second only their values.  So nothing that happens after the words are read
is due to their text. -/

/-- What is left to do once the words of a command are read. -/
inductive Task where
  | help
  | demo
  | format (template : Text) (values : List Value)
  | formatIndexed (map : FormatMap) (template : Text) (values : List Value)
  | formatNamed (map : FormatMap) (template : Text) (members : List (Text × Value))
  | compile (map : FormatMap) (template : Text)

/-- What a command prints once its words are read. -/
def Task.report [Nesting] : Task → Except Refusal Command.Report
  | help => Command.run .help
  | demo => Command.run .demo
  | format template values => Command.reportFormat template values
  | formatIndexed map template values => Command.reportIndexed map template values
  | formatNamed map template members => Command.reportNamed map template members
  | compile map template => Command.reportCompile map template

namespace Command

/-- Reads the words of a command. -/
def read [Nesting] : Command → Except Refusal Task
  | help => .ok .help
  | demo => .ok .demo
  | compile template map => do return .compile (← formatMap map) template
  | format template args json named map =>
    if named then do
      let members ← args.mapM (namedArgument json)
      return .formatNamed (← formatMap map) template members
    else do
      let values ← args.mapM (argument json)
      if map.isEmpty then return .format template values
      else return .formatIndexed (← formatMap map) template values

/-- **Running a command is reading its words, and then doing what they ask for.** -/
theorem run_eq [Nesting] (c : Command) : c.run = c.read >>= Task.report := by
  cases c with
  | help => rfl
  | demo => rfl
  | compile template map =>
    show (formatMap map >>= fun m => reportCompile m template) = (formatMap map >>= _) >>= _
    cases formatMap map <;> rfl
  | format template args json named map =>
    cases named with
    | true =>
      show (args.mapM (namedArgument json) >>= fun ms => formatMap map >>= fun m =>
        reportNamed m template ms) = (args.mapM (namedArgument json) >>= _) >>= _
      cases args.mapM (namedArgument json) with
      | error r => rfl
      | ok members => cases formatMap map <;> rfl
    | false =>
      show (args.mapM (argument json) >>= fun values =>
        if map.isEmpty then reportFormat template values
        else formatMap map >>= fun m => reportIndexed m template values) =
          (args.mapM (argument json) >>= _) >>= _
      cases args.mapM (argument json) with
      | error r => rfl
      | ok values =>
        cases map with
        | nil => rfl
        | cons e map => cases formatMap (e :: map) <;> rfl

theorem lift_failsOnly {α : Type} (x : Except Fault α) :
    FailsOnly (fun r => ∃ f, r = .fault f) (lift x) := by
  cases x with
  | ok a => exact .ok a
  | error f => exact .error ⟨f, rfl⟩

theorem examples_failsOnly [Nesting] :
    ∀ e ∈ examples, FailsOnly (fun r => ∃ f, r = .fault f) e.2 := by
  simp only [examples, List.forall_mem_cons]
  exact ⟨(lift_failsOnly _).bind_pure _, (lift_failsOnly _).bind_pure _,
    (lift_failsOnly _).bind_pure _, (lift_failsOnly _).bind_pure _, nofun⟩

end Command

/-- Once the words are read, no refusal is due to their text. -/
theorem Task.report_failsOnly [Nesting] (t : Task) :
    FailsOnly (fun r => ∃ f, r = .fault f) t.report := by
  cases t with
  | help => exact .ok _
  | demo => exact (FailsOnly.mapM fun e he => (Command.examples_failsOnly e he).map _).bind_pure _
  | format template values => exact (Command.lift_failsOnly _).bind_pure _
  | formatIndexed map template values => exact (Command.lift_failsOnly _).bind_pure _
  | formatNamed map template members => exact (Command.lift_failsOnly _).bind_pure _
  | compile map template => exact (Command.lift_failsOnly _).bind_pure _

/-! ## Words

A word is a text together with what it is read as, since the same text may be an argument and a map
entry.  For each kind of word there are two conditions, for being read and for being overread, and
what satisfies neither is refused. -/

/-- A text that a command reads, and what it is read as. -/
inductive Word where
  /-- An entry of a map with indices. -/
  | entry (s : Text)
  /-- An argument by position, as JSON or as it is. -/
  | argument (json : Bool) (s : Text)
  /-- An argument by name, its value as JSON or as it is. -/
  | member (json : Bool) (s : Text)
  deriving DecidableEq, Repr

namespace Word

/-- Reads a word, to see whether it can be read. -/
def read [Nesting] : Word → Except Refusal Unit
  | entry s => (Command.mapEntry s).map fun _ => ()
  | argument json s => (Command.argument json s).map fun _ => ()
  | member json s => (Command.namedArgument json s).map fun _ => ()

/-- The value of an argument can be read. -/
def FitsValue [Nesting] (json : Bool) (s : Text) : Prop := json → ∃ v, Json.read s = .ok v

/-- Reading the value of an argument meets an integer with too many digits, or it gets deeper than
can be followed. -/
inductive OverreadValue [Nesting] (json : Bool) (s : Text) : Fault → Prop where
  | long (hj : json) (h : Json.read s = .error .numeralTooLong) :
      OverreadValue json s .numeralTooLong
  | deep (hj : json) (h : Json.read s = .error .tooDeep) : OverreadValue json s .tooDeep

/-- A JSON argument that is one integer with too many digits is overread. -/
theorem overreadValue_of_long [Nesting] (negative : Bool) {ds : Text} (h : Json.IsWhole ds)
    (hl : Numeral.digitLimit < ds.length) :
    OverreadValue true (Layout.signText negative ++ ds) .numeralTooLong :=
  .long rfl (Json.read_eq_error_of_long negative h hl)

/-- A JSON argument with a bracket for each level and one more in front is overread. -/
theorem overreadValue_of_deep [Nesting] (s : Text) :
    OverreadValue true (List.replicate (readLimit + 1) '[' ++ s) .tooDeep :=
  .deep rfl (Json.read_eq_error_of_deep s)

/-- The word can be read. -/
def Fits [Nesting] : Word → Prop
  | entry s => ∃ name index, s = name ++ '=' :: index ∧ '=' ∉ name ∧ IsIndex index
  | argument json s => FitsValue json s
  | member json s => ∃ name raw, s = name ++ '=' :: raw ∧ '=' ∉ name ∧ FitsValue json raw

/-- The word passes the test before its reading, and reading it fails. -/
def IsOverread [Nesting] (w : Word) (f : Fault) : Prop :=
  match w with
  | entry s => ∃ name index, s = name ++ '=' :: index ∧ '=' ∉ name ∧ Overread index f
  | argument json s => OverreadValue json s f
  | member json s => ∃ name raw, s = name ++ '=' :: raw ∧ '=' ∉ name ∧ OverreadValue json raw f

/-- An argument can be read exactly if its value fits. -/
theorem argument_eq_ok_iff [Nesting] {json : Bool} {s : Text} :
    (∃ v, Command.argument json s = .ok v) ↔ FitsValue json s := by
  rw [Command.argument, FitsValue]
  cases json with
  | false => exact iff_of_true ⟨_, rfl⟩ nofun
  | true =>
    simp only [if_true, forall_const]
    split
    · rename_i v hv
      exact iff_of_true ⟨v, rfl⟩ ⟨v, hv⟩
    · rename_i hp
      rw [hp]
      exact iff_of_false nofun nofun
    · rename_i hp
      rw [hp]
      exact iff_of_false nofun nofun
    · rename_i p _ _ hp
      rw [hp]
      exact iff_of_false nofun nofun

theorem argument_eq_fault_iff [Nesting] {json : Bool} {s : Text} {f : Fault} :
    Command.argument json s = .error (.fault f) ↔ OverreadValue json s f := by
  constructor
  · intro h
    rw [Command.argument] at h
    split at h
    · split at h
      · cases h
      · cases h
        exact .long ‹_› ‹_›
      · cases h
        exact .deep ‹_› ‹_›
      · cases h
    · cases h
  · rintro (⟨hj, h⟩ | ⟨hj, h⟩) <;> rw [Command.argument, if_pos hj, h]

/-- An argument by name is read behind its first equals sign. -/
theorem namedArgument_cases [Nesting] (json : Bool) (s : Text) :
    (∃ name raw, s = name ++ '=' :: raw ∧ '=' ∉ name ∧
      Command.namedArgument json s = (Command.argument json raw).map fun v => (name, v)) ∨
    '=' ∉ s ∧ Command.namedArgument json s = .error (.namedArgument s) := by
  rw [Command.namedArgument]
  cases hs : Text.splitAt? '=' s with
  | none => exact .inr ⟨Text.splitAt?_eq_none_iff.1 hs, rfl⟩
  | some p =>
    obtain ⟨he, hn⟩ := Text.eq_of_splitAt?_eq_some hs
    exact .inl ⟨p.1, p.2, he, hn, rfl⟩

/-- A text has one first equals sign. -/
theorem exists_split_iff {name raw : Text} {P : Text → Prop} (hn : '=' ∉ name) :
    (∃ name' raw', name ++ '=' :: raw = name' ++ '=' :: raw' ∧ '=' ∉ name' ∧ P raw') ↔ P raw := by
  constructor
  · rintro ⟨name', raw', he, hn', hP⟩
    have hs : Text.splitAt? '=' (name' ++ '=' :: raw') = some (name', raw') :=
      Text.splitAt?_append hn'
    rw [← he, Text.splitAt?_append hn] at hs
    cases hs
    exact hP
  · exact fun hP => ⟨name, raw, rfl, hn, hP⟩

/-- A word can be read exactly if it fits. -/
theorem exists_read_eq_ok_iff [Nesting] {w : Word} : (∃ u, w.read = .ok u) ↔ w.Fits := by
  cases w with
  | entry s =>
    refine exists_map_eq_ok_iff.trans ⟨?_, ?_⟩
    · rintro ⟨p, hp⟩
      obtain ⟨index, rfl, hn, hi, -⟩ := Command.mapEntry_eq_ok_iff.1 hp
      exact ⟨p.1, index, rfl, hn, hi⟩
    · rintro ⟨name, index, rfl, hn, hi⟩
      exact ⟨_, Command.mapEntry_of_isIndex hn hi⟩
  | argument json s => exact exists_map_eq_ok_iff.trans argument_eq_ok_iff
  | member json s =>
    refine exists_map_eq_ok_iff.trans ?_
    rcases namedArgument_cases json s with ⟨name, raw, rfl, hn, hr⟩ | ⟨hn, hr⟩
    · rw [hr, Fits, exists_split_iff hn]
      exact exists_map_eq_ok_iff.trans argument_eq_ok_iff
    · rw [hr]
      refine iff_of_false nofun ?_
      rintro ⟨name, raw, rfl, -⟩
      simp at hn

theorem read_eq_fault_iff [Nesting] {w : Word} {f : Fault} :
    w.read = .error (.fault f) ↔ w.IsOverread f := by
  cases w with
  | entry s => exact map_eq_error_iff.trans Command.mapEntry_eq_fault_iff
  | argument json s => exact map_eq_error_iff.trans argument_eq_fault_iff
  | member json s =>
    refine map_eq_error_iff.trans ?_
    rcases namedArgument_cases json s with ⟨name, raw, rfl, hn, hr⟩ | ⟨hn, hr⟩
    · rw [hr, IsOverread, exists_split_iff (P := fun raw => OverreadValue json raw f) hn]
      exact map_eq_error_iff.trans argument_eq_fault_iff
    · rw [hr]
      refine iff_of_false nofun ?_
      rintro ⟨name, raw, rfl, -⟩
      simp at hn

/-- What is overread is no undeclared placeholder. -/
theorem IsOverread.ne_undeclared [Nesting] {w : Word} {f : Fault} (h : w.IsOverread f)
    (name t : Text) : f ≠ .undeclared name t := by
  rintro rfl
  cases w with
  | entry s =>
    obtain ⟨-, -, -, -, ⟨⟩⟩ := h
  | argument json s => cases h
  | member json s =>
    obtain ⟨-, -, -, -, ⟨⟩⟩ := h

/-! ## Words within the limits

The condition counts digits in a row and opening brackets anywhere in the text, inside of strings
too.  So it is stronger than it needs to be, but it can be checked by looking at the text, and it
says nothing of how JSON is read. -/

/-- The text keeps within the limits of reading JSON: neither that many digits stand in a row, nor
are there that many opening brackets. -/
def IsWithinValue [Nesting] (json : Bool) (s : Text) : Prop :=
  json → ¬ Json.HasLongRun s ∧ Json.openings s ≤ readLimit

/-- The word keeps within the limits, and what looks numeric in it has place values. -/
def IsWithin [Nesting] : Word → Prop
  | entry s => ∀ name index, s = name ++ '=' :: index → '=' ∉ name →
      index.length ≤ Numeral.digitLimit ∧
        (index.all Text.isDigitLike → index.all Text.isDecimalDigit)
  | argument json s => IsWithinValue json s
  | member json s => IsWithinValue json s

theorem OverreadValue.not_isWithinValue [Nesting] {json : Bool} {s : Text} {f : Fault}
    (h : OverreadValue json s f) : ¬ IsWithinValue json s := by
  intro hw
  cases h with
  | long hj h => exact (hw hj).1 (Json.hasLongRun_of_read h)
  | deep hj h => exact Nat.not_le.2 (Json.readLimit_lt_openings_of_read h) (hw hj).2

/-- The value of a member keeps within the limits where the whole member does. -/
theorem IsWithinValue.of_member [Nesting] {json : Bool} {name raw : Text}
    (h : IsWithinValue json (name ++ '=' :: raw)) : IsWithinValue json raw := by
  have hsuffix : raw <:+ name ++ '=' :: raw :=
    (List.suffix_cons '=' raw).trans (List.suffix_append name _)
  intro hj
  obtain ⟨hlong, hdeep⟩ := h hj
  exact ⟨fun hraw => hlong (hraw.mono hsuffix.isInfix), (Json.openings_mono hsuffix).trans hdeep⟩

/-- **A word within the limits is not overread.** -/
theorem IsWithin.not_isOverread [Nesting] {w : Word} (h : w.IsWithin) (f : Fault) :
    ¬ w.IsOverread f := by
  cases w with
  | entry s =>
    rintro ⟨name, index, hs, hn, hover⟩
    obtain ⟨hlen, hdigits⟩ := h name index hs hn
    have hall := List.all_eq_true.1 (hdigits (List.all_eq_true.2 hover.looksNumeric.2))
    cases hover with
    | placeless _ hc hd => exact Bool.false_ne_true (hd.symm.trans (hall _ hc))
    | long _ hl => omega
  | argument json s => exact fun hover => hover.not_isWithinValue h
  | member json s =>
    rintro ⟨name, raw, rfl, -, hover⟩
    exact hover.not_isWithinValue (IsWithinValue.of_member h)

end Word

namespace Command

/-- The words of map entries.  Names are taken as they are; only entries with indices are read. -/
def entryWords (map : List Text) : List Word :=
  if map.any fun e => '=' ∈ e then map.map .entry else []

/-- The words of a command, in the order in which they are read. -/
def words : Command → List Word
  | help | demo => []
  | compile _ map => entryWords map
  | format _ args json named map =>
    args.map (if named then .member json else .argument json) ++ entryWords map

theorem formatMap_eq_error_iff [Nesting] {map : List Text} {r : Refusal} :
    formatMap map = .error r ↔ (entryWords map).mapM Word.read = .error r := by
  rw [formatMap, entryWords]
  split
  · rename_i hmap
    rw [List.isEmpty_iff.1 hmap]
    exact iff_of_false not_pure_eq_error not_pure_eq_error
  · split
    · rw [map_eq_error_iff]
      exact (mapM_map_eq_error_iff (h := Word.read) (f := mapEntry) fun _ => rfl).symm
    · exact iff_of_false not_pure_eq_error not_pure_eq_error

/-- Arguments are read first, and then the map. -/
theorem bind_eq_error_iff_words [Nesting] {α : Type} {f : Text → Except Refusal α}
    {word : Text → Word} (hf : ∀ s, (word s).read = (f s).map fun _ => ()) {args map : List Text}
    {g : FormatMap → List α → Task} {r : Refusal} :
    (args.mapM f >>= fun xs => formatMap map >>= fun m => pure (g m xs)) = .error r ↔
      (args.map word ++ entryWords map).mapM Word.read = .error r := by
  have hargs (r : Refusal) :
      args.mapM f = .error r ↔ (args.map word).mapM Word.read = .error r :=
    (mapM_map_eq_error_iff hf).symm
  rw [bind_eq_error_iff, mapM_append_eq_error_iff, hargs, ← exists_eq_ok_congr hargs,
    ← formatMap_eq_error_iff, ← exists_and_right]
  simp only [bind_pure_eq_error_iff]

/-- **A command is read word by word.** -/
theorem read_eq_error_iff [Nesting] {c : Command} {r : Refusal} :
    c.read = .error r ↔ c.words.mapM Word.read = .error r := by
  cases c with
  | help => exact iff_of_false nofun nofun
  | demo => exact iff_of_false nofun nofun
  | compile template map => exact bind_pure_eq_error_iff.trans formatMap_eq_error_iff
  | format template args json named map =>
    cases named with
    | true =>
      have hread : ∀ s, (Word.member json s).read = (namedArgument json s).map fun _ => () :=
        fun _ => rfl
      exact bind_eq_error_iff_words hread
    | false =>
      have hread : ∀ s, (Word.argument json s).read = (argument json s).map fun _ => () :=
        fun _ => rfl
      cases map with
      | nil =>
        -- without entries the map is not read, but it would be the standard one
        have hnil : (args.mapM (argument json) >>= fun xs => pure (Task.format template xs)) =
            .error r ↔ (args.mapM (argument json) >>= fun xs => formatMap [] >>= fun m =>
              pure (Task.formatIndexed m template xs)) = .error r :=
          bind_pure_eq_error_iff.trans bind_pure_eq_error_iff.symm
        exact hnil.trans (bind_eq_error_iff_words hread)
      | cons e map => exact bind_eq_error_iff_words hread

/-- The words of a command can be read, or there is a first one that cannot, and reading the command
fails as reading this word does. -/
theorem read_cases [Nesting] (c : Command) :
    ((∀ w ∈ c.words, w.Fits) ∧ ∃ t, c.read = .ok t) ∨
      ∃ before w after r, c.words = before ++ w :: after ∧ (∀ b ∈ before, b.Fits) ∧ ¬ w.Fits ∧
        w.read = .error r ∧ c.read = .error r := by
  cases hc : c.read with
  | ok t =>
    have hok : ∃ us, c.words.mapM Word.read = .ok us :=
      (exists_eq_ok_congr fun r => read_eq_error_iff).1 ⟨t, hc⟩
    obtain ⟨us, hus⟩ := hok
    have hfits (w : Word) (hw : w ∈ c.words) : w.Fits :=
      Word.exists_read_eq_ok_iff.1 (exists_of_mem_of_mapM_eq_ok hus hw)
    exact .inl ⟨hfits, t, rfl⟩
  | error r =>
    obtain ⟨before, w, after, hwords, hbefore, hw⟩ :=
      mapM_eq_error_iff.1 (read_eq_error_iff.1 hc)
    have hfits : ¬ w.Fits := by
      intro hfits
      obtain ⟨u, hu⟩ := Word.exists_read_eq_ok_iff.2 hfits
      rw [hw] at hu
      cases hu
    have hbefore' (b : Word) (hb : b ∈ before) : b.Fits :=
      Word.exists_read_eq_ok_iff.1 (hbefore b hb)
    exact .inr ⟨before, w, after, r, hwords, hbefore', hfits, hw, rfl⟩

end Command

/-! ## Outcomes

The first word that cannot be read is the one that decides, whatever the words after it are.  If it
is refused, the refusal is what the program reports, and if it is overread, the fault is not caught.
-/

namespace Outcome

variable {c : Command} {debug plain : Bool} {verbosity : Nat}

/-- A command whose words cannot be read does nothing else. -/
theorem run_eq_error_of_read [Nesting] {r : Refusal} (h : c.read = .error r) :
    c.run = .error r := by
  rw [c.run_eq, h]
  rfl

theorem ofInvocation_of_run_fault [Nesting] {f : Fault} (h : c.run = .error (.fault f))
    (hf : ∀ name t, f ≠ .undeclared name t) :
    ofInvocation debug ⟨verbosity, plain, c⟩ = .error f := by
  rw [ofInvocation, h]
  cases f with
  | undeclared name t => exact absurd rfl (hf name t)
  | _ => rfl

theorem ofInvocation_of_run_refusal [Nesting] {r : Refusal} (h : c.run = .error r)
    (hr : ∀ f, r ≠ .fault f) :
    ∃ err, ofInvocation debug ⟨verbosity, plain, c⟩ = .ok ⟨2, [], err⟩ := by
  rw [ofInvocation, h]
  cases r with
  | fault f => exact absurd rfl (hr f)
  | _ => exact ⟨_, rfl⟩

theorem exit_ne_two_of_read [Nesting] {t : Task} (h : c.read = .ok t) {o : Outcome}
    (ho : ofInvocation debug ⟨verbosity, plain, c⟩ = .ok o) : o.exit ≠ 2 := by
  have hrun : c.run = t.report := by rw [c.run_eq, h, ok_bind]
  rw [ofInvocation, hrun] at ho
  cases hr : t.report with
  | ok report =>
    rw [hr] at ho
    cases ho
    nofun
  | error r =>
    obtain ⟨f, rfl⟩ := t.report_failsOnly r hr
    rw [hr] at ho
    cases f with
    | undeclared name t =>
      cases ho
      nofun
    | _ => cases ho

/-- **How the words of a command end it.**  Either all of them can be read, and then the command
does not end with a usage error any more; or the first that cannot be read is overread, and its
fault is left to the caller; or it is not, and the command ends with exit code 2 and no output. -/
theorem ofInvocation_reading [Nesting] (debug plain : Bool) (verbosity : Nat) (c : Command) :
    ((∀ w ∈ c.words, w.Fits) ∧ (∃ t, c.read = .ok t) ∧
      ∀ o, ofInvocation debug ⟨verbosity, plain, c⟩ = .ok o → o.exit ≠ 2) ∨
    ∃ before w after, c.words = before ++ w :: after ∧ (∀ b ∈ before, b.Fits) ∧ ¬ w.Fits ∧
      ((∃ f, w.IsOverread f ∧ ofInvocation debug ⟨verbosity, plain, c⟩ = .error f) ∨
        ((∀ f, ¬ w.IsOverread f) ∧
          ∃ err, ofInvocation debug ⟨verbosity, plain, c⟩ = .ok ⟨2, [], err⟩)) := by
  rcases c.read_cases with
    ⟨hfits, t, ht⟩ | ⟨before, w, after, r, hwords, hbefore, hfits, hw, hr⟩
  · exact .inl ⟨hfits, ⟨t, ht⟩, fun o ho => exit_ne_two_of_read ht ho⟩
  · refine .inr ⟨before, w, after, hwords, hbefore, hfits, ?_⟩
    by_cases hf : ∃ f, r = .fault f
    · obtain ⟨f, rfl⟩ := hf
      have hover := Word.read_eq_fault_iff.1 hw
      exact .inl ⟨f, hover, ofInvocation_of_run_fault (run_eq_error_of_read hr) hover.ne_undeclared⟩
    · refine .inr ⟨fun f hover => ?_, ?_⟩
      · rw [Word.read_eq_fault_iff.2 hover] at hw
        cases hw
        exact hf ⟨f, rfl⟩
      · exact ofInvocation_of_run_refusal (run_eq_error_of_read hr) fun f h => hf ⟨f, h⟩

/-- A superscript as an index, an integer with one digit too many as JSON, and brackets that open
one level too many, are overread. -/
theorem ofArguments_overread :
    let long : Text := List.replicate 4301 '1'
    let deep : Text := List.replicate (readLimit + 1) '['
    (Command.compile ['x'] ["a=²".toList]).read = .error (.fault .malformedInteger) ∧
      ofArguments false ["compile".toList, "-m".toList, "a=²".toList, "--".toList, ['x']] =
        .error .malformedInteger ∧
      (Command.format ['x'] [long] true false []).read = .error (.fault .numeralTooLong) ∧
      ofArguments false ["format".toList, "-j".toList, "--".toList, ['x'], long] =
        .error .numeralTooLong ∧
      (Command.format ['x'] [deep] true false []).read = .error (.fault .tooDeep) ∧
      ofArguments false ["format".toList, "-j".toList, "--".toList, ['x'], deep] =
        .error .tooDeep := by
  intro long deep
  have hwhole (n : Nat) : Json.IsWhole (List.replicate (n + 1) '1') :=
    .digits ⟨nofun, fun c hc => List.eq_of_mem_replicate hc ▸ rfl⟩ nofun
  have hlength : Numeral.digitLimit < long.length :=
    Nat.lt_of_lt_of_eq (Nat.lt_succ_self 4300) List.length_replicate.symm
  have hlong : Word.OverreadValue true long .numeralTooLong :=
    Word.overreadValue_of_long false (hwhole 4300) hlength
  have hdeep : Word.OverreadValue true deep .tooDeep := by
    have h := Word.overreadValue_of_deep []
    rwa [List.append_nil] at h
  have hread {s : Text} {f : Fault} (h : Word.OverreadValue true s f) :
      (Command.format ['x'] [s] true false []).read = .error (.fault f) := by
    refine Command.read_eq_error_iff.2 (mapM_cons_error ?_ [])
    exact Word.read_eq_fault_iff.2 h
  refine ⟨rfl, by decide +kernel, hread hlong, ?_, hread hdeep, ?_⟩
  · show ofInvocation false ⟨0, false, .format ['x'] [long] true false []⟩ = _
    exact ofInvocation_of_run_fault (run_eq_error_of_read (hread hlong)) nofun
  · show ofInvocation false ⟨0, false, .format ['x'] [deep] true false []⟩ = _
    exact ofInvocation_of_run_fault (run_eq_error_of_read (hread hdeep)) nofun

/-- **Where no word exceeds a limit, a command that cannot be read is a usage error.** -/
theorem ofInvocation_of_isWithin [Nesting] (h : ∀ w ∈ c.words, w.IsWithin) :
    (∃ t, c.read = .ok t) ∨
      ∃ err, ofInvocation debug ⟨verbosity, plain, c⟩ = .ok ⟨2, [], err⟩ := by
  rcases c.read_cases with ⟨-, ht⟩ | ⟨before, w, after, r, hwords, -, -, hw, hr⟩
  · exact .inl ht
  · have hmem : w ∈ c.words := by simp [hwords]
    refine .inr (ofInvocation_of_run_refusal (run_eq_error_of_read hr) ?_)
    rintro f rfl
    exact (h w hmem).not_isOverread f (Word.read_eq_fault_iff.1 hw)

end Outcome
end Stencil
