import Stencil.CommandLine.Options
import Stencil.Proofs.CommandLine.MapEntries

/-!
# Spelled options

The same options can be spelled in several ways: by letter or by name, and a map entry in the
argument of its option or in the next one.  `Spells` relates a list of arguments to what it says,
which is whether arguments are named and the map entries in order.

Two dashes end the options.  What follows them is words, whatever it looks like, and reading a
command line gives just what was spelled (`Invocation.ofArguments?_format`,
`Invocation.ofArguments?_compile`).
-/

set_option autoImplicit false

namespace Stencil

/-! ## Spellings

An option with a letter can have its argument right behind it, and one with a name behind an equals
sign.  Options can stand in any order, and a map entry that is given later comes later. -/

/-- The spellings of a map entry. -/
inductive SpellsEntry (e : Text) : List Text → Prop where
  | letter : SpellsEntry e [['-', 'm'], e]
  | letterJoined (he : e ≠ []) : SpellsEntry e ['-' :: 'm' :: e]
  | name : SpellsEntry e ['-' :: '-' :: Switch.map.long, e]
  | nameJoined : SpellsEntry e ['-' :: '-' :: (Switch.map.long ++ '=' :: e)]

/-- The spellings of options: whether arguments are named, and the map entries. -/
inductive Spells : List Text → Bool → List Text → Prop where
  | nothing : Spells [] false []
  | named {w : Text} {opts : List Text} {named : Bool} {entries : List Text}
      (hw : w ∈ [['-', 'n'], '-' :: '-' :: Switch.named.long]) (h : Spells opts named entries) :
      Spells (w :: opts) true entries
  | entry {e : Text} {ws opts : List Text} {named : Bool} {entries : List Text}
      (hw : SpellsEntry e ws) (h : Spells opts named entries) :
      Spells (ws ++ opts) named (e :: entries)

/-! ## Reading them

Arguments are taken one by one.  What each of them says is put in front of what the others say, so
the induction is on the spelling, and the two dashes are where it ends. -/

namespace Split

variable {allowed : List Switch} {among : Bool} {arg v : Text} {args : List Text}
  {settings : List Setting} {w : Switch}

/-- An option that needs no argument of its own is read alone. -/
theorem ofArguments?_cons (ho : isOption arg) (hd : arg ≠ ['-', '-'])
    (hr : Setting.read? allowed arg = some ⟨settings, none⟩) :
    ofArguments? allowed among (arg :: args) =
      (ofArguments? allowed among args).map (withSettings settings) := by
  rw [ofArguments?.eq_def]
  simp only [if_neg hd, ho, if_true, hr]

/-- An option that needs an argument takes the next one, whatever it looks like. -/
theorem ofArguments?_cons_cons (ho : isOption arg) (hd : arg ≠ ['-', '-'])
    (hr : Setting.read? allowed arg = some ⟨[], some w⟩) :
    ofArguments? allowed among (arg :: v :: args) =
      (ofArguments? allowed among args).map (withSettings [⟨w, v⟩]) := by
  rw [ofArguments?.eq_def]
  simp only [if_neg hd, ho, if_true, hr, List.nil_append]

theorem ofArguments?_dashes (words : List Text) :
    ofArguments? allowed among (['-', '-'] :: words) = some ⟨[], words⟩ := by
  rw [ofArguments?]
  rfl

/-- What the options after the name of a command say. -/
structure Says (s : Split) (named : Bool) (entries words : List Text) : Prop where
  words : s.words = words
  help : s.has .help = false
  json : s.has .json = false
  named : s.has .named = named
  entries : s.valuesOf .map = entries

namespace Says

variable {s : Split} {named : Bool} {entries words : List Text}

theorem withNamed (h : s.Says named entries words) (x : Text) :
    (s.withSettings [⟨.named, x⟩]).Says true entries words where
  words := h.words
  help := by rw [← h.help]; rfl
  json := by rw [← h.json]; rfl
  named := rfl
  entries := by rw [← h.entries]; rfl

theorem withMap (h : s.Says named entries words) (e : Text) :
    (s.withSettings [⟨.map, e⟩]).Says named (e :: entries) words where
  words := h.words
  help := by rw [← h.help]; rfl
  json := by rw [← h.json]; rfl
  named := by rw [← h.named]; rfl
  entries := by rw [← h.entries]; rfl

end Says

/-- A spelled map entry is read as its setting. -/
theorem ofArguments?_entry (ha : allowed.find? (·.short = 'm') = some .map)
    (hl : allowed.find? (·.long = Switch.map.long) = some .map) {e : Text} {ws : List Text}
    (hw : SpellsEntry e ws) :
    ofArguments? allowed among (ws ++ args) =
      (ofArguments? allowed among args).map (withSettings [⟨.map, e⟩]) := by
  cases hw with
  | letter =>
    refine ofArguments?_cons_cons rfl nofun ?_
    show Setting.readShort? allowed ['m'] = _
    rw [Setting.readShort?, ha]
    rfl
  | letterJoined he =>
    refine ofArguments?_cons rfl nofun ?_
    obtain ⟨c, e, rfl⟩ := List.exists_cons_of_ne_nil he
    show Setting.readShort? allowed ('m' :: c :: e) = _
    rw [Setting.readShort?, ha]
    rfl
  | name =>
    refine ofArguments?_cons_cons rfl nofun ?_
    have hs : Text.splitAt? '=' Switch.map.long = none := rfl
    show Setting.readLong? allowed Switch.map.long = _
    simp only [Setting.readLong?, hs, hl]
    rfl
  | nameJoined =>
    refine ofArguments?_cons rfl nofun ?_
    have hs : Text.splitAt? '=' (Switch.map.long ++ '=' :: e) = some (Switch.map.long, e) :=
      Text.splitAt?_append (by decide)
    show Setting.readLong? allowed (Switch.map.long ++ '=' :: e) = _
    simp only [Setting.readLong?, hs, hl]
    rfl

theorem ofArguments?_named (ha : allowed.find? (·.short = 'n') = some .named)
    (hl : allowed.find? (·.long = Switch.named.long) = some .named)
    (hw : arg ∈ [['-', 'n'], '-' :: '-' :: Switch.named.long]) :
    ofArguments? allowed among (arg :: args) =
      (ofArguments? allowed among args).map (withSettings [⟨.named, []⟩]) := by
  simp only [List.mem_cons, List.not_mem_nil, or_false] at hw
  rcases hw with rfl | rfl
  · refine ofArguments?_cons rfl nofun ?_
    show Setting.readShort? allowed ['n'] = _
    rw [Setting.readShort?, ha]
    rfl
  · refine ofArguments?_cons rfl nofun ?_
    have hs : Text.splitAt? '=' Switch.named.long = none := rfl
    show Setting.readLong? allowed Switch.named.long = _
    simp only [Setting.readLong?, hs, hl]
    rfl

/-- **Spelled options are read as what they say**, up to the two dashes. -/
theorem exists_ofArguments? (ha : allowed.find? (·.short = 'm') = some .map)
    (hl : allowed.find? (·.long = Switch.map.long) = some .map) {opts : List Text} {named : Bool}
    {entries : List Text} (h : Spells opts named entries)
    (hn : named → allowed.find? (·.short = 'n') = some .named ∧
      allowed.find? (·.long = Switch.named.long) = some .named)
    (words : List Text) :
    ∃ s, ofArguments? allowed among (opts ++ ['-', '-'] :: words) = some s ∧
      s.Says named entries words := by
  induction h with
  | nothing => exact ⟨_, ofArguments?_dashes words, rfl, rfl, rfl, rfl, rfl⟩
  | named hw _ ih =>
    obtain ⟨hns, hnl⟩ := hn rfl
    obtain ⟨s, hs, hsays⟩ := ih fun _ => ⟨hns, hnl⟩
    refine ⟨_, ?_, hsays.withNamed []⟩
    rw [List.cons_append, ofArguments?_named hns hnl hw, hs]
    rfl
  | entry hw _ ih =>
    obtain ⟨s, hs, hsays⟩ := ih hn
    refine ⟨_, ?_, hsays.withMap _⟩
    rw [List.append_assoc, ofArguments?_entry ha hl hw, hs]
    rfl

end Split

/-! ## Command lines

A command line begins with the name of its command, which is no option.  Which switches are allowed
depends on the command, and `compile` has none for names. -/

namespace Invocation

variable {opts entries : List Text}

/-- The command line of a command: the options, two dashes, and the words. -/
def commandLine (name : Text) (opts words : List Text) : List Text :=
  name :: (opts ++ ['-', '-'] :: words)

theorem ofArguments?_commandLine {name : Text} {allowed : List Switch} {s : Split}
    {words : List Text} (ho : Split.isOption name = false)
    (ha : Command.switches? name = some allowed)
    (hs : Split.ofArguments? allowed true (opts ++ ['-', '-'] :: words) = some s) :
    ofArguments? (commandLine name opts words) =
      (Command.ofSplit? name s).map fun c => ⟨0, false, c⟩ := by
  have hd : name ≠ ['-', '-'] := by
    rintro rfl
    cases ho
  have hfirst : Split.ofArguments? [.verbose, .plain, .help] false (commandLine name opts words) =
      some ⟨[], commandLine name opts words⟩ := by
    rw [commandLine, Split.ofArguments?.eq_def]
    simp [hd, ho]
  rw [ofArguments?, hfirst]
  simp only [Split.has, List.any_nil, commandLine, ha, hs]
  rfl

/-- The command line of `format` asks for what is spelled. -/
theorem ofArguments?_format {named : Bool} (h : Spells opts named entries) (template : Text)
    (args : List Text) :
    ofArguments? (commandLine "format".toList opts (template :: args)) =
      some ⟨0, false, .format template args false named entries⟩ := by
  have hread : ∃ s, Split.ofArguments? [.json, .named, .map, .help] true
      (opts ++ ['-', '-'] :: template :: args) = some s ∧ s.Says named entries (template :: args) :=
    Split.exists_ofArguments? rfl rfl h (fun _ => ⟨rfl, rfl⟩) (template :: args)
  obtain ⟨⟨settings, words⟩, hs, hw, hh, hj, hn, he⟩ := hread
  dsimp only at hw
  subst hw
  rw [ofArguments?_commandLine rfl rfl hs, Command.ofSplit?, hh, if_neg nofun, if_pos rfl, hj, hn,
    he]
  rfl

/-- The command line of `compile` asks for what is spelled. -/
theorem ofArguments?_compile (h : Spells opts false entries) (template : Text) :
    ofArguments? (commandLine "compile".toList opts [template]) =
      some ⟨0, false, .compile template entries⟩ := by
  have hread : ∃ s, Split.ofArguments? [.map, .help] true (opts ++ ['-', '-'] :: [template]) =
      some s ∧ s.Says false entries [template] :=
    Split.exists_ofArguments? rfl rfl h nofun [template]
  obtain ⟨⟨settings, words⟩, hs, hw, hh, -, -, he⟩ := hread
  dsimp only at hw
  subst hw
  rw [ofArguments?_commandLine rfl rfl hs, Command.ofSplit?, hh, if_neg nofun, if_neg (by decide),
    if_pos rfl, he]
  rfl

end Invocation
end Stencil
