import Stencil.Proofs.CommandLine.Reading
import Stencil.Proofs.Format.Faults
import Stencil.Proofs.Text.ColourCode

/-!
# Plain output

Plain output is the other output with its colour codes removed (`Outcome.ofInvocation_plain_eq`):
what is written line by line may as well be taken as a whole, for no code goes on past the end of a
line.  It is not always free of colour codes.  The banner for an undeclared placeholder shows the
template as it is, and if a code is broken up in the template, it is put together by the removal.
`Outcome.ofInvocation_plain` says that this is the only way for a code to come through.

There are three steps to this.  The text that is written as plain output is `strip` of the other
one.  The codes that `strip` leaves are those that are broken up in the text.  And of all that a
program writes to its second output only the banner has a text in it that was not stripped before:
the name and the template of a refusal, and the name is a part of the template.
-/

set_option autoImplicit false

namespace Stencil

open Fallible Colour

/-! ## Plain and other output

Each line is stripped by itself.  A code has no line break in it, so nothing would be found across
lines. -/

namespace Outcome

/-- An outcome with the colour codes removed from both outputs. -/
def stripped (o : Outcome) : Outcome := ⟨o.exit, strip o.stdout, strip o.stderr⟩

/-- **Plain output is the other output with its colour codes removed.** -/
theorem ofInvocation_plain_eq [Nesting] (debug : Bool) (verbosity : Nat) (c : Command) :
    ofInvocation debug ⟨verbosity, true, c⟩ =
      (ofInvocation debug ⟨verbosity, false, c⟩).map stripped := by
  have hstripAll (s : Text) : Colour.stripAll (line s) = Colour.stripAll s ++ ['\n'] :=
    Colour.removeWhere_append (by decide) s
  simp only [ofInvocation]
  cases c.run with
  | ok report =>
    refine congrArg Except.ok ?_
    have hout := strip_flatMap_lines report.output Colour.stripAll
    have herr := strip_flatMap_lines report.debug id
    simp only [stripped, forOutput, hstripAll, if_true, Bool.false_eq_true, if_false, hout]
    split
    · exact congrArg _ herr.symm
    · rw [strip_nil]
  | error r =>
    have hnone (exit : Nat) (err : Text) :
        (.ok ⟨exit, [], forOutput true err⟩ : Except Fault Outcome) =
          (Except.ok ⟨exit, [], forOutput false err⟩).map stripped := by
      simp [Except.map, stripped, forOutput, strip_nil]
    cases r with
    | fault f =>
      cases f with
      | undeclared name template => exact hnone 1 _
      | _ => rfl
    | _ => exact hnone 2 _

end Outcome

/-! ## The template of a command

A command has one template, and each task that it may turn into has this template as well.  What it
reports is therefore about this template. -/

/-- The fault of a refusal, if it has one, names a part of the given template. -/
def Refusal.NamesPart (template : Text) (r : Refusal) : Prop :=
  ∀ f, r = .fault f → f.NamesPart template

/-- The template that a command is about. -/
def Command.template? : Command → Option Text
  | compile template _ | format template .. => some template
  | help | demo => none

/-- The template that is left to format or to compile. -/
def Task.template? : Task → Option Text
  | format template _ | formatIndexed _ template _ | formatNamed _ template _
  | compile _ template => some template
  | help | demo => none

theorem Command.template?_of_read [Nesting] {c : Command} {task : Task} (h : c.read = .ok task) :
    task.template? = c.template? := by
  cases c with
  | help | demo =>
    cases h
    rfl
  | compile template map =>
    obtain ⟨m, -, hm⟩ := exists_of_bind h
    cases hm
    rfl
  | format template args json named map =>
    cases named with
    | true =>
      obtain ⟨members, -, h⟩ := exists_of_bind h
      obtain ⟨m, -, hm⟩ := exists_of_bind h
      cases hm
      rfl
    | false =>
      obtain ⟨values, -, h⟩ := exists_of_bind h
      cases map with
      | nil =>
        cases h
        rfl
      | cons e map =>
        obtain ⟨m, -, hm⟩ := exists_of_bind h
        cases hm
        rfl

theorem Command.lift_namesPart {α : Type} {template : Text} {x : Except Fault α}
    (h : FailsOnly (Fault.NamesPart template) x) :
    FailsOnly (Refusal.NamesPart template) (lift x) := by
  cases x with
  | ok a => exact .ok a
  | error f =>
    refine .error ?_
    rintro f' ⟨⟩
    exact h f rfl

theorem Task.report_namesPart [Nesting] {task : Task} {template : Text}
    (h : task.template? = some template) :
    FailsOnly (Refusal.NamesPart template) task.report := by
  have hformatting (e : Fault) (he : e.isOfFormatting) : e.NamesPart template :=
    Fault.namesPart_of_isOfFormatting he template
  have hcompile (m : FormatMap) := m.compile_namesPart template
  cases task with
  | help | demo => cases h
  | format _ values =>
    cases h
    exact (Command.lift_namesPart ((formatWith_failsOnly _ _).mono hformatting)).bind_pure _
  | formatIndexed m _ values =>
    cases h
    exact (Command.lift_namesPart
      (Formatter.formatNamed_failsOnly_of _ _ (hcompile m) hformatting _)).bind_pure _
  | formatNamed m _ members =>
    cases h
    exact (Command.lift_namesPart
      (Formatter.formatNamed_failsOnly_of _ _ (hcompile m) hformatting _)).bind_pure _
  | compile m _ =>
    cases h
    exact (Command.lift_namesPart (Formatter.compile_failsOnly _ _ (hcompile m))).bind_pure _

/-- **An undeclared placeholder is reported with the template of the command**, in which its name
stands. -/
theorem Command.run_namesPart [Nesting] {c : Command} {template : Text}
    (h : c.template? = some template) : FailsOnly (Refusal.NamesPart template) c.run := by
  rw [c.run_eq]
  refine FailsOnly.bind ?_ fun task htask =>
    task.report_namesPart ((template?_of_read htask).trans h)
  rintro r hr f rfl name t rfl
  obtain ⟨before, w, after, -, -, hw⟩ := mapM_eq_error_iff.1 (read_eq_error_iff.1 hr)
  exact absurd rfl ((Word.read_eq_fault_iff.1 hw).ne_undeclared name t)

/-! ## The banner

The banner has codes of its own, around the name and the template.  They are whole, so they are
removed, and nothing of them is left to complete a code of the template. -/

namespace Outcome

/-- The banner without the codes that it brings itself. -/
theorem strip_banner (name template : Text) :
    strip (banner name template) =
      " COMPILE ERROR.  Placeholder `".toList ++ strip name ++
        "` is not in the format map.\n  ".toList ++ strip template ++ ['\n'] := by
  have hescape : ¬ IsInner escape := fun h => h.ne_escape rfl
  have hlabel : IsCode (escape :: "[30;43m".toList) := @isCode_of_all "30;43".toList rfl
  have hname : IsCode (escape :: "[1;97m".toList) := @isCode_of_all "1;97".toList rfl
  have hgrey : IsCode (escape :: "[90m".toList) := @isCode_of_all "90".toList rfl
  have hbanner : banner name template =
      escape :: "[30;43m".toList ++ (" COMPILE ERROR. ".toList ++
        (escape :: "[0m".toList ++ (" Placeholder `".toList ++
          (escape :: "[1;97m".toList ++ (name ++
            escape :: ("[0m".toList ++ ("` is not in the format map.\n".toList ++
              (escape :: "[90m".toList ++ ("  ".toList ++ (template ++
                escape :: ("[0m".toList ++ ['\n']))))))))))) := by
    simp [banner, line]
  rw [hbanner, strip_code_append hlabel, strip_append_of_not_mem (by decide),
    strip_code_append isCode_reset, strip_append_of_not_mem (by decide), strip_code_append hname,
    strip_append hescape, ← List.cons_append, strip_code_append isCode_reset,
    strip_append_of_not_mem (by decide), strip_code_append hgrey,
    strip_append_of_not_mem (by decide), strip_append hescape, ← List.cons_append,
    strip_code_append isCode_reset, strip_cons_of_ne (by decide), strip_nil]
  simp

/-- A code comes through in the banner only if the template has it broken up. -/
theorem hasCode_strip_banner_iff {name template : Text} (h : name <:+: template) :
    HasCode (strip (banner name template)) ↔ HasBrokenCode template := by
  have hplain (t : Text) (ht : escape ∉ t) : ¬ HasCode t := by
    rw [← strip_eq_self_iff, ← List.append_nil t, strip_append_of_not_mem ht, strip_nil]
  have hquote : ¬ IsInner '`' := by simp [IsInner, isParameter]
  have hspace : ¬ IsInner ' ' := by simp [IsInner, isParameter]
  have hbanner : strip (banner name template) =
      " COMPILE ERROR.  Placeholder ".toList ++ '`' :: (strip name ++ '`' ::
        (" is not in the format map.\n ".toList ++ ' ' :: (strip template ++ '\n' :: []))) := by
    rw [strip_banner]
    simp
  rw [hbanner, hasCode_append_cons_iff hquote (by decide),
    hasCode_append_cons_iff hquote (by decide), hasCode_append_cons_iff hspace (by decide),
    hasCode_append_cons_iff not_isInner_newline (by decide), hasCode_strip_iff, hasCode_strip_iff]
  simp only [hplain _ (by decide : escape ∉ " COMPILE ERROR.  Placeholder ".toList),
    hplain _ (by decide : escape ∉ " is not in the format map.\n ".toList),
    hplain [] List.not_mem_nil, false_or, or_false]
  exact or_iff_right_of_imp fun hn => hn.mono h

/-! ## What plain output leaves

The exit code tells whether there is a banner: it is one exactly for an undeclared placeholder. -/

variable {debug : Bool} {verbosity : Nat} {c : Command}

theorem run_eq_of_exit_one [Nesting] {plain : Bool} {o : Outcome}
    (h : ofInvocation debug ⟨verbosity, plain, c⟩ = .ok o) (ho : o.exit = 1) :
    ∃ name template, c.run = .error (.fault (.undeclared name template)) ∧
      o.stderr = forOutput plain (banner name template) := by
  simp only [ofInvocation] at h
  cases hr : c.run with
  | ok report =>
    rw [hr] at h
    cases h
    cases ho
  | error r =>
    rw [hr] at h
    cases r with
    | fault f =>
      cases f with
      | undeclared name template =>
        cases h
        exact ⟨name, template, rfl, rfl⟩
      | _ => cases h
    | _ =>
      cases h
      cases ho

theorem hasCode_stderr_iff_template [Nesting] {o : Outcome} {template : Text}
    (h : ofInvocation debug ⟨verbosity, true, c⟩ = .ok o) (ht : c.template? = some template)
    (ho : o.exit = 1) : HasCode o.stderr ↔ HasBrokenCode template := by
  obtain ⟨name, t, hrun, herr⟩ := run_eq_of_exit_one h ho
  obtain ⟨rfl, hname⟩ := Command.run_namesPart ht _ hrun _ rfl name t rfl
  rw [herr]
  exact hasCode_strip_banner_iff hname

/-- **When a colour code comes through.**  Removing the codes of a text leaves one exactly where it
was broken up by others; it leaves the text as it is exactly if it has none, and doing it again
changes nothing exactly if none was broken up.  The error output of a plain command is that of the
other one without its codes, so this is when a code stands there; and in the banner of a command
about a template, it is there exactly if the template has one that is broken up. -/
theorem ofInvocation_plain [Nesting] (s : Text) (debug : Bool) (verbosity : Nat) (c : Command) :
    ((HasCode (strip s) ↔ HasBrokenCode s) ∧ (strip s = s ↔ ¬ HasCode s) ∧
      (strip (strip s) = strip s ↔ ¬ HasBrokenCode s)) ∧
    ∀ o, ofInvocation debug ⟨verbosity, true, c⟩ = .ok o →
      ∃ u, ofInvocation debug ⟨verbosity, false, c⟩ = .ok u ∧ o.stderr = strip u.stderr ∧
        (HasCode o.stderr ↔ HasBrokenCode u.stderr) ∧
        ∀ template, c.template? = some template → o.exit = 1 →
          (HasCode o.stderr ↔ HasBrokenCode template) := by
  refine ⟨⟨hasCode_strip_iff, strip_eq_self_iff, ?_⟩, fun o ho => ?_⟩
  · rw [strip_eq_self_iff, hasCode_strip_iff]
  · have hplain := ofInvocation_plain_eq debug verbosity c
    rw [ho] at hplain
    cases hu : ofInvocation debug ⟨verbosity, false, c⟩ with
    | error f =>
      rw [hu] at hplain
      cases hplain
    | ok u =>
      rw [hu] at hplain
      cases hplain
      exact ⟨u, rfl, rfl, hasCode_strip_iff, fun template ht hexit =>
        hasCode_stderr_iff_template ho ht hexit⟩

/-- A template with an undeclared placeholder, and with a reset that another one breaks up. -/
def brokenReset : Text := "%b$s\x1B[\x1B[0m0m".toList

theorem ofInvocation_plain_brokenReset :
    ∃ o, ofInvocation false ⟨0, true, .compile brokenReset []⟩ = .ok o ∧ o.exit = 1 ∧
      HasCode o.stderr := by
  have hcodes : ∀ code ∈ [escape :: ['[', '0', 'm']], IsCode code := by simpa using isCode_reset
  have hbroken : HasBrokenCode brokenReset :=
    ⟨"%b$s".toList, ['[', '0', 'm'], _, [], rfl, isCode_reset,
      .cons_self '[' (.cons '0' hcodes (.cons_self 'm' .nil)),
      by decide⟩
  have ho : ofInvocation false ⟨0, true, .compile brokenReset []⟩ =
      .ok ⟨1, [], strip (banner ['b'] brokenReset)⟩ := by
    decide +kernel
  obtain ⟨u, -, -, -, h⟩ := (ofInvocation_plain brokenReset _ _ _).2 _ ho
  exact ⟨_, ho, rfl, (h _ rfl rfl).2 hbroken⟩

/-- The other one is removed, and the broken one is left. -/
theorem strip_brokenReset :
    strip brokenReset = "%b$s\x1B[0m".toList ∧ HasCode (strip brokenReset) ∧
      strip (strip brokenReset) ≠ strip brokenReset ∧
      ofInvocation false ⟨0, true, .compile brokenReset []⟩ = .ok ⟨1, [],
        " COMPILE ERROR.  Placeholder `b` is not in the format map.\n  %b$s\x1B[0m\n".toList⟩ := by
  have hstrip : strip brokenReset = "%b$s\x1B[0m".toList := by decide +kernel
  refine ⟨hstrip, ⟨_, isCode_reset, "%b$s".toList, [], ?_⟩, by decide +kernel, by decide +kernel⟩
  rw [hstrip]
  rfl

end Outcome
end Stencil
