import Stencil.Formatter
import Stencil.Proofs.Coercion.Refusal
import Stencil.Proofs.Format.Parts
import Stencil.Proofs.FormatMap.Places
import Stencil.Proofs.Template.Tokens

/-!
# Where faults come from

Formatting arguments has the faults of `Fault.isOfFormatting` and no others
(`formatWith_failsOnly`): numbers and sizes beyond the limits, and the exceptions of arguments that
refuse to answer.  A value that is nested too deep has no such fault, as all readings have a default
for it.

An undeclared placeholder is not among them.  It is a fault of compiling alone, and it comes with
the template that was compiled (`FormatMap.compile_failsOnly`), so this is also what an operation
of a formatter reports (`Formatter.formatNamed_failsOnly`).  Its name stands in this template
(`FormatMap.compile_namesPart`).
-/

set_option autoImplicit false

namespace Stencil

open Fallible

/-- The faults of formatting arguments. -/
def Fault.isOfFormatting : Fault → Bool
  | numeralTooLong | notIterable | sizeTooLarge | precisionTooLarge | raised _ => true
  | _ => false

/-! ## Arguments

A reading fails only where the argument refuses it, and it does so with an exception. -/

namespace Value

theorem read_failsOnly [Nesting] (v : Value) (kind : Kind) :
    FailsOnly (·.isOfFormatting) (v.read kind) := by
  intro f hf
  obtain ⟨e, rfl, -⟩ := read_eq_error_iff.1 hf
  rfl

theorem items_failsOnly (v : Value) : FailsOnly (·.isOfFormatting) v.items := by
  rw [items.eq_def]
  split
  · exact .ok _
  · exact .ok _
  · exact .ok _
  · exact .ok _
  · exact .ok _
  · exact .ok _
  · exact .error rfl

end Value

/-! ## Directives

A precision can be too large for the digits and a width for the fill.  All else that is done with a
directive cannot fail. -/

namespace Directive

theorem integerDigits_failsOnly (base : Nat) (precision : Option Int) (n : Nat) :
    FailsOnly (·.isOfFormatting) (integerDigits base precision n) := by
  rcases integerDigits_cases base precision n with ⟨h, -⟩ | h
  · rw [h]
    exact .error rfl
  · rw [h]
    exact .ok _

theorem parts_failsOnly [Nesting] (d : Directive) (precision : Option Int) (v : Value) :
    FailsOnly (·.isOfFormatting) (d.parts precision v) := by
  rw [parts]
  split
  · exact (v.read_failsOnly .text).bind_pure _
  · exact (v.read_failsOnly .integer).bind fun n _ =>
      (integerDigits_failsOnly _ precision _).bind_pure _
  · refine (v.read_failsOnly .float).bind fun x _ => ?_
    dsimp only
    split
    · exact .error rfl
    · exact .ok _
  · exact (v.read_failsOnly .char).bind_pure _
  · exact (v.read_failsOnly .truth).bind_pure _
  · exact (v.read_failsOnly .json).bind_pure _

theorem fillTo_failsOnly (width : Option Int) (left zero : Bool) (lead body : Text) :
    FailsOnly (·.isOfFormatting) (fillTo width left zero lead body) := by
  unfold fillTo
  split
  · exact .ok _
  · split
    · exact .ok _
    · split
      · exact .error rfl
      · exact .ok _

theorem readSizes_failsOnly (o : Operands) : FailsOnly (·.isOfFormatting) o.readSizes := by
  have hsize (s : Option SizeOperand) :
      FailsOnly (·.isOfFormatting) (s.mapM SizeOperand.read) := by
    rcases s with _ | (n | v)
    · exact .ok _
    · exact .ok _
    · exact ((v.read_failsOnly .size).map Coerced.value).bind_pure _
  exact (hsize o.width).bind fun _ _ => (hsize o.precision).bind_pure _

theorem format_failsOnly [Nesting] (d : Directive) (o : Operands) :
    FailsOnly (·.isOfFormatting) (d.format o) := by
  rw [format, formatValue_eq_parts]
  exact (d.parts_failsOnly _ o.value).bind fun p _ => fillTo_failsOnly _ _ _ _ _

theorem output_failsOnly [Nesting] (d : Directive) (o : Operands) :
    FailsOnly (·.isOfFormatting) (d.output o) :=
  (readSizes_failsOnly o).bind fun _ _ => d.format_failsOnly o

end Directive

/-! ## Templates

What is left are the numbers of a directive, which may be too long to be understood, and arguments
that cannot be gone through. -/

theorem Item.format_failsOnly [Nesting] (c : Cursor) (item : Item) :
    FailsOnly (·.isOfFormatting) (item.format c) := by
  cases item with
  | literal s => exact .ok _
  | escape => exact .ok _
  | directive d => exact (d.output_failsOnly _).bind_pure _

namespace Lexeme

theorem decode_failsOnly {l : Lexeme} (h : ∀ spec, l = directive spec → spec.Canonical) :
    FailsOnly (·.isOfFormatting) l.decode := by
  rcases decode_cases h with ⟨item, hi, -⟩ | ⟨he, -⟩
  · rw [hi]
    exact .ok _
  · rw [he]
    exact .error rfl

/-- Lexemes fail as they are understood, or as they are printed. -/
theorem formatAll_failsOnly [Nesting] {ls : List Lexeme}
    (h : ∀ spec, directive spec ∈ ls → spec.Canonical)
    (c : Cursor) : FailsOnly (·.isOfFormatting) (formatAll ls c) := by
  induction ls generalizing c with
  | nil => exact .ok _
  | cons l ls ih =>
    have hl : ∀ spec, l = directive spec → spec.Canonical := fun spec hs =>
      h spec (hs ▸ List.mem_cons_self)
    have hls := ih fun spec hs => h spec (List.mem_cons_of_mem l hs)
    exact (decode_failsOnly hl).bind fun item _ =>
      (item.format_failsOnly c).bind fun p _ => (hls p.2).bind_pure _

end Lexeme

/-- **Formatting fails only at a limit or at an argument that refuses to answer.** -/
theorem formatWith_failsOnly [Nesting] (template : Text) (args : Value) :
    FailsOnly (·.isOfFormatting) (formatWith template args) := by
  rw [formatWith]
  split
  · exact args.items_failsOnly.bind fun vs _ =>
      Lexeme.formatAll_failsOnly (fun spec => Lexeme.canonical_of_mem_ofTemplate) _
  · exact .ok _

/-! ## Undeclared placeholders

There is only one place where this fault comes from, and it is handed on unchanged.  Which template
is reported is said first, and that the name stands in it is said after that. -/

/-- A fault that, if it is an undeclared placeholder, is one of the given template. -/
def Fault.IsOf (template : Text) (e : Fault) : Prop :=
  ∀ name t, e = .undeclared name t → t = template

/-- If the fault is an undeclared placeholder, its name stands in the given template, and this is
the template that is reported. -/
def Fault.NamesPart (template : Text) (e : Fault) : Prop :=
  ∀ name t, e = .undeclared name t → t = template ∧ name <:+: template

theorem Fault.NamesPart.isOf {template : Text} {e : Fault} (h : e.NamesPart template) :
    e.IsOf template := fun name t he => (h name t he).1

theorem Fault.namesPart_of_isOfFormatting {e : Fault} (h : e.isOfFormatting) (template : Text) :
    e.NamesPart template := by
  rintro name t rfl
  cases h

theorem Fault.isOf_of_isOfFormatting {e : Fault} (h : e.isOfFormatting) (template : Text) :
    e.IsOf template := (namesPart_of_isOfFormatting h template).isOf

namespace FormatMap

theorem substituteIndex_failsOnly (s : Text) (p : Text × Int) :
    FailsOnly (· = .numeralTooLong) (substituteIndex s p) := by
  rw [substituteIndex]
  split
  · rw [Numeral.limitedText]
    split
    · exact .ok _
    · exact .error rfl
  · exact .ok _

theorem compile_pairs_failsOnly (ps : List (Text × Int)) (template : Text) :
    FailsOnly (· = .numeralTooLong) ((pairs ps).compile template) :=
  .foldlM substituteIndex_failsOnly ps template

/-- The name of an undeclared placeholder stands in the template that is compiled. -/
theorem compile_namesPart (m : FormatMap) (template : Text) :
    FailsOnly (Fault.NamesPart template) (m.compile template) := by
  cases m with
  | names ns =>
    intro e he
    obtain ⟨pre, p, hp, rfl⟩ := firstUndeclared_of_compileNames_eq_error he
    rintro name t ⟨⟩
    refine ⟨rfl, List.IsInfix.trans ?_ hp.standsIn.2.isInfix⟩
    exact ⟨pre ++ '%' :: p.lead, ['$', p.conversion.letter], by
      simp [Placeholder.source, Placeholder.sourceWith]⟩
  | pairs ps => exact (compile_pairs_failsOnly ps template).mono (by rintro e rfl name t ⟨⟩)

/-- **Compiling reports its own template** with an undeclared placeholder. -/
theorem compile_failsOnly (m : FormatMap) (template : Text) :
    FailsOnly (Fault.IsOf template) (m.compile template) :=
  (m.compile_namesPart template).mono fun _ h => h.isOf

/-- A map with slots that cannot be made has an index that is too large. -/
theorem slots_failsOnly (m : FormatMap) : FailsOnly (·.isOfFormatting) m.slots := by
  cases m with
  | names ns => exact .ok _
  | pairs ps =>
    rw [slots]
    split
    · exact .error rfl
    · exact .ok _

end FormatMap

/-- A dictionary gives a value for every slot. -/
theorem Source.exists_arguments_dict (es : List (Value × Value)) (slots : List (Option Text)) :
    ∃ args, arguments (.dict es) slots = .ok args :=
  exists_mapM_eq_ok fun slot _ => by cases slot <;> exact ⟨_, rfl⟩

/-! ## Operations

What an operation of a formatter may fail with is a fault of compiling or one of formatting. -/

section

variable {P : Fault → Prop} {m : FormatMap} {template : Text}

theorem Cache.compile_failsOnly (c : Cache) (h : FailsOnly P (m.compile template)) :
    FailsOnly P (c.compile (.ok m) template).1 := by
  rw [compile]
  split
  · exact .ok _
  · split
    · rename_i e he
      exact .error (h e he)
    · exact .ok _

namespace Formatter

theorem compile_failsOnly [Nesting] (f : Formatter) (c : Cache)
    (h : FailsOnly P (m.compile template)) :
    FailsOnly P (f.compile c (.formatMap m) template).1 := by
  exact c.compile_failsOnly h

theorem formatCompiled_failsOnly [Nesting] (f : Formatter) (c : Cache)
    (h : FailsOnly P (m.compile template)) (hP : ∀ e, e.isOfFormatting → P e) (args : Value) :
    FailsOnly P (f.formatCompiled c (.formatMap m) template args).1 := by
  have hcompile := f.compile_failsOnly c h
  rw [formatCompiled]
  rcases hc : f.compile c (.formatMap m) template with ⟨r, c'⟩
  rw [hc] at hcompile
  cases r with
  | ok compiled => exact (formatWith_failsOnly compiled args).mono hP
  | error e => exact .error (hcompile e rfl)

theorem formatNamed_failsOnly_of [Nesting] (f : Formatter) (c : Cache)
    (h : FailsOnly P (m.compile template)) (hP : ∀ e, e.isOfFormatting → P e) (args : Value) :
    FailsOnly P (f.formatNamed c template args (.formatMap m)).1 := by
  have hchoose : f.chooseMap (.formatMap m) = .ok m := rfl
  rw [formatNamed, hchoose]
  cases args with
  | dict es =>
    -- the arguments come from the slots, and only making the slots may fail
    show FailsOnly P (f.render c template (.named (.dict es) (.formatMap m))).1
    rw [render]
    cases hs : m.slots with
    | error e => exact .error (hP e (m.slots_failsOnly e hs))
    | ok slots =>
      obtain ⟨args, hargs⟩ := Source.exists_arguments_dict es slots
      rw [ok_bind, hargs]
      exact f.formatCompiled_failsOnly c h hP (.list args)
  | _ => exact f.formatCompiled_failsOnly c h hP _

end Formatter

end

/-- **An operation of a formatter reports the template that it was given.** -/
theorem Formatter.formatNamed_failsOnly [Nesting] (f : Formatter) (c : Cache) (m : FormatMap)
    (template : Text) (args : Value) :
    FailsOnly (Fault.IsOf template) (f.formatNamed c template args (.formatMap m)).1 :=
  f.formatNamed_failsOnly_of c (m.compile_failsOnly template)
    (fun _ he => Fault.isOf_of_isOfFormatting he template) args

end Stencil
