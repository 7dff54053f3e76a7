import Mathlib.Algebra.Group.Int.Defs
import Stencil.Proofs.Coercion.Refusal
import Stencil.Proofs.Directive.Numbers
import Stencil.Proofs.Format.Width
import Stencil.Proofs.Template.Accesses

/-!
# Sizes beyond the limits

Fill and digits can be made up to a limit, and the digits of a floating point number up to a lower
one.  A size that is written in a template is checked by whoever writes it; a size that is an
argument can be anything, and beyond the limits it makes formatting fail.

`Directive.format_eq_ok_iff` says of one directive for which sizes it has an output: the precision
is none that its conversion does not support, and if its output is filled up, then not too far.
What a directive reads does not depend on what the directives before it print, so the same follows
for a template (`Lexeme.formatAll_eq_ok_iff`).  With small numbers in the template and plain
arguments, only sizes that are arguments are left to fail (`formatWith_eq_ok_iff`).

The limits are those of lengths on a machine with words of 64 bits, and the lower one is that of the
library that lays out doubles.  What is beyond memory but within the limits is not looked at.
-/

set_option autoImplicit false

namespace Stencil

open Fallible

/-! ## Plain arguments

A plain argument can be read as anything without a fault: there is no object to be asked, nothing
that is nested too deep, and every numeral has a text, however long. -/

/-- A value that is not made of others and asks nothing of an object. -/
def Value.IsScalar : Value → Prop
  | .null | .bool _ | .int _ | .float _ | .text _ => True
  | _ => False

namespace Value

theorem IsScalar.not_refuses [Nesting] {v : Value} (h : v.IsScalar) (kind : Kind) (e : ErrorClass) :
    ¬ v.Refuses kind e := by
  have hobject (o : Foreign) : v ≠ object o := by
    rintro rfl
    exact h
  have hparts : v.parts = [] := by cases v <;> first | rfl | exact h.elim
  have hreached (n : Nat) : Json.reached n v = [] := by
    cases v <;> first | rfl | exact h.elim
  cases kind with
  | integer | char | float | size | truth =>
    rintro ⟨o, ho, -⟩
    exact hobject o ho
  | text =>
    rintro ⟨hraises, -⟩
    rw [raisesText_iff hobject, quoted, quotedWithin_eq_raised_iff_below,
      below_eq_nil fun _ => hparts]
      at hraises
    rcases hraises with ⟨o, ho, -⟩ | ⟨⟨⟩⟩
    exact hobject o ho
  | json =>
    rintro ⟨⟨-, hraises⟩, -⟩
    rw [← Json.writeWithin_eq_raised_iff, Json.writeWithin_eq_raised_iff_below,
      below_eq_nil hreached] at hraises
    rcases hraises with ⟨_, _, rfl, -⟩ | ⟨⟨⟩⟩
    exact h

/-- A size is none unless it was read as one. -/
theorem toSize_eq_good_iff {v : Value} {n : Int} :
    (SizeOperand.argument v).resolve = some n ↔ v.toSize = .ok (.good (some n)) := by
  rw [SizeOperand.resolve, SizeOperand.read]
  cases hv : v.toSize with
  | error e => exact iff_of_false nofun nofun
  | ok r =>
    obtain ⟨x, -, hx⟩ := exists_of_bind hv
    show r.value = some n ↔ _
    split at hx
    · split at hx <;> cases hx <;> simp [Coerced.good, Coerced.fallback]
    · cases hx
      simp [Coerced.good, Coerced.fallback]

end Value

/-- What is true of all arguments, and of the one that stands for a missing one, is true of what is
taken. -/
theorem Cursor.get_of_forall {P : Value → Prop} {c : Cursor} (h : ∀ v ∈ c.values, P v)
    (hnull : P .null) (position : Int) : P (c.get position) := by
  rw [get]
  split
  · rw [List.getD_eq_getElem?_getD]
    cases hv : c.values[position.toNat - 1]? with
    | none => exact hnull
    | some v => exact h v (List.mem_of_getElem? hv)
  · exact hnull

/-! ## One directive

An output is made in two steps.  The parts are laid out, which depends on the precision; then they
are filled up, which depends on the width and on how long the parts are.  Either step fails by its
own size only. -/

namespace Directive

variable {d : Directive} {o : Operands}

/-- More digits than the conversion can be asked for. -/
def TooPrecise (d : Directive) (p : Int) : Prop :=
  match d.conversion.family with
  | .integer _ => 2 ^ 63 ≤ p
  | .float _ => 2 ^ 31 ≤ p
  | .text | .char | .truth | .json => False

/-- A width that cannot be filled up to, and that the output does not have without fill.

The width is compared, and not the fill, which is shorter by the length of the output.  Between the
two bounds memory is set aside (`maxFill`). -/
def TooWide [Nesting] (d : Directive) (o : Operands) (w : Int) : Prop :=
  2 ^ 63 ≤ w.natAbs ∧ ∃ u, { d with width := none }.format { o with width := none } = .ok u ∧
    u.length < w.natAbs

/-- Zeros in front of an integer can be made up to the limit. -/
theorem integerDigits_eq_ok_iff {base : Nat} {precision : Option Int} {n : Nat} :
    (∃ s, integerDigits base precision n = .ok s) ↔ ∀ p, precision = some p → ¬ 2 ^ 63 ≤ p := by
  cases precision with
  | none => exact iff_of_true ⟨_, rfl⟩ nofun
  | some p =>
    have hmax : maxFill = 2 ^ 63 := rfl
    rw [integerDigits, exists_ite_eq_ok_iff, hmax]
    exact ⟨fun h _ he => Option.some.inj he ▸ h, fun h => h p rfl⟩

/-- **The parts of an output fail by the precision alone**, for a value that refuses nothing. -/
theorem parts_eq_ok_iff [Nesting] (d : Directive) {v : Value} (hv : ∀ kind e, ¬ v.Refuses kind e)
    (precision : Option Int) :
    (∃ p, d.parts precision v = .ok p) ↔ ∀ p, precision = some p → ¬ d.TooPrecise p := by
  rw [parts]
  -- only integers and doubles look at the precision in a way that can fail
  unfold TooPrecise
  cases d.conversion.family with
  | text =>
    have ht : ∃ s, v.toText = .ok s := Value.exists_read_eq_ok (hv .text)
    exact iff_of_true (exists_bind_pure_eq_ok_iff.2 ht) fun _ _ => id
  | integer base =>
    obtain ⟨n, hn⟩ : ∃ n, v.toInteger = .ok n := Value.exists_read_eq_ok (hv .integer)
    simp only [hn, ok_bind]
    rw [exists_bind_pure_eq_ok_iff, integerDigits_eq_ok_iff]
  | float style =>
    obtain ⟨x, hx⟩ : ∃ x, v.toFloat = .ok x := Value.exists_read_eq_ok (hv .float)
    have hmax : maxPrecision = 2 ^ 31 - 1 := rfl
    have hdefault : defaultPrecision = 6 := rfl
    simp only [hx, ok_bind, exists_ite_eq_ok_iff, hmax, hdefault]
    cases precision with
    | none => exact iff_of_true (by decide) (by rintro _ ⟨⟩)
    | some p =>
      simp only [Option.getD_some, Option.some.injEq, forall_eq']
      omega
  | char =>
    have hc : ∃ c, v.toChar = .ok c := Value.exists_read_eq_ok (hv .char)
    exact iff_of_true (exists_bind_pure_eq_ok_iff.2 hc) fun _ _ => id
  | truth =>
    have hb : ∃ b, v.toTruth = .ok b := Value.exists_read_eq_ok (hv .truth)
    exact iff_of_true (exists_bind_pure_eq_ok_iff.2 hb) fun _ _ => id
  | json =>
    have hs : ∃ s, v.toJson = .ok s := Value.exists_read_eq_ok (hv .json)
    exact iff_of_true (exists_bind_pure_eq_ok_iff.2 hs) fun _ _ => id

theorem fillTo_eq_ok_iff {width : Option Int} {left zero : Bool} {lead body : Text} :
    (∃ s, fillTo width left zero lead body = .ok s) ↔
      ∀ w, width = some w → ¬ (2 ^ 63 ≤ w ∧ ((lead ++ body).length : Int) < w) := by
  cases width with
  | none => exact iff_of_true ⟨_, rfl⟩ nofun
  | some w =>
    have hmax : maxFill = 2 ^ 63 := rfl
    simp only [fillTo, Option.some.injEq, forall_eq', hmax]
    split
    · exact iff_of_true ⟨_, rfl⟩ (by omega)
    · rw [exists_ite_eq_ok_iff]
      omega

/-- Whether a width is too large is seen from the parts. -/
theorem tooWide_iff [Nesting] {p : Parts} (h : d.parts (precisionOf o) o.value = .ok p) {w : Int} :
    d.TooWide o w ↔ 2 ^ 63 ≤ w.natAbs ∧ (p.lead ++ p.body).length < w.natAbs := by
  have hu : { d with width := none }.format { o with width := none } = .ok (p.lead ++ p.body) := by
    rw [format_without_width, h, ok_bind]
  simp only [TooWide, hu, Except.ok.injEq, exists_eq_left']

/-- **What a directive needs to have an output**, for a value that refuses nothing: a precision that
its conversion supports, and a width that can be filled up to. -/
theorem format_eq_ok_iff [Nesting] (d : Directive) (hv : ∀ kind e, ¬ o.value.Refuses kind e) :
    (∃ s, d.format o = .ok s) ↔
      (∀ p, precisionOf o = some p → ¬ d.TooPrecise p) ∧
        ∀ w, widthOf o = some w → ¬ d.TooWide o w := by
  have hparts := d.parts_eq_ok_iff hv (precisionOf o)
  have hwidth : (Field.ofOperands d o).width = (widthOf o).map fun w => (w.natAbs : Int) := rfl
  rw [format, formatValue_eq_parts, ← hparts]
  show (∃ s, d.parts (precisionOf o) o.value >>= _ = .ok s) ↔ _
  cases hp : d.parts (precisionOf o) o.value with
  | error e => exact iff_of_false (by rintro ⟨_, ⟨⟩⟩) (by rintro ⟨⟨_, ⟨⟩⟩, -⟩)
  | ok p =>
    rw [ok_bind, fillTo_eq_ok_iff, hwidth, and_iff_right ⟨p, rfl⟩]
    cases widthOf o with
    | none => exact iff_of_true (by rintro _ ⟨⟩) (by rintro _ ⟨⟩)
    | some w =>
      simp only [Option.map_some, Option.some.injEq, forall_eq', tooWide_iff hp]
      omega

end Directive

/-! ## Templates

All directives are understood first and then printed from left to right.  The cursor moves by what
the directives are and not by what they print, so what each of them reads can be told beforehand. -/

/-- What the directives among the items read, one after the other. -/
def Item.reads : List Item → Cursor → List (Directive × Operands)
  | [], _ => []
  | .directive d :: is, c => (d, (d.operands c).1) :: reads is (d.operands c).2
  | _ :: is, c => reads is c

/-- **Templates have an output exactly if each directive has one** for what it reads. -/
theorem Lexeme.formatAll_eq_ok_iff [Nesting] {ls : List Lexeme} {items : List Item}
    (h : ls.mapM decode = .ok items) (c : Cursor) :
    (∃ s, formatAll ls c = .ok s) ↔ ∀ r ∈ Item.reads items c, ∃ s, r.1.output r.2 = .ok s := by
  induction ls generalizing items c with
  | nil =>
    cases h
    exact iff_of_true ⟨[], rfl⟩ fun r hr => absurd hr List.not_mem_nil
  | cons l ls ih =>
    obtain ⟨item, items, hl, hls, rfl⟩ := exists_of_mapM_cons h
    have hmap {g : Text → Text} {c : Cursor} :
        (∃ s, (formatAll ls c).map g = .ok s) ↔ ∃ s, formatAll ls c = .ok s :=
      exists_bind_pure_eq_ok_iff
    cases l with
    | literal s =>
      cases hl
      rw [formatAll_literal, hmap]
      exact ih hls c
    | escape =>
      cases hl
      rw [formatAll_escape, hmap]
      exact ih hls c
    | directive spec =>
      obtain ⟨d, hd, hi⟩ := exists_of_bind hl
      cases hi
      rw [formatAll_directive hd, Item.reads, List.forall_mem_cons, ← ih hls]
      cases d.output (d.operands c).1 with
      | error e => exact iff_of_false nofun nofun
      | ok s =>
        rw [ok_bind, and_iff_right ⟨s, rfl⟩]
        exact hmap

/-! ### What is read

An operand is an argument, the value that stands for a missing argument, or a size that is written
in the template.  The first two satisfy what all arguments satisfy and the missing one does. -/

theorem Size.values_operand? (z : Option Size) (c : Cursor) :
    (Size.operand? c z).2.values = c.values := by
  rw [(Size.reads_operand? z).moves, Cursor.skip]

theorem Directive.values_operands (d : Directive) (c : Cursor) :
    (d.operands c).2.values = c.values := by
  rw [d.reads_operands.moves, Cursor.skip]

/-- What is read is read by a directive of the template, from the arguments. -/
theorem Item.exists_of_mem_reads {items : List Item} {c : Cursor} {d : Directive} {o : Operands}
    (h : (d, o) ∈ reads items c) :
    .directive d ∈ items ∧ ∃ c', c'.values = c.values ∧ o = (d.operands c').1 := by
  induction items generalizing c with
  | nil => cases h
  | cons item items ih =>
    cases item with
    | directive e =>
      rcases List.mem_cons.1 h with he | h
      · cases he
        exact ⟨List.mem_cons_self, c, rfl, rfl⟩
      · obtain ⟨hd, c', hc', ho⟩ := ih h
        exact ⟨List.mem_cons_of_mem _ hd, c', hc'.trans (e.values_operands c), ho⟩
    | literal s | escape => exact (ih h).imp_left (List.mem_cons_of_mem _)

theorem Size.eq_literal_of_operand? {z : Option Size} {c : Cursor} {n : Int}
    (h : (Size.operand? c z).1 = some (.literal n)) : z = some (.literal n) := by
  rcases z with _ | m | _ | _ <;> cases h
  rfl

section

variable {P : Value → Prop} {c : Cursor}

theorem Size.argument_of_forall (h : ∀ v ∈ c.values, P v) (hnull : P .null) {z : Option Size}
    {v : Value} (hv : (Size.operand? c z).1 = some (.argument v)) : P v := by
  rcases z with _ | _ | _ | _ <;> cases hv
  · exact c.get_of_forall h hnull _
  · exact Cursor.get_of_forall (c := { c with offset := c.offset + 1 }) h hnull _

/-- What a directive reads is what holds of all arguments, and of the missing one. -/
theorem Directive.operands_of_forall (h : ∀ v ∈ c.values, P v) (hnull : P .null) (d : Directive) :
    (∀ v, (d.operands c).1.width = some (.argument v) → P v) ∧
      (∀ v, (d.operands c).1.precision = some (.argument v) → P v) ∧ P (d.operands c).1.value := by
  have hvalue (c : Cursor) (h : ∀ v ∈ c.values, P v) : P (d.value c).1 := by
    rw [value]
    split
    · exact c.get_of_forall h hnull _
    · exact Cursor.get_of_forall h hnull _
  refine ⟨fun v => Size.argument_of_forall h hnull, fun v => Size.argument_of_forall ?_ hnull,
    hvalue _ ?_⟩
  · rwa [Size.values_operand?]
  · rwa [Size.values_operand?, Size.values_operand?]

end

/-- Sizes that do not refuse to be read can be read. -/
theorem SizeOperand.exists_read [Nesting] {z? : Option SizeOperand}
    (h : ∀ v, z? = some (.argument v) → ∀ e, ¬ v.Refuses .size e) :
    ∀ z, z? = some z → ∃ n, z.read = .ok n := by
  rintro (n | v) hz
  · exact ⟨_, rfl⟩
  · have hread : ∃ r, v.read .size = .ok r := Value.exists_read_eq_ok (h v hz)
    obtain ⟨r, hr⟩ : ∃ r, v.toSize = .ok r := hread
    exact ⟨r.value, by rw [read, hr]; rfl⟩

/-! ### Small numbers

Ten digits are more than a number below `2 ^ 31` needs, and far fewer than can be read.  So a
template with small numbers is understood, and no size that is written in it is beyond a limit. -/

/-- The numbers of the directive are below `2 ^ 31`, and none is written with more than ten
digits. -/
def Spec.HasSmallNumbers (s : Spec) : Prop :=
  ∀ ds ∈ s.numbers, ds.length ≤ 10 ∧ Numeral.value 10 (ds.filterMap Text.digitValue?) < 2 ^ 31

theorem SizeSpec.lt_of_decode? {z : Option SizeSpec} {n : Int}
    (hz : ∀ ds ∈ numbers? z, Numeral.value 10 (ds.filterMap Text.digitValue?) < 2 ^ 31)
    (h : decode? z = .ok (some (.literal n))) : 0 ≤ n ∧ n < 2 ^ 31 := by
  rcases z with _ | _ | ds | ds | ds
  · cases h
  · cases h
  · obtain ⟨m, -, hm⟩ := exists_of_bind h
    cases hm
  · obtain ⟨m, hd, hm⟩ := exists_of_bind h
    cases hm
    have hlt := hz ds List.mem_cons_self
    rw [digitsNumber, Numeral.limited] at hd
    split at hd <;> cases hd
    omega
  · cases h

/-- A directive with small numbers is understood, and the sizes that are written in it are small. -/
theorem Spec.HasSmallNumbers.exists_decode {s : Spec} (hs : s.HasSmallNumbers)
    (hw : s.Written) : ∃ d, s.decode = .ok d := by
  rcases decode_cases hw with ⟨d, hd, -⟩ | ⟨-, ds, hds, hlong⟩
  · exact ⟨d, hd⟩
  · have hlen := (hs ds hds).1
    have hlimit : Numeral.digitLimit = 4300 := rfl
    omega

theorem Spec.HasSmallNumbers.lt_of_literal {s : Spec} (hs : s.HasSmallNumbers) {d : Directive}
    (hd : s.decode = .ok d) {n : Int}
    (hn : d.width = some (.literal n) ∨ d.precision = some (.literal n)) : 0 ≤ n ∧ n < 2 ^ 31 := by
  obtain ⟨p, -, hd⟩ := exists_of_bind hd
  obtain ⟨w, hw, hd⟩ := exists_of_bind hd
  obtain ⟨r, hr, hd⟩ := exists_of_bind hd
  cases hd
  have hmem (ds : Text) (h : ds ∈ SizeSpec.numbers? s.width ∨ ds ∈ SizeSpec.numbers? s.precision) :
      Numeral.value 10 (ds.filterMap Text.digitValue?) < 2 ^ 31 :=
    (hs ds (by simpa [numbers, or_assoc] using .inr h)).2
  rcases hn with rfl | rfl
  · exact SizeSpec.lt_of_decode? (fun ds h => hmem ds (.inl h)) hw
  · exact SizeSpec.lt_of_decode? (fun ds h => hmem ds (.inr h)) hr

/-! ### The result

The sizes that are left are those that come from arguments, and they are named in the condition
itself: the value, the size it is read as, and the directive that it is too large for. -/

/-- Every size that an operand gives is fine if those that are written are. -/
theorem SizeOperand.forall_resolve_iff {z : Option SizeOperand} {P : Int → Prop}
    (h : ∀ n, z = some (.literal n) → P n) :
    (∀ n, z.bind resolve = some n → P n) ↔
      ∀ v n, v.toSize = .ok (.good (some n)) → z = some (.argument v) → P n := by
  rcases z with _ | n | v
  · exact iff_of_true nofun nofun
  · refine iff_of_true ?_ nofun
    rintro _ ⟨⟩
    exact h n rfl
  · constructor
    · rintro hP _ n hn ⟨⟩
      exact hP n (Value.toSize_eq_good_iff.2 hn)
    · exact fun hP n hn => hP v n (Value.toSize_eq_good_iff.1 hn) rfl

namespace Directive

variable {d : Directive} {o : Operands}

theorem nonneg_of_tooPrecise {p : Int} (h : d.TooPrecise p) : 0 ≤ p := by
  unfold TooPrecise at h
  split at h <;> first | omega | exact h.elim

theorem forall_precisionOf_iff :
    (∀ p, precisionOf o = some p → ¬ d.TooPrecise p) ↔
      ∀ p, o.precision.bind SizeOperand.resolve = some p → ¬ d.TooPrecise p := by
  simp only [precisionOf, Option.filter_eq_some_iff, decide_eq_true_eq]
  exact ⟨fun h p hp hd => h p ⟨hp, nonneg_of_tooPrecise hd⟩ hd, fun h p hp => h p hp.1⟩

theorem not_tooPrecise_of_lt {n : Int} (h : n < 2 ^ 31) : ¬ d.TooPrecise n := by
  unfold TooPrecise
  split <;> first | omega | exact id

/-- Of small sizes that are written and sizes that are arguments, only the latter can fail. -/
theorem format_eq_ok_iff_of_literal [Nesting] (hv : ∀ kind e, ¬ o.value.Refuses kind e)
    (hl : ∀ n, o.width = some (.literal n) ∨ o.precision = some (.literal n) →
      0 ≤ n ∧ n < 2 ^ 31) :
    (∃ s, d.format o = .ok s) ↔ ∀ v n, v.toSize = .ok (.good (some n)) →
      (o.width = some (.argument v) → ¬ d.TooWide o n) ∧
        (o.precision = some (.argument v) → ¬ d.TooPrecise n) := by
  have hwidth (n : Int) (hn : o.width = some (.literal n)) : ¬ d.TooWide o n := by
    rintro ⟨hw, -⟩
    have := hl n (.inl hn)
    omega
  have hprecision (n : Int) (hn : o.precision = some (.literal n)) : ¬ d.TooPrecise n :=
    not_tooPrecise_of_lt (hl n (.inr hn)).2
  rw [format_eq_ok_iff d hv, forall_precisionOf_iff, SizeOperand.forall_resolve_iff hprecision]
  show _ ∧ (∀ n, o.width.bind SizeOperand.resolve = some n → ¬ d.TooWide o n) ↔ _
  rw [SizeOperand.forall_resolve_iff hwidth]
  exact ⟨fun h v n hn => ⟨h.2 v n hn, h.1 v n hn⟩,
    fun h => ⟨fun v n hn => (h v n hn).2, fun v n hn => (h v n hn).1⟩⟩

end Directive

/-- **With small numbers in the template and plain arguments, formatting fails exactly if a size
that is an argument is too large** for the directive that reads it. -/
theorem formatWith_eq_ok_iff [Nesting] {template : Text}
    (ht : ∀ spec, .directive spec ∈ Lexeme.ofTemplate template → spec.HasSmallNumbers)
    {vs : List Value} (hvs : ∀ v ∈ vs, v.IsScalar) :
    ∃ items, Item.ofTemplate template = .ok items ∧
      ((∃ s, formatWith template (.list vs) = .ok s) ↔
        ∀ d o, (d, o) ∈ Item.reads items (Cursor.start vs) →
          ∀ v n, v.toSize = .ok (.good (some n)) →
          (o.width = some (.argument v) → ¬ d.TooWide o n) ∧
            (o.precision = some (.argument v) → ¬ d.TooPrecise n)) := by
  -- the template itself has no long number, so it has items
  have hdecode (l : Lexeme) (hl : l ∈ Lexeme.ofTemplate template) : ∃ i, l.decode = .ok i := by
    cases l with
    | literal s | escape => exact ⟨_, rfl⟩
    | directive spec =>
      obtain ⟨d, hd⟩ := (ht spec hl).exists_decode (Lexeme.canonical_of_mem_ofTemplate hl).written
      exact ⟨.directive d, by rw [Lexeme.decode, hd]; rfl⟩
  obtain ⟨items, hitems⟩ := exists_mapM_eq_ok hdecode
  refine ⟨items, hitems, ?_⟩
  rw [formatWith_eq_format rfl, format, Lexeme.formatAll_eq_ok_iff hitems, Prod.forall]
  -- from here on it is one directive with the operands that it meets
  refine forall₂_congr fun d o => imp_congr_right fun h => ?_
  obtain ⟨hd, c, hc, rfl⟩ := Item.exists_of_mem_reads h
  have hscalar : ∀ v ∈ c.values, v.IsScalar := hc ▸ hvs
  obtain ⟨hwidth, hprecision, hvalue⟩ := d.operands_of_forall hscalar trivial
  -- scalars refuse nothing, so only the sizes can fail
  have hsizes : (d.operands c).1.readSizes = .ok () := Operands.readSizes_eq_ok
    (SizeOperand.exists_read fun v hv => (hwidth v hv).not_refuses .size)
    (SizeOperand.exists_read fun v hv => (hprecision v hv).not_refuses .size)
  rw [Directive.output_eq_format hsizes]
  refine Directive.format_eq_ok_iff_of_literal hvalue.not_refuses fun n hn => ?_
  obtain ⟨l, hl, hdl⟩ := exists_mem_of_mapM_eq_ok hitems hd
  cases l with
  | literal s | escape => cases hdl
  | directive spec =>
    obtain ⟨_, hspec, he⟩ := exists_of_bind hdl
    cases he
    exact (ht spec hl).lt_of_literal hspec
      (hn.imp Size.eq_literal_of_operand? Size.eq_literal_of_operand?)

theorem Spec.HasSmallNumbers.of_eq_singleton {template : Text} {s : Spec}
    (h : Lexeme.ofTemplate template = [.directive s]) (hs : s.numbers = []) :
    ∀ spec, .directive spec ∈ Lexeme.ofTemplate template → spec.HasSmallNumbers := by
  intro spec hspec
  rw [h, List.mem_singleton] at hspec
  cases hspec
  intro ds hds
  rw [hs] at hds
  cases hds

/-- A width that is an argument may be larger than any that can be written in the template. -/
theorem formatWith_wide :
    (∀ spec, .directive spec ∈ Lexeme.ofTemplate "%*d".toList → spec.HasSmallNumbers) ∧
      (∀ v ∈ [Value.int (2 ^ 62), .int 7], v.IsScalar) ∧
      ∃ s, formatWith "%*d".toList (.list [.int (2 ^ 62), .int 7]) = .ok s := by
  have ht : ∀ spec, .directive spec ∈ Lexeme.ofTemplate "%*d".toList → spec.HasSmallNumbers := by
    have hlexemes : Lexeme.ofTemplate "%*d".toList =
        [.directive ⟨none, [], some .next, none, none, .decimal⟩] := by decide +kernel
    exact .of_eq_singleton hlexemes rfl
  have hvs : ∀ v ∈ [Value.int (2 ^ 62), .int 7], v.IsScalar := by simp [Value.IsScalar]
  have hsize : (Value.int (2 ^ 62)).toSize = .ok (.good (some (2 ^ 62))) := by decide +kernel
  have hitem : Item.ofTemplate "%*d".toList =
      .ok [.directive ⟨"%*d".toList, .decimal, none, [], some .next, none, none⟩] := by
    decide +kernel
  obtain ⟨items, hitems, hiff⟩ := formatWith_eq_ok_iff ht hvs
  rw [hitem] at hitems
  cases hitems
  refine ⟨ht, hvs, hiff.2 fun d o h v n hn => ?_⟩
  cases List.mem_singleton.1 h
  refine ⟨?_, nofun⟩
  rintro ⟨⟩ ⟨hw, -⟩
  have hn : (Value.int (2 ^ 62)).toSize = .ok (.good (some n)) := hn
  cases hsize.symm.trans hn
  exact absurd hw (by decide)

/-- A precision that is an argument may be one more than a floating point conversion supports. -/
theorem formatWith_too_precise :
    (∀ spec, .directive spec ∈ Lexeme.ofTemplate "%.*g".toList → spec.HasSmallNumbers) ∧
      (∀ v ∈ [Value.int (2 ^ 31), .float (.finite false 0x18000000000000 (-52) (by decide))],
        v.IsScalar) ∧
      formatWith "%.*g".toList (.list [.int (2 ^ 31),
        .float (.finite false 0x18000000000000 (-52) (by decide))]) =
          .error .precisionTooLarge := by
  have hlexemes : Lexeme.ofTemplate "%.*g".toList =
      [.directive ⟨none, [], none, some .next, none, .shortest⟩] := by decide +kernel
  exact ⟨.of_eq_singleton hlexemes rfl, by simp [Value.IsScalar], by decide +kernel⟩

end Stencil
