import Stencil.Format
import Stencil.Proofs.Fallible
import Stencil.Proofs.Template.Division

/-!
# Formatting lexeme by lexeme

One equation for each kind of lexeme, and what the output of a directive depends on: apart from what
it reads, its conversion and its flags (`Directive.format_congr`).  From the equations follow the
simplest templates: text in which no directive begins, which is its own output
(`format_of_not_begins`), text with all its percent signs escaped (`format_escaped`), and a single
directive (`format_source`).
-/

set_option autoImplicit false

namespace Stencil

open Grammar

/-! ## What the output of a directive depends on

A directive also carries its source and its own position and sizes.  None of these are looked at any
more when its operands have been read. -/

theorem Directive.format_congr [Nesting] {d d' : Directive} (hc : d'.conversion = d.conversion)
    (hf : d'.flags = d.flags) (o : Operands) : d'.format o = d.format o := by
  obtain ⟨_, _, _, _, _, _, _⟩ := d
  obtain ⟨_, _, _, _, _, _, _⟩ := d'
  cases hc
  cases hf
  rfl

/-- Where each size that is asked for can be read, both can. -/
theorem Operands.readSizes_eq_ok {o : Operands}
    (hw : ∀ z, o.width = some z → ∃ n, z.read = .ok n)
    (hp : ∀ z, o.precision = some z → ∃ n, z.read = .ok n) : o.readSizes = .ok () := by
  have hread {z? : Option SizeOperand} (h : ∀ z, z? = some z → ∃ n, z.read = .ok n) :
      ∃ n, z?.mapM SizeOperand.read = .ok n := by
    cases z? with
    | none => exact ⟨none, rfl⟩
    | some z =>
      obtain ⟨n, hn⟩ := h z rfl
      exact ⟨some n, by rw [Option.mapM_some, hn]; rfl⟩
  obtain ⟨w, hw⟩ := hread hw
  obtain ⟨p, hp⟩ := hread hp
  rw [readSizes, hw, Fallible.ok_bind, hp]
  rfl

namespace Directive

theorem output_congr [Nesting] {d d' : Directive} (hc : d'.conversion = d.conversion)
    (hf : d'.flags = d.flags) (o : Operands) : d'.output o = d.output o := by
  rw [output, output, format_congr hc hf]

/-- Where the sizes can be read, the rest decides. -/
theorem output_eq_format [Nesting] {d : Directive} {o : Operands} (h : o.readSizes = .ok ()) :
    d.output o = d.format o := by
  rw [output, h]
  rfl

/-- Without a width nothing is filled, so it does not matter what with and on which side. -/
theorem formatValue_congr [Nesting] {d d' : Directive} (hc : d.conversion = d'.conversion)
    (hs : d.sign = d'.sign) (ha : d.alternate = d'.alternate) (p : Option Int) (l l' z z' : Bool)
    (x : Value) : d.formatValue ⟨none, p, l, z⟩ x = d'.formatValue ⟨none, p, l', z'⟩ x := by
  simp only [formatValue, formatText, formatInteger, integerLead, formatFloat, truthText, inCase,
    Field.fill, Field.fillSpaces, fillTo, hc, hs, ha]

theorem not_contains_of_onlyZeros {fs : List Flag} (h : ∀ f ∈ fs, f = .zero) {g : Flag}
    (hg : g ≠ .zero) : fs.contains g = false := by
  rw [Bool.eq_false_iff, ne_eq, List.contains_iff_mem]
  exact fun hm => hg (h g hm)

/-- Zeros change nothing without a width. -/
theorem format_of_onlyZeros [Nesting] {d d' : Directive} (hc : d.conversion = d'.conversion)
    (h : ∀ f ∈ d.flags, f = .zero) (h' : ∀ f ∈ d'.flags, f = .zero) (x : Value) :
    d.format ⟨none, none, x⟩ = d'.format ⟨none, none, x⟩ := by
  have hcontains {g : Flag} (hg : g ≠ .zero) : d.flags.contains g = d'.flags.contains g := by
    rw [not_contains_of_onlyZeros h hg, not_contains_of_onlyZeros h' hg]
  have hs : d.sign = d'.sign := by
    funext negative
    rw [sign, sign, hcontains (g := .plus) (by decide), hcontains (g := .space) (by decide)]
  have ha : d.alternate = d'.alternate := hcontains (g := .alternate) (by decide)
  exact formatValue_congr hc hs ha none _ _ _ _ x

end Directive

namespace Lexeme

/-! ## One lexeme after the other

Text is put in front of what the lexemes behind it print, whether this succeeds or fails.  A
directive that is not understood ends the formatting, and one that is understood moves the cursor.
-/

@[simp] theorem formatAll_literal [Nesting] (s : Text) (ls : List Lexeme) (c : Cursor) :
    formatAll (literal s :: ls) c = (formatAll ls c).map (s ++ ·) := by
  show (do return s ++ (← formatAll ls c)) = _
  cases formatAll ls c <;> rfl

@[simp] theorem formatAll_escape [Nesting] (ls : List Lexeme) (c : Cursor) :
    formatAll (escape :: ls) c = (formatAll ls c).map ('%' :: ·) := by
  show (do return ['%'] ++ (← formatAll ls c)) = _
  cases formatAll ls c <;> rfl

/-- A directive prints its output in front of the others, which go on where its cursor stands. -/
theorem formatAll_directive [Nesting] {spec : Spec} {d : Directive} (h : spec.decode = .ok d)
    (ls : List Lexeme) (c : Cursor) :
    formatAll (directive spec :: ls) c = do
      let s ← d.output (d.operands c).1
      return s ++ (← formatAll ls (d.operands c).2) := by
  have hd : (directive spec).decode = .ok (.directive d) := by
    rw [decode, h]
    rfl
  rw [formatAll, hd]
  show (Item.format c (.directive d) >>= _) = _
  rw [Item.format]
  cases d.output (d.operands c).1 <;> rfl

/-- A directive that is not understood is the fault of the template. -/
theorem formatAll_directive_error [Nesting] {spec : Spec} {e : Fault} (h : spec.decode = .error e)
    (ls : List Lexeme) (c : Cursor) : formatAll (directive spec :: ls) c = .error e := by
  have hd : (directive spec).decode = .error e := by
    rw [decode, h]
    rfl
  rw [formatAll, hd]
  rfl

@[simp] theorem formatAll_consChar [Nesting] (ch : Char) (ls : List Lexeme) (c : Cursor) :
    formatAll (consChar ch ls) c = (formatAll ls c).map (ch :: ·) := by
  cases ls with
  | nil => rfl
  | cons l ls =>
    cases l with
    | literal s =>
      rw [consChar, formatAll_literal, formatAll_literal]
      cases formatAll ls c <;> rfl
    | escape => rw [consChar, formatAll_literal]; rfl; simp
    | directive spec => rw [consChar, formatAll_literal]; rfl; simp

end Lexeme

/-! ## The simplest templates

A directive needs a percent sign to begin with.  So what is printed as it is are texts without one,
texts whose percent signs begin nothing, and texts in which each percent sign is escaped. -/

/-- **A template in which no directive begins is its own output.** -/
theorem format_of_not_begins [Nesting] {s : Text} (h : ∀ a b, s = a ++ '%' :: b → ¬ Begins b)
    (vs : List Value) : format s vs = .ok s := by
  have hnil : Lexeme.ofTemplate [] = [] := by rw [Lexeme.ofTemplate]
  by_cases hs : s = []
  · rw [hs, format, hnil]
    rfl
  · have hone : Lexeme.ofTemplate s = [.literal s] := by
      have hb : ∀ a b, s = a ++ '%' :: b → ¬ Begins (b ++ []) := fun a b he => by
        rw [List.append_nil]
        exact h a b he
      have happend : Lexeme.ofTemplate (s ++ []) = [.literal s] :=
        Lexeme.ofTemplate_literal_append hs (by simp) hnil hb
      rwa [List.append_nil] at happend
    rw [format, hone, Lexeme.formatAll_literal]
    show Except.ok (s ++ []) = _
    rw [List.append_nil]

theorem format_of_percent_not_mem [Nesting] {s : Text} (h : '%' ∉ s) (vs : List Value) :
    format s vs = .ok s := by
  refine format_of_not_begins (fun a b he => absurd ?_ h) vs
  rw [he]
  exact List.mem_append_right a List.mem_cons_self

/-- A text with all its percent signs doubled. -/
def Text.escaped (s : Text) : Text := s.flatMap fun c => if c = '%' then ['%', '%'] else [c]

namespace Text

@[simp] theorem escaped_percent (s : Text) : escaped ('%' :: s) = '%' :: '%' :: escaped s := rfl

theorem escaped_char {c : Char} (hc : c ≠ '%') (s : Text) :
    escaped (c :: s) = c :: escaped s := by
  rw [escaped, List.flatMap_cons, if_neg hc]
  rfl

/-- Characters are escaped one by one. -/
@[simp] theorem escaped_append (s t : Text) : escaped (s ++ t) = escaped s ++ escaped t :=
  List.flatMap_append

theorem escaped_of_percent_not_mem {s : Text} (h : '%' ∉ s) : escaped s = s := by
  induction s with
  | nil => rfl
  | cons c s ih =>
    rw [List.mem_cons, not_or] at h
    rw [escaped_char (Ne.symm h.1), ih h.2]

end Text

/-- **An escaped text is its own output**, whatever the arguments. -/
theorem format_escaped [Nesting] (s : Text) (vs : List Value) : format s.escaped vs = .ok s := by
  rw [format]
  induction s with
  | nil =>
    rw [Text.escaped, List.flatMap_nil, Lexeme.ofTemplate]
    rfl
  | cons c s ih =>
    by_cases hc : c = '%'
    · subst hc
      rw [Text.escaped_percent, Lexeme.ofTemplate_escape, Lexeme.formatAll_escape, ih]
      rfl
    · rw [Text.escaped_char hc, Lexeme.ofTemplate_char hc, Lexeme.formatAll_consChar, ih]
      rfl

/-- Arguments that can be gone through are gone through, also where no directive takes one. -/
theorem formatWith_eq_format [Nesting] {args : Value} {vs : List Value} (h : args.items = .ok vs)
    (template : Text) : formatWith template args = format template vs := by
  rw [formatWith, h]
  split
  · rfl
  · rename_i hp
    rw [format_of_percent_not_mem hp]

/-- **What is quoted is printed as it is**: a text with all its percent signs doubled, and a
template in which no directive begins.  A template without a percent sign is printed whatever is
given for its arguments. -/
theorem formatWith_verbatim [Nesting] {args : Value} {vs : List Value} (hvs : args.items = .ok vs) :
    (∀ s : Text, formatWith s.escaped args = .ok s) ∧
    (∀ s : Text, (∀ a b, s = a ++ '%' :: b → ¬ Begins b) → formatWith s args = .ok s) ∧
    ∀ (s : Text) (args' : Value), '%' ∉ s → formatWith s args' = .ok s := by
  refine ⟨fun s => ?_, fun s hs => ?_, fun s args' hs => if_neg hs⟩
  · rw [formatWith_eq_format hvs, format_escaped]
  · rw [formatWith_eq_format hvs, format_of_not_begins hs]

/-- Percent signs in a row, percent signs that begin nothing, one of them at the end, and a template
without any, whose argument cannot be gone through. -/
theorem formatWith_verbatim_runs :
    let args : Value := .list [.int 1, .null]
    formatWith "%%%%5d%%%%%%s".toList args = .ok "%%5d%%%s".toList ∧
      formatWith "100% (%k|%-5.%".toList args = .ok "100% (%k|%-5.%".toList ∧
      formatWith "100".toList (.int 1) = .ok "100".toList := by
  intro args
  have hargs : args.items = .ok [.int 1, .null] := rfl
  obtain ⟨hescaped, hplain, hnone⟩ := formatWith_verbatim hargs
  have hcut : Chunk.WellCut [.literal "100% (%k|%-5.%".toList] := by
    have hone : (Lexeme.ofTemplate "100% (%k|%-5.%".toList).map Lexeme.chunk =
        [.literal "100% (%k|%-5.%".toList] := by cbv
    rw [← hone]
    exact Chunk.wellCut_ofTemplate _
  refine ⟨hescaped "%%5d%%%s".toList, hplain _ fun a b he => ?_, hnone _ _ (by decide)⟩
  have hb := hcut.2.2.1 a b he
  rwa [List.flatMap_nil, List.append_nil] at hb

theorem formatWith_tuple [Nesting] (template : Text) (vs : List Value) :
    formatWith template (.tuple vs) = format template vs := formatWith_eq_format rfl template

/-- A template that is one directive. -/
theorem format_source [Nesting] {s : Spec} (h : s.Canonical) (vs : List Value) :
    format s.source vs =
      s.decode >>= fun d => d.output (d.operands (Cursor.start vs)).1 := by
  have hs : Lexeme.ofTemplate s.source = [Lexeme.directive s] := by
    have hb := Spec.readBody?_body_append h []
    rw [List.append_nil] at hb
    rw [Spec.source_eq, Lexeme.ofTemplate_directive hb, Lexeme.ofTemplate]
  rw [format, hs]
  cases hd : s.decode with
  | error e => rw [Lexeme.formatAll_directive_error hd]; rfl
  | ok d =>
    rw [Lexeme.formatAll_directive hd]
    show (d.output _ >>= fun s => .ok (s ++ [])) = d.output _
    cases d.output (d.operands (Cursor.start vs)).1 with
    | error e => rfl
    | ok out =>
      show Except.ok (out ++ []) = _
      rw [List.append_nil]

/-- Two templates of one directive each have the same output if both are understood as directives
that convert in the same way and read the same. -/
theorem format_source_congr [Nesting] {s s' : Spec} {vs vs' : List Value} (hs : s.Canonical)
    (hs' : s'.Canonical)
    (h : Fallible.Alike (fun d d' => d.conversion = d'.conversion ∧ d.flags = d'.flags ∧
      (d.operands (Cursor.start vs)).1 = (d'.operands (Cursor.start vs')).1) s.decode s'.decode) :
    format s.source vs = format s'.source vs' := by
  rw [format_source hs, format_source hs']
  rcases h.cases with ⟨d, d', he, he', hc, hf, ho⟩ | ⟨e, he, he'⟩
  · rw [he, he']
    show d.output _ = d'.output _
    rw [ho, Directive.output_congr hc hf]
  · rw [he, he']
    rfl

end Stencil
