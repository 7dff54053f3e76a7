import Mathlib.Data.List.Basic
import Stencil.Proofs.Fallible
import Stencil.Proofs.Numeral.Decimal
import Stencil.Proofs.Template.Division
import Stencil.Proofs.Template.Formatting

/-!
# Reading every argument by its position

A directive may take the next argument for its width, its precision and its value.  `Text.numbered`
writes these positions out: it goes through a template with a count of the arguments taken so far,
puts a number into each bare star and a position in front of each directive that has none, and
leaves everything else as it is.

`formatWith_numbered` says that the result formats like the template.  Two things have to be right
for that.  The text with the numbers in it has to divide into the rewritten lexemes again
(`Lexeme.ofTemplate_numbered`), and the cursor has to stand at the count wherever an argument is
taken, whatever has been read before (`Lexeme.formatAll_numberAll`).
-/

set_option autoImplicit false

namespace Stencil

open Grammar

/-! ## Writing positions out

The count goes through the template from left to right, and through a directive in the order in
which it takes its arguments: width, precision, value.  A position that is already there is kept and
takes no argument, so it does not count. -/

namespace SizeSpec

/-- A size with its position written out after `k` arguments were taken, and the count after it. -/
def numbered (k : Nat) : SizeSpec → SizeSpec × Nat
  | next => (argument (Numeral.decimal (k + 1)), k + 1)
  | argument ds => (argument ds, k)
  | literal ds => (literal ds, k)
  | ignored ds => (ignored ds, k)

/-- The same for a size that may be missing. -/
def numbered? (k : Nat) : Option SizeSpec → Option SizeSpec × Nat
  | some z => (some (z.numbered k).1, (z.numbered k).2)
  | none => (none, k)

end SizeSpec

namespace Spec

/-- The position of a directive, written out after `k` arguments were taken. -/
def numberedPosition (k : Nat) : Option Text → Option Text × Nat
  | some ds => (some ds, k)
  | none => (some (Numeral.decimal (k + 1)), k + 1)

/-- A directive with all its positions written out after `k` arguments were taken, and the count
after it.  Width, precision and value take their arguments in this order. -/
def numbered (k : Nat) (s : Spec) : Spec × Nat :=
  let width := SizeSpec.numbered? k s.width
  let precision := SizeSpec.numbered? width.2 s.precision
  let position := numberedPosition precision.2 s.position
  ({ s with position := position.1, width := width.1, precision := precision.1 }, position.2)

end Spec

namespace Lexeme

/-- A lexeme with all its positions written out, and the count after it. -/
def numbered (k : Nat) : Lexeme → Lexeme × Nat
  | literal s => (literal s, k)
  | escape => (escape, k)
  | directive spec => (directive (spec.numbered k).1, (spec.numbered k).2)

/-- Lexemes with all their positions written out, one after the other. -/
def numberAll : Nat → List Lexeme → List Lexeme
  | _, [] => []
  | k, l :: ls => (l.numbered k).1 :: numberAll (l.numbered k).2 ls

end Lexeme

/-- A template with all its positions written out. -/
def Text.numbered (template : Text) : Text :=
  (Lexeme.numberAll 0 (Lexeme.ofTemplate template)).flatMap Lexeme.source

/-! ## The numbered template divides into the numbered lexemes

The numbers are digits and dollar signs, and they are put where a number may stand.  So a directive
is still canonical, and no directive begins or ends elsewhere, since a percent sign is neither added
nor taken away. -/

namespace SizeSpec

/-- What numbering keeps of a size, it keeps of a size that may be missing. -/
theorem forall_numbered? {P : SizeSpec → Prop} (k : Nat) (hP : ∀ z, P z → P (z.numbered k).1)
    {z? : Option SizeSpec} (h : ∀ z, z? = some z → P z) :
    ∀ z, (numbered? k z?).1 = some z → P z := by
  rintro y hy
  cases z? with
  | none => cases hy
  | some z =>
    obtain rfl := Option.some.inj hy
    exact hP z (h z rfl)

theorem written_numbered (k : Nat) {z : SizeSpec} (h : z.Written) : (z.numbered k).1.Written := by
  cases z with
  | next => exact Numeral.isDigits_decimal (k + 1)
  | _ => exact h

theorem followsFlags_numbered (k : Nat) {z : SizeSpec} (h : z.FollowsFlags) :
    (z.numbered k).1.FollowsFlags := by
  cases z <;> exact h

end SizeSpec

namespace Spec

theorem exists_position_numbered (k : Nat) (s : Spec) :
    ∃ ds, (s.numbered k).1.position = some ds := by
  obtain ⟨_ | ds, _, _, _, _, _⟩ := s
  · exact ⟨_, rfl⟩
  · exact ⟨ds, rfl⟩

theorem written_position_numbered (k : Nat) {s : Spec} (h : s.Written) :
    ∀ ds, (s.numbered k).1.position = some ds → IsDigits ds := by
  intro ds hds
  obtain ⟨_ | es, _, _, _, _, _⟩ := s
  · cases hds
    exact Numeral.isDigits_decimal _
  · cases hds
    exact h.position ds rfl

/-- With a position in front of it, a directive is canonical whatever its width is. -/
theorem canonical_numbered (k : Nat) {s : Spec} (h : s.Canonical) :
    (s.numbered k).1.Canonical where
  written := {
    position := written_position_numbered k h.written
    width := SizeSpec.forall_numbered? k (fun _ => SizeSpec.written_numbered k) h.written.width
    precision :=
      SizeSpec.forall_numbered? _ (fun _ => SizeSpec.written_numbered _) h.written.precision }
  width := SizeSpec.forall_numbered? k (fun _ => SizeSpec.followsFlags_numbered k) h.width
  position := by
    intro hn
    obtain ⟨ds, hds⟩ := exists_position_numbered k s
    rw [hn] at hds
    cases hds

end Spec

namespace Lexeme

theorem exists_source_eq_percent {l : Lexeme} (h : ∀ t, l ≠ literal t) :
    ∃ u, l.source = '%' :: u := by
  cases l with
  | literal s => exact absurd rfl (h s)
  | escape => exact ⟨_, rfl⟩
  | directive spec => exact ⟨_, rfl⟩

theorem numbered_ne_literal {l : Lexeme} (h : ∀ t, l ≠ literal t) (k : Nat) :
    ∀ t, (l.numbered k).1 ≠ literal t := by
  cases l with
  | literal s => exact absurd rfl (h s)
  | escape => rintro t ⟨⟩
  | directive spec => rintro t ⟨⟩

/-- A literal text is followed by a percent sign or by nothing, with and without numbers. -/
theorem not_begins_numberAll {b : Text} {k : Nat} {ls : List Lexeme}
    (hl : ∀ t, ls.head? ≠ some (literal t)) (h : ¬ Begins (b ++ ls.flatMap source)) :
    ¬ Begins (b ++ (numberAll k ls).flatMap source) := by
  cases ls with
  | nil => exact h
  | cons l ls =>
    have hne : ∀ t, l ≠ literal t := fun t ht => hl t (by rw [ht]; rfl)
    obtain ⟨u, hu⟩ := exists_source_eq_percent hne
    obtain ⟨u', hu'⟩ := exists_source_eq_percent (numbered_ne_literal hne k)
    rw [List.flatMap_cons, hu, List.cons_append] at h
    rw [numberAll, List.flatMap_cons, hu', List.cons_append]
    exact fun hb => h (hb.of_percent _)

theorem head?_numberAll_ne_literal {k : Nat} {ls : List Lexeme}
    (h : ∀ t, ls.head? ≠ some (literal t)) :
    ∀ t, (numberAll k ls).head? ≠ some (literal t) := by
  cases ls with
  | nil => exact h
  | cons l ls =>
    intro t ht
    exact numbered_ne_literal (fun t ht => h t (by rw [ht]; rfl)) k t (Option.some.inj ht)

theorem chunk_eq_literal {l : Lexeme} {s : Text} (h : l.chunk = .literal s) : l = literal s := by
  cases l <;> cases h
  rfl

/-- What stands at the head of lexemes, seen through their chunks. -/
theorem head?_map_chunk_ne_literal {ls : List Lexeme} :
    (∀ t, (ls.map chunk).head? ≠ some (.literal t)) ↔ ∀ t, ls.head? ≠ some (literal t) := by
  cases ls with
  | nil => simp
  | cons l ls =>
    constructor
    · rintro h t ⟨⟩
      exact h t rfl
    · intro h t ht
      exact h t (by rw [List.head?_cons, chunk_eq_literal (Option.some.inj ht)])

theorem wellCut_numberAll {ls : List Lexeme} (h : Chunk.WellCut (ls.map chunk))
    (hc : ∀ spec, directive spec ∈ ls → spec.Canonical) (k : Nat) :
    Chunk.WellCut ((numberAll k ls).map chunk) := by
  induction ls generalizing k with
  | nil => exact h
  | cons l ls ih =>
    have hc' : ∀ spec, directive spec ∈ ls → spec.Canonical :=
      fun spec hm => hc spec (List.mem_cons_of_mem l hm)
    cases l with
    | literal s =>
      obtain ⟨hs, hl, hb, hls⟩ := h
      have hl' := head?_map_chunk_ne_literal.1 hl
      refine ⟨hs, head?_map_chunk_ne_literal.2 (head?_numberAll_ne_literal hl'),
        fun a b hab => ?_, ih hls hc' k⟩
      have hn := hb a b hab
      rw [flatMap_source_map_chunk] at hn ⊢
      exact not_begins_numberAll hl' hn
    | escape => exact ⟨h.1, ih h.2 hc' k⟩
    | directive spec =>
      have hs := Spec.canonical_numbered k (hc spec List.mem_cons_self)
      exact ⟨Spec.isDirective_source hs.written, ih h.2 hc' _⟩

theorem canonical_of_mem_numberAll {ls : List Lexeme}
    (hc : ∀ spec, directive spec ∈ ls → spec.Canonical) (k : Nat) :
    ∀ spec, directive spec ∈ numberAll k ls → spec.Canonical := by
  induction ls generalizing k with
  | nil =>
    intro spec hm
    cases hm
  | cons l ls ih =>
    intro spec hm
    rcases List.mem_cons.1 hm with he | hm
    · cases l with
      | literal s => cases he
      | escape => cases he
      | directive s =>
        cases he
        exact Spec.canonical_numbered k (hc s List.mem_cons_self)
    · exact ih (fun spec hm => hc spec (List.mem_cons_of_mem l hm)) _ spec hm

/-- **The numbered template divides into the numbered lexemes.** -/
theorem ofTemplate_numbered (template : Text) :
    ofTemplate (Text.numbered template) = numberAll 0 (ofTemplate template) := by
  have hc : ∀ spec, directive spec ∈ ofTemplate template → spec.Canonical :=
    fun _ hm => canonical_of_mem_ofTemplate hm
  exact ofTemplate_flatMap_source (wellCut_numberAll (Chunk.wellCut_ofTemplate template) hc 0)
    (canonical_of_mem_numberAll hc 0)

end Lexeme

/-! ## How many arguments are taken

The count is bounded by the length of what has been gone through, because a directive takes at most
three arguments and is not shorter than the parts that take them.  So the numbers can be read where
the template is not longer than the largest of them. -/

namespace SizeSpec

theorem le_numbered?_count (k : Nat) (z? : Option SizeSpec) : k ≤ (numbered? k z?).2 := by
  rcases z? with _ | z
  · exact Nat.le_refl k
  · cases z with
    | next => exact Nat.le_succ k
    | _ => exact Nat.le_refl k

theorem numbered?_count_le (k : Nat) (z? : Option SizeSpec) :
    (numbered? k z?).2 ≤ k + (z?.elim [] source).length := by
  rcases z? with _ | z
  · exact Nat.le_refl k
  · cases z with
    | next => exact Nat.le_refl (k + 1)
    | _ => exact Nat.le_add_right k _

end SizeSpec

theorem length_precisionSource (r : Option SizeSpec) :
    (r.elim [] SizeSpec.source).length ≤ (precisionSource r).length := by
  rcases r with _ | z
  · exact Nat.le_refl 0
  · exact Nat.le_succ _

namespace Spec

theorem le_numberedPosition_count (k : Nat) (p : Option Text) : k ≤ (numberedPosition k p).2 := by
  cases p with
  | none => exact Nat.le_succ k
  | some ds => exact Nat.le_refl k

theorem numberedPosition_count_le (k : Nat) (p : Option Text) :
    (numberedPosition k p).2 ≤ k + 1 := by
  cases p with
  | none => exact Nat.le_refl (k + 1)
  | some ds => exact Nat.le_succ k

/-- A directive takes fewer arguments than it has characters. -/
theorem numbered_count_le (k : Nat) (s : Spec) : (s.numbered k).2 < k + s.source.length := by
  have hw := SizeSpec.numbered?_count_le k s.width
  have hr := SizeSpec.numbered?_count_le (SizeSpec.numbered? k s.width).2 s.precision
  have hp := numberedPosition_count_le
    (SizeSpec.numbered? (SizeSpec.numbered? k s.width).2 s.precision).2 s.position
  have hs := length_precisionSource s.precision
  have hlen := congrArg List.length (body_append s [])
  rw [source_eq, List.length_cons]
  simp only [List.append_nil, List.length_append, endSource, List.length_singleton] at hlen
  show (numberedPosition _ _).2 < _
  omega

end Spec

/-! ## The same arguments are read

The cursor of the numbered template stands still, and that of the template itself moves with the
count.  What is compared are the arguments that they find, one size or value after the other. -/

/-- `read'` reads, wherever the cursor stands, what `read` reads after `k` arguments were taken, and
does not move the cursor.  After `read` the cursor stands at `k'`. -/
def Cursor.Numbered {α : Type} (read' read : Cursor → α × Cursor) (k k' : Nat) : Prop :=
  ∀ vs j, (read ⟨vs, k⟩).2 = ⟨vs, k'⟩ ∧ read' ⟨vs, j⟩ = ((read ⟨vs, k⟩).1, ⟨vs, j⟩)

theorem Directive.numbered_operands {d d' : Directive} {k k₁ k₂ k₃ : Nat}
    (hw : Cursor.Numbered (Size.operand? · d'.width) (Size.operand? · d.width) k k₁)
    (hp : Cursor.Numbered (Size.operand? · d'.precision) (Size.operand? · d.precision) k₁ k₂)
    (hv : Cursor.Numbered d'.value d.value k₂ k₃) :
    Cursor.Numbered d'.operands d.operands k k₃ := by
  intro vs j
  obtain ⟨hw2, hw1⟩ := hw vs j
  obtain ⟨hp2, hp1⟩ := hp vs j
  obtain ⟨hv2, hv1⟩ := hv vs j
  simp only at hw1 hw2 hp1 hp2
  constructor
  · rw [operands, hw2, hp2, hv2]
  · rw [operands, operands, hw1, hw2, hp1, hp2, hv1]

namespace SizeSpec

theorem decode_ne_next {z : SizeSpec} (hz : z ≠ next) : z.decode ≠ .ok (some .next) := by
  intro h
  cases z with
  | next => exact hz rfl
  | ignored ds => cases h
  | argument ds | literal ds =>
    rw [decode] at h
    cases hd : digitsNumber ds <;> rw [hd] at h <;> cases h

theorem numbered_of_ne_next {z : SizeSpec} (hz : z ≠ next) (k : Nat) : z.numbered k = (z, k) := by
  cases z with
  | next => exact absurd rfl hz
  | _ => rfl

/-- A size is understood with its position as it is without, and reads the same argument. -/
theorem alike_decode_numbered {k : Nat} {z : SizeSpec}
    (h : (z.numbered k).2 < 10 ^ Numeral.digitLimit) :
    Fallible.Alike (fun r' r => Cursor.Numbered (Size.operand? · r') (Size.operand? · r) k
      (z.numbered k).2) (z.numbered k).1.decode z.decode := by
  by_cases hz : z = next
  · subst hz
    have hd : digitsNumber (Numeral.decimal (k + 1)) = .ok (k + 1) := digitsNumber_decimal h
    have he : (numbered k next).1.decode = .ok (some (.argument ((k + 1 : Nat) : Int))) := by
      rw [numbered, decode, hd]
      rfl
    rw [he]
    exact fun vs j => ⟨rfl, rfl⟩
  · rw [numbered_of_ne_next hz]
    refine Fallible.Alike.self fun r hr vs j => ?_
    rcases r with _ | r
    · exact ⟨rfl, rfl⟩
    · cases r with
      | next => exact absurd hr (decode_ne_next hz)
      | _ => exact ⟨rfl, rfl⟩

theorem alike_decode?_numbered? {k : Nat} {z? : Option SizeSpec}
    (h : (numbered? k z?).2 < 10 ^ Numeral.digitLimit) :
    Fallible.Alike (fun r' r => Cursor.Numbered (Size.operand? · r') (Size.operand? · r) k
      (numbered? k z?).2) (decode? (numbered? k z?).1) (decode? z?) := by
  rcases z? with _ | z
  · exact fun vs j => ⟨rfl, rfl⟩
  · exact alike_decode_numbered h

end SizeSpec

namespace Spec

/-- The value is taken from the position that is written out, or from the one that was there. -/
theorem alike_numberedPosition {k : Nat} {p : Option Text}
    (h : (numberedPosition k p).2 < 10 ^ Numeral.digitLimit) :
    Fallible.Alike (fun n' n => ∀ d' d : Directive, d'.position = n' → d.position = n →
      Cursor.Numbered d'.value d.value k (numberedPosition k p).2)
      ((numberedPosition k p).1.mapM digitsNumber) (p.mapM digitsNumber) := by
  rcases p with _ | ds
  · have hs : digitsNumber (Numeral.decimal (k + 1)) = .ok (k + 1) := digitsNumber_decimal h
    show Fallible.Alike _ ((some (Numeral.decimal (k + 1))).mapM digitsNumber) _
    rw [Option.mapM_some, hs]
    intro d' d hd' hd vs j
    rw [Directive.value, Directive.value, hd', hd]
    exact ⟨rfl, rfl⟩
  · refine Fallible.Alike.self fun n hn d' d hd' hd vs j => ?_
    rw [numberedPosition, Option.mapM_some] at hn
    cases hs : digitsNumber ds with
    | error e =>
      rw [hs] at hn
      cases hn
    | ok m =>
      rw [hs] at hn
      cases hn
      rw [Directive.value, Directive.value, hd', hd]
      exact ⟨rfl, rfl⟩

/-- **A directive is understood with its positions as it is without**: in the same form, and it
reads the same arguments. -/
theorem alike_decode_numbered {k : Nat} {s : Spec}
    (h : (s.numbered k).2 < 10 ^ Numeral.digitLimit) :
    Fallible.Alike (fun d' d => d'.conversion = d.conversion ∧ d'.flags = d.flags ∧
      Cursor.Numbered d'.operands d.operands k (s.numbered k).2)
      (s.numbered k).1.decode s.decode := by
  have h₃ : (numberedPosition
      (SizeSpec.numbered? (SizeSpec.numbered? k s.width).2 s.precision).2 s.position).2 <
      10 ^ Numeral.digitLimit := h
  have h₂ := Nat.lt_of_le_of_lt (le_numberedPosition_count _ s.position) h₃
  have h₁ := Nat.lt_of_le_of_lt (SizeSpec.le_numbered?_count _ s.precision) h₂
  refine (alike_numberedPosition h₃).bind fun n' n hn => ?_
  refine (SizeSpec.alike_decode?_numbered? h₁).bind fun w' w hw => ?_
  refine (SizeSpec.alike_decode?_numbered? h₂).bind fun r' r hr => ?_
  exact ⟨rfl, rfl, Directive.numbered_operands hw hr (hn _ _ rfl rfl)⟩

end Spec

/-! ## The same output

The induction is on the lexemes, with the count of those before.  Both templates fail with the same
fault where they fail, as a directive is understood with its positions if it is without. -/

namespace Lexeme

/-- Numbered lexemes are formatted, wherever the cursor stands, as the lexemes are after `k`
arguments were taken. -/
theorem formatAll_numberAll [Nesting] {ls : List Lexeme} {k : Nat}
    (h : k + (ls.flatMap source).length < 10 ^ Numeral.digitLimit) (vs : List Value) (j : Nat) :
    formatAll (numberAll k ls) ⟨vs, j⟩ = formatAll ls ⟨vs, k⟩ := by
  induction ls generalizing k with
  | nil => rfl
  | cons l ls ih =>
    rw [List.flatMap_cons, List.length_append] at h
    cases l with
    | literal s =>
      rw [numberAll, numbered, formatAll_literal, formatAll_literal, ih (by omega)]
    | escape =>
      rw [numberAll, numbered, formatAll_escape, formatAll_escape, ih (by omega)]
    | directive spec =>
      rw [source] at h
      have hk := Spec.numbered_count_le k spec
      have hd := Spec.alike_decode_numbered (k := k) (s := spec) (by omega)
      rw [numberAll, numbered]
      rcases hd.cases with ⟨d', d, he', he, hc, hf, ho⟩ | ⟨e, he', he⟩
      · obtain ⟨ho2, ho1⟩ := ho vs j
        rw [formatAll_directive he', formatAll_directive he, ho1, ho2,
          Directive.output_congr hc hf, ih (by omega)]
      · rw [formatAll_directive_error he', formatAll_directive_error he]

end Lexeme

/-! ## Templates without a percent sign

A single text as argument is taken apart or not depending on whether the template has a percent
sign.  Numbers do not change this. -/

namespace Lexeme

theorem percent_mem_source_numbered (k : Nat) (l : Lexeme) :
    '%' ∈ (l.numbered k).1.source ↔ '%' ∈ l.source := by
  cases l with
  | literal s => exact Iff.rfl
  | escape => exact Iff.rfl
  | directive spec => exact iff_of_true List.mem_cons_self List.mem_cons_self

theorem percent_mem_numberAll (k : Nat) (ls : List Lexeme) :
    '%' ∈ (numberAll k ls).flatMap source ↔ '%' ∈ ls.flatMap source := by
  induction ls generalizing k with
  | nil => exact Iff.rfl
  | cons l ls ih =>
    rw [numberAll, List.flatMap_cons, List.flatMap_cons, List.mem_append, List.mem_append, ih,
      percent_mem_source_numbered]

/-- Nothing is rewritten in a template that has no percent sign. -/
theorem numberAll_of_percent_not_mem {ls : List Lexeme} (h : '%' ∉ ls.flatMap source) (k : Nat) :
    numberAll k ls = ls := by
  induction ls with
  | nil => rfl
  | cons l ls ih =>
    rw [List.flatMap_cons, List.mem_append, not_or] at h
    cases l with
    | literal s => rw [numberAll, numbered, ih h.2]
    | escape => exact absurd List.mem_cons_self h.1
    | directive spec => exact absurd List.mem_cons_self h.1

end Lexeme

theorem percent_mem_numbered (template : Text) :
    '%' ∈ Text.numbered template ↔ '%' ∈ template := by
  rw [Text.numbered, Lexeme.percent_mem_numberAll, Lexeme.flatMap_source_ofTemplate]

theorem Text.numbered_of_percent_not_mem {template : Text} (h : '%' ∉ template) :
    Text.numbered template = template := by
  rw [← Lexeme.flatMap_source_ofTemplate template] at h
  rw [Text.numbered, Lexeme.numberAll_of_percent_not_mem h, Lexeme.flatMap_source_ofTemplate]

/-! ## The result -/

/-- Formatting does not see whether positions are written out. -/
theorem format_numbered [Nesting] {template : Text} (h : template.length < 10 ^ Numeral.digitLimit)
    (args : List Value) : format (Text.numbered template) args = format template args := by
  have hl : 0 + ((Lexeme.ofTemplate template).flatMap Lexeme.source).length <
      10 ^ Numeral.digitLimit := by
    rwa [Lexeme.flatMap_source_ofTemplate, Nat.zero_add]
  rw [format, format, Lexeme.ofTemplate_numbered]
  exact Lexeme.formatAll_numberAll hl args 0

/-- **Formatting does not see whether positions are written out.**  The bound only says that the
number of the last argument has no more digits than a number may have; a template of this length
would have thousands of digits in its length alone. -/
theorem formatWith_numbered [Nesting] {template : Text}
    (h : template.length < 10 ^ Numeral.digitLimit)
    (args : Value) : formatWith (Text.numbered template) args = formatWith template args := by
  by_cases hp : '%' ∈ template
  · rw [formatWith, formatWith, if_pos hp, if_pos ((percent_mem_numbered template).2 hp)]
    cases hi : args.items with
    | error e => rfl
    | ok vs => exact format_numbered h vs
  · rw [Text.numbered_of_percent_not_mem hp]

/-- A star takes the first argument, so the two directives take the second and the third. -/
theorem formatWith_numbered_star :
    "%*s|%s".toList.length < 10 ^ Numeral.digitLimit ∧
      Text.numbered "%*s|%s".toList = "%2$*1$s|%3$s".toList ∧
      formatWith "%2$*1$s|%3$s".toList (.list [
        .float (.finite false 0x10000000000000 (-50) (by decide)), .text ['x'], .text ['y']]) =
          .ok "   x|y".toList := by
  have h : "%*s|%s".toList.length < 10 ^ Numeral.digitLimit := by decide +kernel
  have hn : Text.numbered "%*s|%s".toList = "%2$*1$s|%3$s".toList := by decide +kernel
  refine ⟨h, hn, ?_⟩
  rw [← hn, formatWith_numbered h]
  decide +kernel

end Stencil
