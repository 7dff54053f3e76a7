import Stencil.Directive.Reader

/-!
# The language of directives

`Grammar.IsDirective` says which texts are directives, part by part and without saying how they are
read.  The parts share characters, so most texts can be taken apart in several ways: `%05d` has a
flag and a width of one digit, or a width of two digits.  Nothing here chooses between them.

The bridge to directives as they are written is `Grammar.isDirective_iff`: the directives are the
escape and the sources of the specs whose numbers consist of digits (`Spec.Written`).
-/

set_option autoImplicit false

namespace Stencil
namespace Grammar

/-! ## The language

One predicate for each part, in the order in which the parts stand.  A part that may be missing is
the empty text. -/

/-- One or more decimal digits, of any script. -/
def IsDigits (s : Text) : Prop := s ≠ [] ∧ ∀ c ∈ s, Text.isDecimalDigit c

/-- A position: nothing, or digits and a dollar sign. -/
inductive IsPosition : Text → Prop where
  | absent : IsPosition []
  | present {ds : Text} (h : IsDigits ds) : IsPosition (ds ++ ['$'])

/-- Flags, in any order and any number. -/
def IsFlags (s : Text) : Prop := ∀ c ∈ s, c ∈ ['-', '+', ' ', '0', '#', '\x27']

/-- A size: a star, a star with a number and a dollar sign, a number with a dollar sign, or a
number. -/
inductive IsSize : Text → Prop where
  | star : IsSize ['*']
  | starNumber {ds : Text} (h : IsDigits ds) : IsSize ('*' :: (ds ++ ['$']))
  | dollarNumber {ds : Text} (h : IsDigits ds) : IsSize (ds ++ ['$'])
  | number {ds : Text} (h : IsDigits ds) : IsSize ds

/-- A width: nothing, or a size. -/
inductive IsWidth : Text → Prop where
  | absent : IsWidth []
  | present {s : Text} (h : IsSize s) : IsWidth s

/-- A precision: nothing, or a point and a size. -/
inductive IsPrecision : Text → Prop where
  | absent : IsPrecision []
  | present {s : Text} (h : IsSize s) : IsPrecision ('.' :: s)

/-- A length modifier, or nothing. -/
def IsLength (s : Text) : Prop := s ∈ [[], ['h', 'h'], ['h'], ['l', 'l'], ['l'], ['L']]

/-- A conversion letter. -/
def IsConversion (c : Char) : Prop := c ∈ "bcdefgiosuxXyYjJBFEG".toList

/-- A directive, or the escape. -/
inductive IsDirective : Text → Prop where
  | escape : IsDirective ['%', '%']
  | directive {p f w r l : Text} {c : Char} (hp : IsPosition p) (hf : IsFlags f) (hw : IsWidth w)
      (hr : IsPrecision r) (hl : IsLength l) (hc : IsConversion c) :
      IsDirective ('%' :: (p ++ f ++ w ++ r ++ l ++ [c]))

theorem IsDigits.append {s t : Text} (hs : ∀ c ∈ s, Text.isDecimalDigit c) (ht : IsDigits t) :
    IsDigits (s ++ t) := by
  refine ⟨by simp [ht.1], fun c hc => ?_⟩
  rcases List.mem_append.1 hc with h | h
  · exact hs c h
  · exact ht.2 c h

end Grammar

/-! ## Specs with proper numbers

The source of a spec is a directive as soon as its numbers are digits, since everything else in it
is one of finitely many texts.  For the converse each part of a directive gives the part of a spec
that it is the source of, in any way that is possible. -/

open Grammar

namespace SizeSpec

/-- The number of a size, if it has one, consists of digits. -/
def Written : SizeSpec → Prop
  | next => True
  | argument ds | literal ds | ignored ds => IsDigits ds

/-- The sizes of the grammar are the sources of written sizes. -/
theorem isSize_iff {s : Text} : IsSize s ↔ ∃ z : SizeSpec, z.Written ∧ z.source = s := by
  constructor
  · intro h
    cases h with
    | star => exact ⟨next, trivial, rfl⟩
    | starNumber h => exact ⟨argument _, h, rfl⟩
    | dollarNumber h => exact ⟨ignored _, h, rfl⟩
    | number h => exact ⟨literal _, h, rfl⟩
  · rintro ⟨z, hz, rfl⟩
    cases z with
    | next => exact .star
    | argument ds => exact .starNumber hz
    | literal ds => exact .number hz
    | ignored ds => exact .dollarNumber hz

end SizeSpec

namespace Flag

theorem isFlags_map_char (fs : List Flag) : IsFlags (fs.map char) := by
  intro c hc
  obtain ⟨f, -, rfl⟩ := List.mem_map.1 hc
  cases f <;> decide

theorem exists_map_char {s : Text} (h : IsFlags s) : ∃ fs : List Flag, fs.map char = s := by
  induction s with
  | nil => exact ⟨[], rfl⟩
  | cons c s ih =>
    obtain ⟨fs, rfl⟩ := ih fun d hd => h d (List.mem_cons_of_mem c hd)
    have hs : ['-', '+', ' ', '0', '#', '\x27'].all fun c => (ofChar? c).isSome := by decide
    obtain ⟨f, hf⟩ := Option.isSome_iff_exists.1 (List.all_eq_true.1 hs c (h c List.mem_cons_self))
    exact ⟨f :: fs, congrArg (· :: fs.map char) (char_of_ofChar? hf)⟩

end Flag

/-- The length modifiers of the grammar are the sources of lengths. -/
theorem Length.isLength_iff {s : Text} :
    IsLength s ↔ ∃ l : Option Length, l.elim [] Length.letters = s := by
  constructor
  · intro h
    simp only [IsLength, List.mem_cons, List.not_mem_nil, or_false] at h
    rcases h with rfl | rfl | rfl | rfl | rfl | rfl
    · exact ⟨none, rfl⟩
    · exact ⟨some byte, rfl⟩
    · exact ⟨some short, rfl⟩
    · exact ⟨some longLong, rfl⟩
    · exact ⟨some long, rfl⟩
    · exact ⟨some longDouble, rfl⟩
  · rintro ⟨l, rfl⟩
    rcases l with _ | l
    · exact List.mem_cons_self
    · cases l <;> simp [IsLength, letters]

theorem Conversion.isConversion_letter (v : Conversion) : IsConversion v.letter := by
  have h : ∀ v ∈ all, v.letter ∈ "bcdefgiosuxXyYjJBFEG".toList := by decide
  exact h v (mem_all v)

theorem Conversion.exists_letter {c : Char} (h : IsConversion c) :
    ∃ v : Conversion, v.letter = c := by
  have hs : "bcdefgiosuxXyYjJBFEG".toList.all fun c => (ofLetter? c).isSome := by decide
  obtain ⟨v, hv⟩ := Option.isSome_iff_exists.1 (List.all_eq_true.1 hs c h)
  exact ⟨v, letter_of_ofLetter? hv⟩

namespace Spec

/-- The numbers of a directive consist of digits. -/
structure Written (s : Spec) : Prop where
  position : ∀ ds, s.position = some ds → IsDigits ds
  width : ∀ z, s.width = some z → z.Written
  precision : ∀ z, s.precision = some z → z.Written

/-- What stands after the percent sign of a directive. -/
def body (s : Spec) : Text :=
  s.position.elim [] (· ++ ['$']) ++ s.flags.map Flag.char ++
    s.width.elim [] SizeSpec.source ++ s.precision.elim [] (fun p => '.' :: p.source) ++
    s.length.elim [] Length.letters ++ [s.conversion.letter]

theorem source_eq (s : Spec) : s.source = '%' :: s.body := rfl

theorem isDirective_source {s : Spec} (h : s.Written) : IsDirective s.source := by
  refine .directive ?_ (Flag.isFlags_map_char _) ?_ ?_ (Length.isLength_iff.2 ⟨_, rfl⟩)
    s.conversion.isConversion_letter
  · rcases hp : s.position with _ | ds
    · exact .absent
    · exact .present (h.position ds hp)
  · rcases hw : s.width with _ | z
    · exact .absent
    · exact .present (SizeSpec.isSize_iff.2 ⟨z, h.width z hw, rfl⟩)
  · rcases hr : s.precision with _ | z
    · exact .absent
    · exact .present (SizeSpec.isSize_iff.2 ⟨z, h.precision z hr, rfl⟩)

end Spec

namespace Grammar

theorem IsPosition.exists_source {s : Text} (h : IsPosition s) :
    ∃ p : Option Text, (∀ ds, p = some ds → IsDigits ds) ∧ p.elim [] (· ++ ['$']) = s := by
  cases h with
  | absent => exact ⟨none, by simp, rfl⟩
  | present h => exact ⟨some _, by rintro _ ⟨⟩; exact h, rfl⟩

theorem IsWidth.exists_source {s : Text} (h : IsWidth s) :
    ∃ w : Option SizeSpec, (∀ z, w = some z → z.Written) ∧ w.elim [] SizeSpec.source = s := by
  cases h with
  | absent => exact ⟨none, by simp, rfl⟩
  | present h =>
    obtain ⟨z, hz, rfl⟩ := SizeSpec.isSize_iff.1 h
    exact ⟨some z, by rintro _ ⟨⟩; exact hz, rfl⟩

theorem IsPrecision.exists_source {s : Text} (h : IsPrecision s) :
    ∃ r : Option SizeSpec, (∀ z, r = some z → z.Written) ∧
      r.elim [] (fun p => '.' :: p.source) = s := by
  cases h with
  | absent => exact ⟨none, by simp, rfl⟩
  | present h =>
    obtain ⟨z, hz, rfl⟩ := SizeSpec.isSize_iff.1 h
    exact ⟨some z, by rintro _ ⟨⟩; exact hz, rfl⟩

/-- **The directives** are the escape and the sources of the specs with proper numbers. -/
theorem isDirective_iff {t : Text} :
    IsDirective t ↔ t = ['%', '%'] ∨ ∃ s : Spec, s.Written ∧ s.source = t := by
  constructor
  · intro h
    cases h with
    | escape => exact .inl rfl
    | directive hp hf hw hr hl hc =>
      obtain ⟨p, hp', rfl⟩ := hp.exists_source
      obtain ⟨f, rfl⟩ := Flag.exists_map_char hf
      obtain ⟨w, hw', rfl⟩ := hw.exists_source
      obtain ⟨r, hr', rfl⟩ := hr.exists_source
      obtain ⟨l, rfl⟩ := Length.isLength_iff.1 hl
      obtain ⟨v, rfl⟩ := Conversion.exists_letter hc
      exact .inr ⟨⟨p, f, w, r, l, v⟩, ⟨hp', hw', hr'⟩, rfl⟩
  · rintro (rfl | ⟨s, hs, rfl⟩)
    · exact .escape
    · exact Spec.isDirective_source hs

end Grammar
end Stencil
