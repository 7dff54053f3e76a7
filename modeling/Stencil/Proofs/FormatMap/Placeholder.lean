import Stencil.FormatMap.Substitution
import Stencil.Proofs.Directive.Canonical
import Stencil.Proofs.Fallible
import Stencil.Proofs.Numeral.Decimal

/-!
# Placeholders read back

A placeholder with a proper name and lead is read back from its source, whatever follows, so a
template that is put together from literal characters and placeholders is divided into these again
(`Fragment.ofTemplate_flatMap_source`).

Compiling puts something else in the place of the names.  `Fragment.sourceWith` says what becomes of
a template then, and `FormatMap.compileNames_flatMap_source` that a list of names puts positions
there.
-/

set_option autoImplicit false

namespace Stencil

namespace Placeholder

/-! ## Reading a placeholder

A lead ends with the last character that can belong to it, and the name that follows begins with one
that cannot.  It goes on to the dollar sign, and one letter is left. -/

theorem isAlpha_of_isDigit {c : Char} (h : c.isDigit) : c.isAlpha = false := by
  have hletter : c.isAlpha = (decide (c.val ≥ 'A'.val ∧ c.val ≤ 'Z'.val) ||
      (decide (c.val ≥ 'a'.val) && decide (c.val ≤ 'z'.val))) := rfl
  rw [Bool.eq_false_iff, hletter]
  intro ha
  simp only [Char.isDigit, Bool.or_eq_true, Bool.and_eq_true, decide_eq_true_eq,
    UInt32.le_iff_toNat_le, ge_iff_le] at h ha
  have hZ : 'A'.val.toNat = 65 := rfl
  have hz : 'a'.val.toNat = 97 := rfl
  have h9 : '9'.val.toNat = 57 := rfl
  omega

/-- No character of a lead begins a name. -/
theorem isNameStart_of_isLead {c : Char} (h : isLead c) : isNameStart c = false := by
  rw [isLead, Bool.or_eq_true, List.contains_iff_mem] at h
  rcases h with h | h
  · have hne : c ≠ '_' := by
      rintro rfl
      exact absurd h (by decide)
    rw [isNameStart, isAlpha_of_isDigit h, decide_eq_false hne]
    rfl
  · have hall : "-+ #'*.".toList.all fun d => !isNameStart d := by decide
    simpa using List.all_eq_true.1 hall c h

/-- A name that a placeholder can have. -/
def IsIdentifier (name : Text) : Prop :=
  ∃ c s, name = c :: s ∧ isNameStart c ∧ ∀ d ∈ s, isName d

theorem IsIdentifier.percent_not_mem {name : Text} (h : IsIdentifier name) : '%' ∉ name := by
  obtain ⟨c, s, rfl, hc, hs⟩ := h
  intro hm
  rcases List.mem_cons.1 hm with rfl | hm
  · exact absurd hc (by decide)
  · exact absurd (hs '%' hm) (by decide)

/-- A placeholder that can be read. -/
structure Proper (p : Placeholder) : Prop where
  lead : ∀ c ∈ p.lead, isLead c
  name : IsIdentifier p.name

/-- The text of a placeholder after its percent sign, with `name` in the place of its name. -/
theorem sourceWith_append (p : Placeholder) (name rest : Text) :
    p.sourceWith name ++ rest =
      '%' :: (p.lead ++ (name ++ '$' :: p.conversion.letter :: rest)) := by
  simp [sourceWith]

/-- **A placeholder is read back**, whatever follows its source. -/
theorem readBody?_append {p : Placeholder} (h : p.Proper) (rest : Text) :
    readBody? (p.lead ++ (p.name ++ '$' :: p.conversion.letter :: rest)) = some (p, rest) := by
  obtain ⟨lead, name, conversion⟩ := p
  obtain ⟨hlead, c, s, rfl, hc, hs⟩ := h
  have hl : Text.run isLead (lead ++ (c :: s ++ '$' :: conversion.letter :: rest)) =
      (lead, c :: s ++ '$' :: conversion.letter :: rest) := by
    refine Text.run_append_of_forall hlead ?_
    rintro d ⟨⟩
    rw [Bool.eq_false_iff]
    intro hd
    rw [isNameStart_of_isLead hd] at hc
    cases hc
  have hn : Text.run isName (s ++ '$' :: conversion.letter :: rest) =
      (s, '$' :: conversion.letter :: rest) :=
    Text.run_append_of_forall hs (by rintro d ⟨⟩; decide)
  rw [readBody?, hl]
  show readName? lead (c :: (s ++ '$' :: conversion.letter :: rest)) = _
  rw [readName?, if_pos hc, hn]
  show (Conversion.ofLetter? conversion.letter).map _ = _
  rw [Conversion.ofLetter?_letter]
  rfl

end Placeholder

/-! ## Fragments

Fragments are written one after the other.  Where a placeholder is proper it is taken off as a
whole, and no character but a percent sign begins one. -/

namespace Fragment

/-- A fragment as it is written in a template: a placeholder, or a character that begins none. -/
def Proper : Fragment → Prop
  | char c => c ≠ '%'
  | placeholder p => p.Proper

/-- The text of a fragment with names replaced. -/
def sourceWith (σ : Text → Text) : Fragment → Text
  | char c => [c]
  | placeholder p => p.sourceWith (σ p.name)

theorem source_eq_sourceWith : source = sourceWith id := by
  funext fr
  cases fr <;> rfl

theorem ofTemplate_char {c : Char} (hc : c ≠ '%') (s : Text) :
    ofTemplate (c :: s) = char c :: ofTemplate s := by
  rw [ofTemplate]
  rintro rfl
  exact hc rfl

theorem ofTemplate_placeholder {p : Placeholder} (h : p.Proper) (rest : Text) :
    ofTemplate (p.source ++ rest) = placeholder p :: ofTemplate rest := by
  have hr := Placeholder.readBody?_append h rest
  rw [Placeholder.source, Placeholder.sourceWith_append, ofTemplate]
  split
  · rename_i he
    rw [hr] at he
    cases he
    rfl
  · rename_i he
    rw [hr] at he
    cases he

/-- **A template that is put together is taken apart again.** -/
theorem ofTemplate_flatMap_source {frs : List Fragment} (h : ∀ fr ∈ frs, fr.Proper) :
    ofTemplate (frs.flatMap source) = frs := by
  induction frs with
  | nil => simp [ofTemplate]
  | cons fr frs ih =>
    have ih := ih fun f hf => h f (List.mem_cons_of_mem fr hf)
    have hfr := h fr List.mem_cons_self
    rw [List.flatMap_cons]
    cases fr with
    | char c => rw [source, List.singleton_append, ofTemplate_char hfr, ih]
    | placeholder p => rw [source, ofTemplate_placeholder hfr, ih]

end Fragment

/-! ## Positions in the place of names

Each fragment is compiled by itself, and the texts are put together in order. -/

namespace FormatMap

/-- What stands in the place of a name: its index, if it has one. -/
def indexText (m : FormatMap) (name : Text) : Text :=
  (m.indexOf? name).elim name Numeral.signedDecimal

/-- A name of the map. -/
def Declares (m : FormatMap) (name : Text) : Prop := (m.indexOf? name).isSome

theorem indexText_of_indexOf? {m : FormatMap} {name : Text} {n : Nat}
    (h : m.indexOf? name = some (n : Int)) : m.indexText name = Numeral.decimal n := by
  rw [indexText, h, Option.elim_some, Numeral.signedDecimal, if_neg (by omega)]
  rfl

theorem compile_fragment {ns : List Text} (template : Text) {fr : Fragment}
    (h : ∀ p, fr = .placeholder p → (names ns).Declares p.name) :
    fr.compile ns template = .ok (fr.sourceWith (names ns).indexText) := by
  cases fr with
  | char c => rfl
  | placeholder p =>
    obtain ⟨i, hi⟩ := Option.isSome_iff_exists.1 (h p rfl)
    obtain ⟨n, hn, rfl⟩ := Option.map_eq_some_iff.1 hi
    rw [Fragment.compile, hn, Fragment.sourceWith, indexText, hi]
    rfl

/-- **A list of names puts positions in the place of names**, and leaves all else as it is. -/
theorem compileNames_flatMap_source {ns : List Text} {frs : List Fragment}
    (h : ∀ fr ∈ frs, fr.Proper)
    (hd : ∀ p, Fragment.placeholder p ∈ frs → (names ns).Declares p.name) :
    compileNames ns (frs.flatMap Fragment.source) =
      .ok (frs.flatMap (Fragment.sourceWith (names ns).indexText)) := by
  have hm : frs.mapM (Fragment.compile ns (frs.flatMap Fragment.source)) =
      .ok (frs.map (Fragment.sourceWith (names ns).indexText)) :=
    Fallible.mapM_eq_ok fun fr hfr => compile_fragment _ fun p hp => hd p (hp ▸ hfr)
  rw [compileNames, Fragment.ofTemplate_flatMap_source h, hm, List.flatMap_def]
  rfl

end FormatMap
end Stencil
