import Stencil.Proofs.Directive.PrefixFree
import Stencil.Template

/-!
# Dividing a template

`Chunk` is what can be seen of a piece of a template: a literal text, or the text of a directive.
`Chunk.WellCut` says when pieces are divided as they should be: literal text is as long as possible
and holds no percent sign that begins a directive, and every other piece is a directive.

* `Chunk.wellCut_ofTemplate` — the lexemes of a template are well cut.
* `Lexeme.ofTemplate_flatMap_source` — well cut lexemes with canonical directives are the lexemes of
  the text they are written as.  This is what lets a template be rewritten piece by piece.

Both are needed to go from texts to lexemes and back.  The first says that reading never leaves out
a directive or splits a literal text, the second that nothing else has to be known of a text in
order to read it.
-/

set_option autoImplicit false

namespace Stencil

open Grammar

/-! ## Pieces

A lexeme holds more than is seen of it, as its parts have been taken apart already.  Where a
template is divided depends on the text alone, so it is said of texts. -/

/-- A piece of a template as it is seen in the template.  The escape counts as a directive. -/
inductive Chunk where
  | literal (s : Text)
  | directive (s : Text)
  deriving DecidableEq, Repr

namespace Chunk

/-- The text of a piece. -/
def source : Chunk → Text
  | literal s => s
  | directive s => s

end Chunk

/-- What is seen of a lexeme. -/
def Lexeme.chunk : Lexeme → Chunk
  | literal s => .literal s
  | escape => .directive ['%', '%']
  | directive spec => .directive spec.source

@[simp] theorem Lexeme.source_chunk (l : Lexeme) : l.chunk.source = l.source := by
  cases l <;> rfl

theorem Lexeme.flatMap_source_map_chunk (ls : List Lexeme) :
    (ls.map chunk).flatMap Chunk.source = ls.flatMap source := by
  simp [List.flatMap_map]

namespace Chunk

/-- Pieces that are divided as they should be.  Literal text is not empty, no literal text follows
it, and none of its percent signs begins a directive. -/
def WellCut : List Chunk → Prop
  | [] => True
  | literal s :: cs =>
    s ≠ [] ∧ (∀ t, cs.head? ≠ some (literal t)) ∧
      (∀ a b, s = a ++ '%' :: b → ¬ Begins (b ++ cs.flatMap source)) ∧ WellCut cs
  | directive s :: cs => IsDirective s ∧ WellCut cs

/-- What stands behind well cut pieces is well cut. -/
theorem WellCut.of_append {cs ds : List Chunk} (h : WellCut (cs ++ ds)) : WellCut ds := by
  induction cs with
  | nil => exact h
  | cons c cs ih =>
    cases c with
    | literal s => exact ih h.2.2.2
    | directive s => exact ih h.2

end Chunk

/-! ## The lexemes of a template

The reader takes a directive where one begins, and a character otherwise, and goes on with the rest.
So there are four ways in which lexemes come about, one for the escape, one for a directive, one for
a percent sign that stands for itself and one for any other character. -/

namespace Lexeme

theorem ofTemplate_escape (s : Text) : ofTemplate ('%' :: '%' :: s) = escape :: ofTemplate s := by
  rw [ofTemplate]

theorem ofTemplate_directive {s rest : Text} {spec : Spec}
    (h : Spec.readBody? s = some (spec, rest)) :
    ofTemplate ('%' :: s) = directive spec :: ofTemplate rest := by
  have hne : ∀ t, s ≠ '%' :: t := by
    rintro t rfl
    cases h
  rw [ofTemplate]
  · split
    · rename_i he
      rw [h] at he
      cases he
      rfl
    · rename_i he
      rw [h] at he
      cases he
  · exact fun t ht => hne t ht

/-- A percent sign with which no directive begins stands for itself. -/
theorem ofTemplate_percent {s : Text} (h : ¬ Begins s) :
    ofTemplate ('%' :: s) = consChar '%' (ofTemplate s) := by
  have hn := mt begins_iff_readBody?.2 h
  rw [ofTemplate]
  · split
    · rename_i he
      exact absurd (.inr (by rw [he]; rfl)) hn
    · rfl
  · rintro t rfl
    exact hn (.inl rfl)

theorem ofTemplate_char {c : Char} (hc : c ≠ '%') (s : Text) :
    ofTemplate (c :: s) = consChar c (ofTemplate s) := by
  rw [ofTemplate]
  · rintro t rfl
    exact absurd rfl hc
  · rintro rfl
    exact absurd rfl hc

end Lexeme

namespace Chunk

/-- A character in front of well cut lexemes. -/
theorem WellCut.consChar {c : Char} {ls : List Lexeme} (h : WellCut (ls.map Lexeme.chunk))
    (hc : c = '%' → ¬ Begins (ls.flatMap Lexeme.source)) :
    WellCut ((Lexeme.consChar c ls).map Lexeme.chunk) := by
  have hnew (hl : ∀ t, (ls.map Lexeme.chunk).head? ≠ some (literal t)) :
      WellCut (literal [c] :: ls.map Lexeme.chunk) := by
    refine ⟨by simp, hl, fun a b hab => ?_, h⟩
    obtain ⟨rfl, hc', rfl⟩ : a = [] ∧ c = '%' ∧ b = [] := by
      cases a <;> simp_all
    rw [Lexeme.flatMap_source_map_chunk]
    exact hc hc'
  cases ls with
  | nil => exact hnew (by simp)
  | cons l ls =>
    cases l with
    | literal s =>
      obtain ⟨-, hl, hb, hcs⟩ := h
      refine ⟨by simp, hl, fun a b hab => ?_, hcs⟩
      cases a with
      | nil =>
        obtain ⟨rfl, rfl⟩ := List.cons.inj hab
        rw [Lexeme.flatMap_source_map_chunk]
        exact hc rfl
      | cons d a => exact hb a b (List.cons.inj hab).2
    | escape => exact hnew (by simp [Lexeme.chunk])
    | directive spec => exact hnew (by simp [Lexeme.chunk])

/-- **The lexemes of a template are well cut.** -/
theorem wellCut_ofTemplate (s : Text) : WellCut ((Lexeme.ofTemplate s).map Lexeme.chunk) := by
  fun_induction Lexeme.ofTemplate s with
  | case1 => trivial
  | case2 s ih => exact ⟨.escape, ih⟩
  | case3 s _ spec rest h ih =>
    exact ⟨Spec.isDirective_source (Spec.canonical_of_readBody? h).written, ih⟩
  | case4 s hne h ih =>
    refine ih.consChar fun _ hb => ?_
    rw [Lexeme.flatMap_source_ofTemplate] at hb
    rcases begins_iff_readBody?.1 hb with hs | hs
    · obtain ⟨t, rfl⟩ := List.head?_eq_some_iff.1 hs
      exact hne t rfl
    · rw [h] at hs
      cases hs
  | case5 c s _ hne ih => exact ih.consChar fun hc => absurd hc hne

end Chunk

namespace Lexeme

theorem mem_of_directive_mem_consChar {c : Char} {ls : List Lexeme} {spec : Spec}
    (h : directive spec ∈ consChar c ls) : directive spec ∈ ls := by
  cases ls with
  | nil => simp [consChar] at h
  | cons l ls => cases l <;> simp_all [consChar]

/-- The directives of a template are canonical. -/
theorem canonical_of_mem_ofTemplate {s : Text} {spec : Spec} (h : directive spec ∈ ofTemplate s) :
    spec.Canonical := by
  fun_induction ofTemplate s with
  | case1 => cases h
  | case2 s ih => exact ih (List.mem_of_ne_of_mem (by simp) h)
  | case3 s _ spec' rest hr ih =>
    rcases List.mem_cons.1 h with he | hm
    · cases he
      exact Spec.canonical_of_readBody? hr
    · exact ih hm
  | case4 s _ _ ih => exact ih (mem_of_directive_mem_consChar h)
  | case5 c s _ _ ih => exact ih (mem_of_directive_mem_consChar h)

/-- Literal text in front of lexemes that do not begin with literal text. -/
theorem ofTemplate_literal_append {s rest : Text} {ls : List Lexeme} (hs : s ≠ [])
    (hls : ∀ t, ls.head? ≠ some (literal t)) (hr : ofTemplate rest = ls)
    (hb : ∀ a b, s = a ++ '%' :: b → ¬ Begins (b ++ rest)) :
    ofTemplate (s ++ rest) = literal s :: ls := by
  induction s with
  | nil => exact absurd rfl hs
  | cons c s ih =>
    have hstep : ofTemplate (c :: s ++ rest) = consChar c (ofTemplate (s ++ rest)) := by
      by_cases hc : c = '%'
      · subst hc
        exact ofTemplate_percent (hb [] s rfl)
      · exact ofTemplate_char hc (s ++ rest)
    rw [hstep]
    by_cases hnil : s = []
    · subst hnil
      rw [List.nil_append, hr]
      cases ls with
      | nil => rfl
      | cons l ls =>
        cases l with
        | literal t => exact absurd rfl (hls t)
        | _ => rfl
    · rw [ih hnil fun a b hab => hb (c :: a) b (by rw [hab, List.cons_append])]
      rfl

/-- **Well cut lexemes are the lexemes of their text.** -/
theorem ofTemplate_flatMap_source {ls : List Lexeme} (h : Chunk.WellCut (ls.map chunk))
    (hc : ∀ spec, directive spec ∈ ls → spec.Canonical) :
    ofTemplate (ls.flatMap source) = ls := by
  induction ls with
  | nil => simp [ofTemplate]
  | cons l ls ih =>
    have hc' : ∀ spec, directive spec ∈ ls → spec.Canonical :=
      fun spec hm => hc spec (List.mem_cons_of_mem l hm)
    rw [List.flatMap_cons]
    cases l with
    | literal s =>
      obtain ⟨hs, hl, hb, hls⟩ := h
      rw [flatMap_source_map_chunk] at hb
      refine ofTemplate_literal_append hs (fun t ht => hl t ?_) (ih hls hc') hb
      rw [List.head?_map, ht]
      rfl
    | escape => rw [source, List.cons_append, List.singleton_append, ofTemplate_escape, ih h.2 hc']
    | directive spec =>
      rw [source, Spec.source_eq, List.cons_append, ofTemplate_directive
        (Spec.readBody?_body_append (hc spec List.mem_cons_self) _), ih h.2 hc']

end Lexeme
end Stencil
