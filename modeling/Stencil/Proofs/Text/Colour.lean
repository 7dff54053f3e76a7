import Mathlib.Data.List.TakeWhile
import Stencil.Proofs.Coercion.Literal
import Stencil.Text.Colour

/-!
# Removing control sequences

A control sequence is an escape character, a bracket, as many parameters as there are, and a final
character (`Colour.IsSequence`).  Which characters are parameters and which are final is left open
here, so that all that follows holds of both removals.

Going from left to right, a sequence is removed where it begins, and a character at which none
begins is kept: `Colour.Leaves` says this without saying how it is done, and it is what removing
does (`Colour.leaves_iff`).  Nothing else is touched.  A text in which no sequence stands is left as
it is, and no other text is (`Colour.removeWhere_eq_self_iff`).

What is written after a text, and can end no sequence, stays where it is
(`Colour.removeWhere_append`): a line break after a text is one after the text without its
sequences.
-/

set_option autoImplicit false

namespace Stencil
namespace Colour

variable {parameter final : Char → Bool} {c : Char} {s rest : Text}

/-! ## Sequences

The final character is no parameter, so a sequence ends where its parameters do and no sequence
begins another one.
-/

/-- A control sequence whose parameters and final character pass. -/
inductive IsSequence (parameter final : Char → Bool) : Text → Prop where
  | intro {ps : Text} {x : Char} (hps : ∀ p ∈ ps, parameter p) (hx : parameter x = false)
    (hfinal : final x) : IsSequence parameter final (escape :: '[' :: (ps ++ [x]))

/-- A sequence is an escape character, a bracket, parameters as long as there are any, and a final
character. -/
theorem sequence?_eq_some_iff :
    sequence? parameter final s = some rest ↔ ∃ ps x,
      s = escape :: '[' :: (ps ++ x :: rest) ∧ (∀ p ∈ ps, parameter p) ∧ parameter x = false ∧
        final x := by
  constructor
  · intro h
    -- the nested cases are the tests of the definition, and only one way through them succeeds
    unfold sequence? at h
    split at h
    · rename_i a t
      split at h
      · rename_i ha
        split at h
        · rename_i x r hd
          split at h
          · rename_i hfx
            cases h
            have hx := List.head?_dropWhile_not parameter t
            rw [hd] at hx
            refine ⟨t.takeWhile parameter, x, ?_, fun p hp => List.mem_takeWhile_imp hp, ?_, hfx⟩
            · rw [← hd, List.takeWhile_append_dropWhile, ha]
            · simpa using hx
          · cases h
        · cases h
      · cases h
    · cases h
  · rintro ⟨ps, x, rfl, hps, hx, hfx⟩
    have hd : (ps ++ x :: rest).dropWhile parameter = x :: rest := by
      refine Text.dropWhile_append_of_forall hps ?_
      rintro a ⟨⟩
      exact hx
    simp [sequence?, hd, hfx]

/-- What is removed at once is a sequence. -/
theorem sequence?_eq_some_iff_isSequence :
    sequence? parameter final s = some rest ↔
      ∃ seq, IsSequence parameter final seq ∧ s = seq ++ rest := by
  rw [sequence?_eq_some_iff]
  constructor
  · rintro ⟨ps, x, rfl, hps, hx, hfinal⟩
    exact ⟨_, .intro hps hx hfinal, by simp⟩
  · rintro ⟨_, ⟨hps, hx, hfinal⟩, rfl⟩
    exact ⟨_, _, by simp, hps, hx, hfinal⟩

theorem sequence?_eq_none_iff :
    sequence? parameter final s = none ↔ ∀ seq, IsSequence parameter final seq → ¬ seq <+: s := by
  rw [Option.eq_none_iff_forall_ne_some]
  constructor
  · rintro h seq hseq ⟨rest, rfl⟩
    exact h rest (sequence?_eq_some_iff_isSequence.2 ⟨seq, hseq, rfl⟩)
  · intro h rest hrest
    obtain ⟨seq, hseq, rfl⟩ := sequence?_eq_some_iff_isSequence.1 hrest
    exact h seq hseq (List.prefix_append seq rest)

theorem IsSequence.ne_nil {seq : Text} (h : IsSequence parameter final seq) : seq ≠ [] := by
  obtain ⟨-, -, -⟩ := h
  exact List.cons_ne_nil _ _

theorem IsSequence.escape_mem {seq : Text} (h : IsSequence parameter final seq) :
    escape ∈ seq := by
  obtain ⟨-, -, -⟩ := h
  exact List.mem_cons_self

/-! ## Removing sequences

The removal is a recursion on the text that either takes a sequence off or keeps a character.  Each
of the results below is an induction along it. -/

/-- A character that ends no sequence stays where it is after a text. -/
theorem sequence?_append_eq_some_iff (hf : final c = false) {r : Text} :
    sequence? parameter final (s ++ [c]) = some r ↔
      ∃ rest, sequence? parameter final s = some rest ∧ r = rest ++ [c] := by
  constructor
  · intro hs
    obtain ⟨ps, x, hsc, hps, hx, hfx⟩ := sequence?_eq_some_iff.1 hs
    rcases List.eq_nil_or_concat r with rfl | ⟨rest, d, rfl⟩
    · have hsc : s ++ [c] = (escape :: '[' :: ps) ++ [x] := by simpa using hsc
      cases (List.append_inj' hsc rfl).2
      rw [hfx] at hf
      cases hf
    · rw [List.concat_eq_append] at hsc ⊢
      have hsc : s ++ [c] = (escape :: '[' :: (ps ++ x :: rest)) ++ [d] := by
        simpa using hsc
      obtain ⟨rfl, hcd⟩ := List.append_inj' hsc rfl
      cases hcd
      exact ⟨rest, sequence?_eq_some_iff.2 ⟨ps, x, rfl, hps, hx, hfx⟩, rfl⟩
  · rintro ⟨rest, hs, rfl⟩
    obtain ⟨ps, x, rfl, hps, hx, hfx⟩ := sequence?_eq_some_iff.1 hs
    exact sequence?_eq_some_iff.2 ⟨ps, x, by simp, hps, hx, hfx⟩

/-- A sequence is dropped. -/
theorem removeWhere_of_eq_some (h : sequence? parameter final s = some rest) :
    removeWhere parameter final s = removeWhere parameter final rest := by
  rw [removeWhere.eq_def]
  split
  · rename_i r hr
    rw [h] at hr
    cases hr
    rfl
  · rename_i hr
    rw [h] at hr
    cases hr

/-- A character is kept. -/
theorem removeWhere_of_eq_none (h : sequence? parameter final (c :: s) = none) :
    removeWhere parameter final (c :: s) = c :: removeWhere parameter final s := by
  rw [removeWhere.eq_def]
  split
  · rename_i r hr
    rw [h] at hr
    cases hr
  · rfl

theorem removeWhere_append (hf : final c = false) (s : Text) :
    removeWhere parameter final (s ++ [c]) = removeWhere parameter final s ++ [c] := by
  have hnone {s : Text} (hs : sequence? parameter final s = none) :
      sequence? parameter final (s ++ [c]) = none := by
    rw [Option.eq_none_iff_forall_ne_some]
    intro r hr
    obtain ⟨rest, hrest, -⟩ := (sequence?_append_eq_some_iff hf).1 hr
    rw [hs] at hrest
    cases hrest
  fun_induction removeWhere parameter final s with
  | case1 s rest hs ih =>
    rw [removeWhere_of_eq_some ((sequence?_append_eq_some_iff hf).2 ⟨rest, hs, rfl⟩), ih]
  | case2 hs =>
    have hc := hnone hs
    rw [List.nil_append] at hc ⊢
    rw [removeWhere_of_eq_none hc, removeWhere.eq_def]
    rfl
  | case3 a s hs ih =>
    have hc := hnone hs
    rw [List.cons_append] at hc ⊢
    rw [removeWhere_of_eq_none hc, ih, List.cons_append]

/-- `t` is what is left of `s` when each sequence is taken out where it begins. -/
inductive Leaves (parameter final : Char → Bool) : Text → Text → Prop where
  | nil : Leaves parameter final [] []
  | removed {seq s t : Text} (h : IsSequence parameter final seq)
    (ht : Leaves parameter final s t) : Leaves parameter final (seq ++ s) t
  | kept {c : Char} {s t : Text} (h : ∀ seq, IsSequence parameter final seq → ¬ seq <+: c :: s)
    (ht : Leaves parameter final s t) : Leaves parameter final (c :: s) (c :: t)

/-- **Removing sequences leaves what is left when each is taken out where it begins.** -/
theorem leaves_iff {t : Text} :
    Leaves parameter final s t ↔ removeWhere parameter final s = t := by
  constructor
  · intro h
    induction h with
    | nil => rw [removeWhere.eq_def]; rfl
    | removed h _ ih =>
      rw [removeWhere_of_eq_some (sequence?_eq_some_iff_isSequence.2 ⟨_, h, rfl⟩), ih]
    | kept h _ ih => rw [removeWhere_of_eq_none (sequence?_eq_none_iff.2 h), ih]
  · rintro rfl
    fun_induction removeWhere parameter final s with
    | case1 s rest hs ih =>
      obtain ⟨seq, hseq, rfl⟩ := sequence?_eq_some_iff_isSequence.1 hs
      exact .removed hseq ih
    | case2 => exact .nil
    | case3 c s hs ih => exact .kept (sequence?_eq_none_iff.1 hs) ih

theorem removeWhere_sublist (s : Text) : (removeWhere parameter final s).Sublist s := by
  fun_induction removeWhere parameter final s with
  | case1 s rest hs ih =>
    obtain ⟨seq, -, rfl⟩ := sequence?_eq_some_iff_isSequence.1 hs
    exact ih.trans (List.sublist_append_right seq rest)
  | case2 => exact .slnil
  | case3 c s hs ih => exact ih.cons_cons c

/-- **A text is left as it is exactly if no sequence stands in it.** -/
theorem removeWhere_eq_self_iff :
    removeWhere parameter final s = s ↔ ∀ seq, IsSequence parameter final seq → ¬ seq <:+: s := by
  fun_induction removeWhere parameter final s with
  | case1 s rest hs ih =>
    obtain ⟨seq, hseq, rfl⟩ := sequence?_eq_some_iff_isSequence.1 hs
    refine iff_of_false (fun h => ?_) fun h => h seq hseq (List.prefix_append seq rest).isInfix
    -- what is left is shorter than the text by a sequence at least
    have hsub : (removeWhere parameter final rest).Sublist rest := removeWhere_sublist rest
    have hlength := hsub.length_le
    have hpos := List.length_pos_iff.2 hseq.ne_nil
    rw [h, List.length_append] at hlength
    omega
  | case2 => exact iff_of_true rfl fun seq hseq h => hseq.ne_nil (List.infix_nil.1 h)
  | case3 c s hs ih =>
    rw [List.cons.injEq, and_iff_right rfl, ih]
    refine forall₂_congr fun seq hseq => not_congr ?_
    rw [List.infix_cons_iff, or_iff_right (sequence?_eq_none_iff.1 hs seq hseq)]

theorem removeWhere_eq_self_of_not_mem (h : escape ∉ s) : removeWhere parameter final s = s :=
  removeWhere_eq_self_iff.2 fun _ hseq hs => h (hs.subset hseq.escape_mem)

end Colour
end Stencil
