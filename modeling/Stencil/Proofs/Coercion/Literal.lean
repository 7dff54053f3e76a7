import Stencil.Coercion.Number
import Stencil.Proofs.Numeral.Text

/-!
# Literals between blanks

A text is read as the integer that it writes, whatever blanks are around it
(`Text.toInteger?_of_literal`).  Two kinds of literal are read here: a decimal numeral with a sign
(`Numeral.literal?_sign`), and a numeral with the marker of its base (`Numeral.literal?_marker`).
Zeros in front change neither.

What is printed is read in this way again, so the literals here are those that are printed.  The
literals that may be written are more, and are dealt with by themselves.
-/

set_option autoImplicit false

namespace Stencil

/-! ## Blanks

Nothing in a literal is a blank or an underscore, so what is taken away before it is read are the
blanks around it. -/

namespace Text

variable {p : Char → Bool}

theorem dropWhile_append_of_forall {front s : Text} (hf : ∀ c ∈ front, p c)
    (hs : ∀ c, s.head? = some c → p c = false) : (front ++ s).dropWhile p = s := by
  rw [List.dropWhile_append_of_pos hf]
  cases s with
  | nil => rfl
  | cons c s => rw [List.dropWhile_cons, hs c rfl]; rfl

/-- Trimming takes away what passes at both ends, and no more. -/
theorem trimWhere_append {front s back : Text} (hf : ∀ c ∈ front, p c) (hb : ∀ c ∈ back, p c)
    (hne : s ≠ []) (hs : ∀ c ∈ s, p c = false) : trimWhere p (front ++ s ++ back) = s := by
  have hhead : ∀ c, (s ++ back).head? = some c → p c = false := by
    obtain ⟨a, s, rfl⟩ := List.exists_cons_of_ne_nil hne
    rintro c ⟨⟩
    exact hs _ List.mem_cons_self
  have hlast : ∀ c, s.reverse.head? = some c → p c = false := fun c hc =>
    hs c (List.mem_reverse.1 (List.mem_of_head? hc))
  rw [trimWhere, List.append_assoc, dropWhile_append_of_forall hf hhead, List.reverse_append,
    dropWhile_append_of_forall (fun c hc => hb c (List.mem_reverse.1 hc)) hlast,
    List.reverse_reverse]

theorem trimWhere_eq_self {s : Text} (hs : ∀ c ∈ s, p c = false) : trimWhere p s = s := by
  have hdrop (t : Text) (ht : ∀ c ∈ t, p c = false) : ([] ++ t).dropWhile p = t :=
    dropWhile_append_of_forall nofun fun c hc => ht c (List.mem_of_head? hc)
  have hback : s.reverse.dropWhile p = s.reverse :=
    hdrop s.reverse fun c hc => hs c (List.mem_reverse.1 hc)
  have hfront : s.dropWhile p = s := hdrop s hs
  rw [trimWhere, hfront, hback, List.reverse_reverse]

/-- The characters of literals. -/
def literalChars : Text := "+-0123456789abcdefxABCDEFX".toList

theorem isBlank_of_mem_literalChars {c : Char} (h : c ∈ literalChars) :
    isBlank c = false ∧ c ≠ '_' := by
  have hall : ∀ c ∈ literalChars, isBlank c = false ∧ c ≠ '_' :=
    List.all_iff_forall_prop.1 (by decide)
  exact hall c h

theorem plain_of_literal {s : Text} (hne : s ≠ []) (hs : ∀ c ∈ s, c ∈ literalChars) (a b : Nat) :
    plain (fill ' ' a ++ s ++ fill ' ' b) = s := by
  have hblank : ∀ n, ∀ c ∈ fill ' ' n, isBlank c = true := by
    intro n c hc
    rw [List.eq_of_mem_replicate hc]
    decide
  rw [plain, trim, trimWhere_append (hblank a) (hblank b) hne fun c hc =>
    (isBlank_of_mem_literalChars (hs c hc)).1]
  exact List.filter_eq_self.2 fun c hc =>
    decide_eq_true (isBlank_of_mem_literalChars (hs c hc)).2

/-- **A literal is read through the spaces around it.** -/
theorem toInteger?_of_literal {s : Text} {n : Int} (hs : ∀ c ∈ s, c ∈ literalChars)
    (h : Numeral.literal? s = some n) (a b : Nat) :
    toInteger? (fill ' ' a ++ s ++ fill ' ' b) = some n := by
  have hne : s ≠ [] := by
    rintro rfl
    cases h
  rw [toInteger?, plain_of_literal hne hs]
  simp only [List.isEmpty_iff, hne, if_false, h]

end Text

/-! ## Literals

The letters of the markers tell the two kinds apart: without one of them a text is decimal, and with
one the base is known. -/

namespace Numeral

variable {b m : Nat}

theorem isDigit_of_mem_zeros_append {k : Nat} {c : Char}
    (h : c ∈ Text.fill '0' k ++ text 10 m) : c ∈ "0123456789".toList := by
  have hall : ∀ d < 10, Nat.digitChar d ∈ "0123456789".toList := by decide
  rcases List.mem_append.1 h with h | h
  · rw [List.eq_of_mem_replicate h]
    decide
  · obtain ⟨d, hd, rfl⟩ := exists_digit_of_mem_text (by decide) h
    exact hall d hd

/-- A text without the letter of a marker is read as decimal digits. -/
theorem unsignedLiteral?_of_marker_not_mem {s : Text} (h : ∀ c ∈ s, c ∉ "xXoObB".toList) :
    unsignedLiteral? s = (Text.digitRun? s).map (value 10) := by
  have hno : ∀ c ∈ "xXoObB".toList, ∀ t : Text, s ≠ '0' :: c :: t := by
    rintro c hc t rfl
    exact h c (by simp) hc
  unfold unsignedLiteral?
  split
  · exact absurd rfl (hno 'x' (by decide) _)
  · exact absurd rfl (hno 'X' (by decide) _)
  · exact absurd rfl (hno 'o' (by decide) _)
  · exact absurd rfl (hno 'O' (by decide) _)
  · exact absurd rfl (hno 'b' (by decide) _)
  · exact absurd rfl (hno 'B' (by decide) _)
  · rfl

theorem takeSign_of_head? {s : Text} (h : ∀ c, s.head? = some c → c ≠ '-' ∧ c ≠ '+') :
    takeSign s = (false, s) := by
  unfold takeSign
  split
  · exact absurd rfl (h '-' rfl).1
  · exact absurd rfl (h '+' rfl).2
  · rfl

/-- A decimal numeral, with zeros in front, is read with its sign. -/
theorem literal?_sign {sign : Text} (hs : sign ∈ [[], ['-'], ['+']]) (k m : Nat) :
    literal? (sign ++ (Text.fill '0' k ++ text 10 m)) =
      some (signed (decide (sign = ['-'])) m) := by
  have hread : unsignedLiteral? (Text.fill '0' k ++ text 10 m) = some m := by
    have hmarker : ∀ c ∈ "0123456789".toList, c ∉ "xXoObB".toList :=
      List.all_iff_forall_prop.1 (by decide)
    rw [unsignedLiteral?_of_marker_not_mem fun c hc => hmarker c (isDigit_of_mem_zeros_append hc),
      Text.fill, digitRun?_zeros_append, Option.map_some, value_zeros_append_digits]
  have hsign : takeSign (sign ++ (Text.fill '0' k ++ text 10 m)) =
      (decide (sign = ['-']), Text.fill '0' k ++ text 10 m) := by
    simp only [List.mem_cons, List.not_mem_nil, or_false] at hs
    rcases hs with rfl | rfl | rfl
    · refine takeSign_of_head? fun c hc => ?_
      have hall : ∀ c ∈ "0123456789".toList, c ≠ '-' ∧ c ≠ '+' :=
        List.all_iff_forall_prop.1 (by decide)
      exact hall c (isDigit_of_mem_zeros_append (List.mem_of_head? hc))
    · rfl
    · rfl
  rw [literal?, hsign, hread, Option.map_some]

/-- A numeral with the marker of its base is read, when its digits are. -/
theorem literal?_marker {c : Char} {b m : Nat} {s : Text}
    (hc : (b = 16 ∧ (c = 'x' ∨ c = 'X')) ∨ (b = 2 ∧ (c = 'b' ∨ c = 'B')))
    (h : baseValue? b s = some m) : literal? ('0' :: c :: s) = some (m : Int) := by
  have hread : unsignedLiteral? ('0' :: c :: s) = some m := by
    rcases hc with ⟨rfl, rfl | rfl⟩ | ⟨rfl, rfl | rfl⟩ <;> exact h
  rw [literal?, takeSign_of_head? (by rintro c ⟨⟩; decide), hread]
  rfl

end Numeral
end Stencil
