import Mathlib.Data.Bool.AllAny
import Stencil.Numeral.Lemmas
import Stencil.Numeral.Literal

/-!
# Numerals as texts

What can be said of the characters of a numeral to a base between two and sixteen: each is the
character of a digit below the base, the first is a zero only in the numeral of zero, which is a
single one, and the characters are read back as the digits, in either letter case.  With zeros in
front, a numeral is still read as its number (`baseValue?_zeros_append`).
-/

set_option autoImplicit false

namespace Stencil
namespace Numeral

variable {b n : Nat}

/-! ## Characters

The digits of a number are below the base, and the characters for them are in the order of their
values, first the ten digits and then letters. -/

theorem text_ne_nil (b n : Nat) : text b n ≠ [] := mt List.map_eq_nil_iff.1 (digits_ne_nil b n)

theorem exists_digit_of_mem_text (hb : 2 ≤ b) {c : Char} (h : c ∈ text b n) :
    ∃ d < b, c = Nat.digitChar d := by
  obtain ⟨d, hd, rfl⟩ := List.mem_map.1 h
  exact ⟨d, lt_of_mem_digits hb hd, rfl⟩

theorem digits_zero (hb : 2 ≤ b) : digits b 0 = [0] := by
  have hw : 0 < halfWeight b 0 := by
    rw [halfWeight_eq]
    exact Nat.pow_pos (by omega)
  show digitsBelow b (0 + 1) 0 = [0]
  rw [digitsBelow, if_pos hw, digitsBelow]

/-- Zero has a numeral of one zero. -/
theorem text_zero (hb : 2 ≤ b) : text b 0 = ['0'] := by
  rw [text, digits_zero hb]
  rfl

theorem digitChar_eq_zero_iff {d : Nat} (h : d < 16) : Nat.digitChar d = '0' ↔ d = 0 := by
  have hall : ∀ d < 16, (Nat.digitChar d = '0' ↔ d = 0) := by decide
  exact hall d h

/-- Only zero has a numeral that begins with a zero. -/
theorem head?_text_ne_zero (hb : 2 ≤ b) (hb' : b ≤ 16) (hn : 0 < n) :
    (text b n).head? ≠ some '0' := by
  have hd := lt_of_mem_digits hb (List.head_mem (digits_ne_nil b n))
  rw [text, List.head?_map, List.head?_eq_some_head (digits_ne_nil b n)]
  intro he
  have hc : Nat.digitChar ((digits b n).head (digits_ne_nil b n)) = '0' := Option.some.inj he
  exact head_digits_ne_zero hb hn ((digitChar_eq_zero_iff (by omega)).1 hc)

/-! ## Zeros in front

Zeros are put in front of a numeral until it is as wide as it should be. -/

theorem padZeros_eq (width : Nat) (s : Text) :
    padZeros width s = List.replicate (width - s.length) '0' ++ s := rfl

theorem mem_padZeros {width : Nat} {s : Text} {c : Char} (h : c ∈ padZeros width s) :
    c = '0' ∨ c ∈ s := by
  rw [padZeros_eq, List.mem_append] at h
  exact h.imp_left List.eq_of_mem_replicate

/-! ## Reading back

Reading undoes each character, and what is left is the value of the digits.  Zeros in front add
nothing to it. -/

@[simp] theorem horner_zeros_append (b k : Nat) (ds : List Nat) :
    horner b (List.replicate k 0 ++ ds) = horner b ds := by
  induction k with
  | zero => rfl
  | succ k ih =>
    rw [List.replicate_succ, List.cons_append, horner_cons, ih, Nat.zero_mul, Nat.zero_add]

@[simp] theorem value_zeros_append_digits (b k n : Nat) :
    value b (List.replicate k 0 ++ digits b n) = n := by
  rw [value_eq_horner, horner_zeros_append, horner_digits]

theorem zeros_append_text (b k n : Nat) :
    List.replicate k '0' ++ text b n =
      (List.replicate k 0 ++ digits b n).map Nat.digitChar := by
  rw [List.map_append, List.map_replicate, text]
  rfl

theorem lt_of_mem_zeros_append_digits (hb : 2 ≤ b) {k d : Nat}
    (h : d ∈ List.replicate k 0 ++ digits b n) : d < b := by
  rcases List.mem_append.1 h with h | h
  · rw [List.eq_of_mem_replicate h]
    omega
  · exact lt_of_mem_digits hb h

/-- What undoes each item undoes a list. -/
theorem mapM_map_eq_some {α β : Type} {f : β → Option α} {g : α → β} {as : List α}
    (h : ∀ a ∈ as, f (g a) = some a) : (as.map g).mapM f = some as := by
  induction as with
  | nil => rfl
  | cons a as ih =>
    simp [h a List.mem_cons_self, ih fun x hx => h x (List.mem_cons_of_mem a hx)]

/-- Any characters will do that have the right value. -/
theorem baseValue?_map {g : Nat → Char} {ds : List Nat} (hne : ds ≠ [])
    (h : ∀ d ∈ ds, baseDigit? b (g d) = some d) : baseValue? b (ds.map g) = some (value b ds) := by
  obtain ⟨d, es, rfl⟩ := List.exists_cons_of_ne_nil hne
  have hm := mapM_map_eq_some h
  rw [List.map_cons] at hm ⊢
  rw [baseValue?, hm, Option.map_some]
  simp

theorem zeros_append_digits_ne_nil (b k n : Nat) : List.replicate k 0 ++ digits b n ≠ [] := by
  simp [digits_ne_nil]

/-- A numeral with zeros in front is read as its number. -/
theorem baseValue?_zeros_append (hb : 2 ≤ b) (hb' : b ≤ 16) (k n : Nat) :
    baseValue? b (List.replicate k '0' ++ text b n) = some n := by
  have hread : ∀ b ≤ 16, ∀ d < b, baseDigit? b (Nat.digitChar d) = some d := by decide
  rw [zeros_append_text, baseValue?_map (zeros_append_digits_ne_nil b k n)
    fun d hd => hread b hb' d (lt_of_mem_zeros_append_digits hb hd), value_zeros_append_digits]

/-- A numeral with zeros in front is read as its number in upper case as well. -/
theorem baseValue?_upper_zeros_append (hb : 2 ≤ b) (hb' : b ≤ 16) (k n : Nat) :
    baseValue? b (Text.upper (List.replicate k '0' ++ text b n)) = some n := by
  have hread : ∀ b ≤ 16, ∀ d < b,
      baseDigit? b ((Char.toUpper ∘ Nat.digitChar) d) = some d := by decide
  rw [zeros_append_text, Text.upper, List.map_map,
    baseValue?_map (zeros_append_digits_ne_nil b k n)
      fun d hd => hread b hb' d (lt_of_mem_zeros_append_digits hb hd), value_zeros_append_digits]

theorem digitValue?_digitChar {d : Nat} (h : d < 10) :
    Text.digitValue? (Nat.digitChar d) = some d := by
  have hall : ∀ d < 10, Text.digitValue? (Nat.digitChar d) = some d := by decide
  exact hall d h

/-- An integer is its sign and its magnitude. -/
@[simp] theorem signed_natAbs (n : Int) : signed (decide (n < 0)) n.natAbs = n := by
  rw [signed]
  by_cases h : n < 0
  · rw [if_pos (decide_eq_true h)]
    omega
  · rw [if_neg (mt of_decide_eq_true h)]
    omega

/-- A decimal numeral with zeros in front is a run of digits, and is read as its number. -/
theorem digitRun?_zeros_append (k n : Nat) :
    Text.digitRun? (List.replicate k '0' ++ text 10 n) =
      some (List.replicate k 0 ++ digits 10 n) := by
  have hne := zeros_append_digits_ne_nil 10 k n
  have hm := mapM_map_eq_some (f := Text.digitValue?) (g := Nat.digitChar)
    fun d (hd : d ∈ List.replicate k 0 ++ digits 10 n) =>
      digitValue?_digitChar (lt_of_mem_zeros_append_digits (by decide) hd)
  rw [zeros_append_text]
  generalize List.replicate k 0 ++ digits 10 n = ds at hne hm ⊢
  obtain ⟨d, es, rfl⟩ := List.exists_cons_of_ne_nil hne
  rwa [List.map_cons] at hm ⊢

end Numeral
end Stencil
