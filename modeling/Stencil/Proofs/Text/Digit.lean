import Mathlib.Data.Bool.AllAny
import Stencil.Text.Blank
import Stencil.Text.Digit

/-!
# Digits among other characters

Digits of every script are kept apart from the characters that mean something around a number: a
sign, an underscore and the blanks.  All these are few, so it is enough to go through their code
points (`Text.toNat_not_mem_numberMarks`).

A character can be a digit without having a value of its own in a numeral: superscripts are one
example.  Both kinds are called digit-like here, and neither is any of the marks.

A run of digits has a value where all of its characters have one, and otherwise none at all
(`Text.digitRun?_eq_some`, `Text.digitRun?_eq_none`).
-/

set_option autoImplicit false

namespace Stencil
namespace Text

/-! ## No digit is a mark

The marks are listed by their code points, and those of the digits are known from a table.  So there
is one comparison to be made, and what each kind of mark has to do with the list. -/

theorem isDigitLike_of_isDecimalDigit {c : Char} (h : isDecimalDigit c) : isDigitLike c := by
  simp [isDigitLike, h]

/-- The code points that mean something in front of, between or after the digits of a number. -/
def numberMarks : List Nat :=
  [0x09, 0x0A, 0x0B, 0x0C, 0x0D, 0x1C, 0x1D, 0x1E, 0x1F, 0x20, 0x2B, 0x2D, 0x5F, 0x85, 0xA0, 0x1680,
   0x2000, 0x2001, 0x2002, 0x2003, 0x2004, 0x2005, 0x2006, 0x2007, 0x2008, 0x2009, 0x200A, 0x2028,
   0x2029, 0x202F, 0x205F, 0x3000]

theorem toNat_not_mem_numberMarks {c : Char} (h : isDigitLike c) : c.toNat ∉ numberMarks := by
  have hmarks : ∀ n ∈ numberMarks, isDigitLike (Char.ofNat n) = false :=
    List.all_iff_forall_prop.1 (by decide)
  intro hc
  have hn := hmarks _ hc
  rw [Char.ofNat_toNat, h] at hn
  cases hn

theorem ne_of_isDigitLike {c : Char} (h : isDigitLike c) : c ≠ '-' ∧ c ≠ '+' ∧ c ≠ '_' := by
  have hc := toNat_not_mem_numberMarks h
  refine ⟨?_, ?_, ?_⟩ <;>
  · rintro rfl
    exact hc (by decide)

theorem ne_sign_of_isDigitLike {c : Char} (h : isDigitLike c) : c ≠ '-' ∧ c ≠ '+' :=
  ⟨(ne_of_isDigitLike h).1, (ne_of_isDigitLike h).2.1⟩

theorem toNat_mem_numberMarks_of_isSpacing {c : Char} (h : isSpacing c) :
    c.toNat ∈ numberMarks := by
  simp only [isSpacing, isAsciiSpacing, Bool.or_eq_true, Bool.and_eq_true, decide_eq_true_eq,
    List.contains_iff_mem] at h
  rcases h with ((rfl | h) | h) | h
  · decide
  · simp only [numberMarks, List.mem_cons]
    omega
  · simp only [List.mem_cons, List.not_mem_nil, or_false, numberMarks] at h ⊢
    omega
  · simp only [numberMarks, List.mem_cons]
    omega

theorem isSpacing_of_isDigitLike {c : Char} (h : isDigitLike c) : isSpacing c = false :=
  Bool.eq_false_iff.2 fun hs =>
    toNat_not_mem_numberMarks h (toNat_mem_numberMarks_of_isSpacing hs)

theorem isBlank_of_isDigitLike {c : Char} (h : isDigitLike c) : isBlank c = false := by
  have hc := toNat_not_mem_numberMarks h
  rw [Bool.eq_false_iff]
  intro hb
  simp only [isBlank, isSpacing_of_isDigitLike h, Bool.false_or, Bool.and_eq_true,
    decide_eq_true_eq] at hb
  simp only [numberMarks, List.mem_cons] at hc
  omega

/-- No digit is an upper case letter. -/
theorem toLower_of_isDigitLike {c : Char} (h : isDigitLike c) : c.toLower = c := by
  have hletters : ∀ n < 26, isDigitLike (Char.ofNat (65 + n)) = false := by decide
  refine dif_neg ?_
  rintro ⟨hlow, hhigh⟩
  have hlow' : 65 ≤ c.toNat := hlow
  have hhigh' : c.toNat ≤ 90 := hhigh
  have hn := hletters (c.toNat - 65) (by omega)
  rw [Nat.add_sub_cancel' hlow', Char.ofNat_toNat, h] at hn
  cases hn

/-! ## Runs of digits

Each character of a run is looked up, and one that is not found is enough for the whole run to have
no value. -/

theorem exists_not_isDecimalDigit {s : Text} (h : ¬ ∀ c ∈ s, isDecimalDigit c) :
    ∃ c ∈ s, isDecimalDigit c = false := by
  simpa only [Classical.not_forall, exists_prop, Bool.not_eq_true] using h

theorem mapM_digitValue?_eq_some {s : Text} (h : ∀ c ∈ s, isDecimalDigit c) :
    s.mapM digitValue? = some (s.filterMap digitValue?) := by
  induction s with
  | nil => rfl
  | cons c s ih =>
    obtain ⟨d, hd⟩ := Option.isSome_iff_exists.1 (h c List.mem_cons_self)
    rw [List.mapM_cons, hd, ih fun x hx => h x (List.mem_cons_of_mem c hx),
      List.filterMap_cons_some hd]
    rfl

/-- A text is not read where one of its characters is not. -/
theorem mapM_eq_none {α : Type} {f : Char → Option α} {s : Text} {c : Char} (hc : c ∈ s)
    (h : f c = none) : s.mapM f = none := by
  induction s with
  | nil => cases hc
  | cons a s ih =>
    rw [List.mapM_cons]
    rcases List.mem_cons.1 hc with rfl | hm
    · rw [h]
      rfl
    · rw [ih hm]
      cases f a <;> rfl

theorem mapM_digitValue?_eq_none {s : Text} {c : Char} (hc : c ∈ s) (h : isDecimalDigit c = false) :
    s.mapM digitValue? = none :=
  mapM_eq_none hc (Option.isSome_eq_false_iff.1 h |> Option.isNone_iff_eq_none.1)

theorem digitRun?_eq_some {s : Text} (hne : s ≠ []) (h : ∀ c ∈ s, isDecimalDigit c) :
    digitRun? s = some (s.filterMap digitValue?) := by
  obtain ⟨c, s, rfl⟩ := List.exists_cons_of_ne_nil hne
  exact mapM_digitValue?_eq_some h

theorem digitRun?_eq_none {s : Text} {c : Char} (hc : c ∈ s) (h : isDecimalDigit c = false) :
    digitRun? s = none := by
  cases s with
  | nil => rfl
  | cons a s => exact mapM_digitValue?_eq_none hc h

end Text
end Stencil
