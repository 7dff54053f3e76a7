import Stencil.Proofs.Coercion.Literal
import Stencil.Proofs.Directive.Numbers
import Stencil.Proofs.Text.Digit

/-!
# Texts that look like numbers

What **looks numeric** is digits of any kind, among them those without place value.  What can be
read at once is decimal digits, and not too many of them (`IsIndex`).  Between the two are the texts
that are **overread**: reading them fails, either because of a digit without place value or because
there are too many digits (`LooksNumeric.cases`).
-/

set_option autoImplicit false

namespace Stencil

open Grammar

namespace Numeral

variable {s : Text}

/-- Digits of any kind, and at least one. -/
def LooksNumeric (s : Text) : Prop := s ≠ [] ∧ ∀ c ∈ s, Text.isDigitLike c

/-- Decimal digits, as many as can be read. -/
def IsIndex (s : Text) : Prop := IsDigits s ∧ s.length ≤ digitLimit

/-- The number that an index stands for. -/
def indexOf (s : Text) : Int := value 10 (s.filterMap Text.digitValue?)

/-! ## Overread texts

The two ways of being overread exclude each other, since where there are too many digits, all of
them have place values. -/

/-- What looks numeric and cannot be read, with the fault of reading it. -/
inductive Overread (s : Text) : Fault → Prop where
  | placeless (h : LooksNumeric s) {c : Char} (hc : c ∈ s) (hd : Text.isDecimalDigit c = false) :
      Overread s .malformedInteger
  | long (h : IsDigits s) (hl : digitLimit < s.length) : Overread s .numeralTooLong

theorem looksNumeric_iff : LooksNumeric s ↔ (!s.isEmpty && s.all Text.isDigitLike) = true := by
  simp only [LooksNumeric, Bool.and_eq_true, Bool.not_eq_true', List.isEmpty_eq_false_iff,
    List.all_eq_true]

theorem looksNumeric_of_isDigits (h : IsDigits s) : LooksNumeric s :=
  ⟨h.1, fun c hc => Text.isDigitLike_of_isDecimalDigit (h.2 c hc)⟩

theorem Overread.looksNumeric {f : Fault} (h : Overread s f) : LooksNumeric s := by
  cases h with
  | placeless h => exact h
  | long h => exact looksNumeric_of_isDigits h

theorem Overread.not_isDigits (h : Overread s .malformedInteger) : ¬ IsDigits s := by
  cases h with
  | placeless _ hc hd => exact fun hdigits => Bool.false_ne_true (hd.symm.trans (hdigits.2 _ hc))

/-- Where no underscore stands between digits, all characters are digits. -/
theorem groupedDigits?_eq_mapM (digit? : Char → Option Nat) (hne : s ≠ []) (h : '_' ∉ s) :
    groupedDigits? digit? s = s.mapM digit? := by
  fun_induction groupedDigits? digit? s with
  | case1 => exact absurd rfl hne
  | case2 c => cases hc : digit? c <;> simp [hc]
  | case3 c s ih => exact absurd (by simp) h
  | case4 c s hs hu ih =>
    rw [List.mapM_cons, ih (by simpa using hs) fun hm => h (List.mem_cons_of_mem c hm)]

theorem read_of_looksNumeric (h : LooksNumeric s) :
    read s = match s.mapM Text.digitValue? with
      | some ds => (limited ds).map (signed false)
      | none => .error .malformedInteger := by
  have htrim : Text.trimWhere Text.isSpacing s = s :=
    Text.trimWhere_eq_self fun c hc => Text.isSpacing_of_isDigitLike (h.2 c hc)
  have hsign : takeSign s = (false, s) := takeSign_of_head? fun c hc =>
    Text.ne_sign_of_isDigitLike (h.2 c (List.mem_of_head? hc))
  have hdigits := groupedDigits?_eq_mapM Text.digitValue? h.1 fun hm =>
    (Text.ne_of_isDigitLike (h.2 _ hm)).2.2 rfl
  rw [read, readPlain, htrim, hsign]
  cases hds : s.mapM Text.digitValue? with
  | none => simp only [hdigits, hds]
  | some ds => simp only [hdigits, hds]

theorem read_of_isDigits (h : IsDigits s) :
    read s = (limited (s.filterMap Text.digitValue?)).map Int.ofNat := by
  rw [read_of_looksNumeric (looksNumeric_of_isDigits h), Text.mapM_digitValue?_eq_some h.2]
  rfl

theorem read_of_isIndex (h : IsIndex s) : read s = .ok (indexOf s) := by
  rw [read_of_isDigits h.1, limited, length_filterMap_digitValue? h.1.2, if_pos h.2]
  rfl

theorem read_of_overread {f : Fault} (h : Overread s f) : read s = .error f := by
  cases h with
  | placeless h hc hd => rw [read_of_looksNumeric h, Text.mapM_digitValue?_eq_none hc hd]
  | long h hl =>
    rw [read_of_isDigits h, limited, length_filterMap_digitValue? h.2,
      if_neg (Nat.not_le.2 hl)]
    rfl

theorem LooksNumeric.isDigits_or (h : LooksNumeric s) :
    IsDigits s ∨ Overread s .malformedInteger := by
  by_cases hd : ∀ c ∈ s, Text.isDecimalDigit c
  · exact .inl ⟨h.1, hd⟩
  · obtain ⟨c, hc, hd⟩ := Text.exists_not_isDecimalDigit hd
    exact .inr (.placeless h hc hd)

/-- **What looks numeric is an index, or else it is overread.** -/
theorem LooksNumeric.cases (h : LooksNumeric s) : IsIndex s ∨ ∃ f, Overread s f := by
  rcases h.isDigits_or with hd | hf
  · rcases Nat.lt_or_ge digitLimit s.length with hl | hl
    · exact .inr ⟨_, .long hd hl⟩
    · exact .inl ⟨hd, hl⟩
  · exact .inr ⟨_, hf⟩

theorem digitRun?_of_not_isDigits (h : ¬ IsDigits s) : Text.digitRun? s = none := by
  by_cases hne : s = []
  · rw [hne]
    rfl
  · obtain ⟨c, hc, hd⟩ := Text.exists_not_isDecimalDigit fun hall => h ⟨hne, hall⟩
    exact Text.digitRun?_eq_none hc hd

end Numeral

end Stencil
