import Stencil.Proofs.Directive.Grammar
import Stencil.Proofs.Numeral.Text

/-!
# Decimal numerals inside directives

A numeral that is written into a directive is a run of digits, and it is read back as its number as
long as it has no more digits than can be read (`digitsNumber_decimal`), also behind zeros
(`digitsNumber_zeros_append`).
-/

set_option autoImplicit false

namespace Stencil

open Grammar

namespace Numeral

/-! ## Digits

The digits of a decimal numeral are ASCII digits, and reading takes those of any script. -/

theorem lt_ten_of_mem_digits {n d : Nat} (h : d ∈ digits 10 n) : d < 10 :=
  lt_of_mem_digits (by decide) h

theorem decimal_ne_nil (n : Nat) : decimal n ≠ [] := text_ne_nil 10 n

theorem isDigits_decimal (n : Nat) : IsDigits (decimal n) := by
  refine ⟨decimal_ne_nil n, fun c hc => ?_⟩
  obtain ⟨d, hd, rfl⟩ := List.mem_map.1 hc
  rw [Text.isDecimalDigit, digitValue?_digitChar (lt_ten_of_mem_digits hd)]
  rfl

theorem filterMap_digitValue?_map_digitChar {ds : List Nat} (h : ∀ d ∈ ds, d < 10) :
    (ds.map Nat.digitChar).filterMap Text.digitValue? = ds := by
  induction ds with
  | nil => rfl
  | cons d ds ih =>
    rw [List.map_cons, List.filterMap_cons_some (digitValue?_digitChar (h d List.mem_cons_self)),
      ih fun e he => h e (List.mem_cons_of_mem d he)]

theorem filterMap_digitValue?_decimal (n : Nat) :
    (decimal n).filterMap Text.digitValue? = digits 10 n :=
  filterMap_digitValue?_map_digitChar fun _ hd => lt_ten_of_mem_digits hd

theorem filterMap_digitValue?_zeros_append (k n : Nat) :
    (List.replicate k '0' ++ decimal n).filterMap Text.digitValue? =
      List.replicate k 0 ++ digits 10 n := by
  have hzero : Text.digitValue? '0' = some 0 := rfl
  rw [List.filterMap_append, List.filterMap_replicate_of_some hzero, filterMap_digitValue?_decimal]

/-! ## First digits

A first digit that is not zero bounds a number from below, and the number of digits bounds it from
above. -/

/-- Only zero has a numeral that begins with a zero. -/
theorem head?_decimal_ne_zero {n : Nat} (h : 0 < n) : (decimal n).head? ≠ some '0' :=
  head?_text_ne_zero (by decide) (by decide) h

theorem exists_digits_eq_cons {n : Nat} (hn : 0 < n) :
    ∃ d ds, digits 10 n = d :: ds ∧ d ≠ 0 := by
  obtain ⟨d, ds, hds⟩ := List.exists_cons_of_ne_nil (digits_ne_nil 10 n)
  have h0 := head_digits_ne_zero (b := 10) (by decide) hn
  simp only [hds, List.head_cons] at h0
  exact ⟨d, ds, hds, h0⟩

/-- A first digit that is not zero is worth a power of the base alone. -/
theorem pow_le_horner_cons {b d : Nat} (hd : d ≠ 0) (ds : List Nat) :
    b ^ ds.length ≤ horner b (d :: ds) := by
  rw [horner_cons]
  calc
    b ^ ds.length ≤ d * b ^ ds.length := Nat.le_mul_of_pos_left _ (Nat.pos_of_ne_zero hd)
    _ ≤ d * b ^ ds.length + horner b ds := Nat.le_add_right _ _

/-- A number below a power of ten has at most as many digits as the exponent says. -/
theorem decimalLength_le {n k : Nat} (hk : 0 < k) (h : n < 10 ^ k) : decimalLength n ≤ k := by
  rcases Nat.eq_zero_or_pos n with rfl | hn
  · exact hk
  · obtain ⟨d, ds, hds, hd⟩ := exists_digits_eq_cons hn
    have hle := pow_le_horner_cons (b := 10) hd ds
    rw [← hds, horner_digits] at hle
    rw [decimalLength, hds, List.length_cons]
    exact (Nat.pow_lt_pow_iff_right (by decide)).1 (Nat.lt_of_le_of_lt hle h)

end Numeral

/-- **A numeral is read back as its number.** -/
theorem digitsNumber_decimal {n : Nat} (h : n < 10 ^ Numeral.digitLimit) :
    digitsNumber (Numeral.decimal n) = .ok n := by
  have hl : (Numeral.digits 10 n).length ≤ Numeral.digitLimit :=
    Numeral.decimalLength_le (by decide) h
  rw [digitsNumber, Numeral.filterMap_digitValue?_decimal, Numeral.limited, if_pos hl,
    Numeral.value_digits]

/-- Zeros in front of a numeral count as digits and change nothing else. -/
theorem digitsNumber_zeros_append {k n : Nat}
    (h : k + Numeral.decimalLength n ≤ Numeral.digitLimit) :
    digitsNumber (List.replicate k '0' ++ Numeral.decimal n) = .ok n := by
  have hl : (List.replicate k 0 ++ Numeral.digits 10 n).length ≤ Numeral.digitLimit := by
    rwa [List.length_append, List.length_replicate]
  rw [digitsNumber, Numeral.filterMap_digitValue?_zeros_append, Numeral.limited, if_pos hl,
    Numeral.value_zeros_append_digits]

end Stencil
