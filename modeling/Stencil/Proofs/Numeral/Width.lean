import Stencil.Proofs.Coercion.Written
import Stencil.Proofs.Number.Shortest

/-!
# Numerals of a fixed width

The digits after a point keep the zeros in front of them: they are a numeral of a fixed width.  If
the number is small enough, the numeral has just this many digits (`length_padZeros_decimal`), and
it writes the number whatever its width (`digitsValue_padZeros_decimal`).

A number times a power of ten has the same digits with zeros behind them
(`padZeros_decimal_mul_pow`).  This needs that a number has only one numeral without zeros in front
(`digits_horner`).
-/

set_option autoImplicit false

namespace Stencil

/-! ## What digits write

What digits write is worked out from their values, whatever their script and however many zeros are
in front. -/

namespace Text

/-- Digits in front are worth a power of ten more for each digit behind them. -/
theorem digitsValue_append (s : Text) {t : Text} (ht : ∀ c ∈ t, isDecimalDigit c) :
    digitsValue (s ++ t) = digitsValue s * 10 ^ t.length + digitsValue t := by
  rw [digitsValue, List.filterMap_append, Numeral.horner_append, length_filterMap_digitValue? ht]
  rfl

end Text

namespace Numeral

theorem isDecimalDigit_of_mem_padZeros {width n : Nat} {c : Char}
    (h : c ∈ padZeros width (decimal n)) : Text.isDecimalDigit c := by
  rcases mem_padZeros h with rfl | hc
  · rfl
  · exact (isDigits_decimal n).2 c hc

/-- A numeral that is not too long has just its width. -/
theorem length_padZeros_decimal {width n : Nat} (hw : 0 < width) (h : n < 10 ^ width) :
    (padZeros width (decimal n)).length = width := by
  have hl : (decimal n).length ≤ width := by
    rw [decimal, text, List.length_map]
    exact decimalLength_le hw h
  rw [padZeros_eq, List.length_append, List.length_replicate, Nat.sub_add_cancel hl]

@[simp] theorem digitsValue_zeros_append (k n : Nat) :
    Text.digitsValue (List.replicate k '0' ++ decimal n) = n := by
  rw [Text.digitsValue, filterMap_digitValue?_zeros_append, horner_zeros_append, horner_digits]

@[simp] theorem digitsValue_decimal (n : Nat) : Text.digitsValue (decimal n) = n :=
  digitsValue_zeros_append 0 n

@[simp] theorem digitsValue_padZeros_decimal (width n : Nat) :
    Text.digitsValue (padZeros width (decimal n)) = n := digitsValue_zeros_append _ n

/-! ## One numeral for each number

The first digit is the quotient by the weight of the others and they are the remainder, so digits of
the same number can only write the same number if they are the same. -/

/-- Two rows of as many digits with the same value are the same. -/
theorem eq_of_horner_eq {b : Nat} {ds es : List Nat} (hl : ds.length = es.length)
    (hd : ∀ d ∈ ds, d < b) (he : ∀ e ∈ es, e < b) (h : horner b ds = horner b es) : ds = es := by
  induction ds generalizing es with
  | nil => exact (List.length_eq_zero_iff.1 hl.symm).symm
  | cons d ds ih =>
    obtain _ | ⟨e, es⟩ := es
    · cases hl
    obtain ⟨-, hds⟩ := List.forall_mem_cons.1 hd
    obtain ⟨-, hes⟩ := List.forall_mem_cons.1 he
    have hl : ds.length = es.length := Nat.succ.inj hl
    have hltd := horner_lt hds
    have hlte := horner_lt hes
    rw [horner_cons, horner_cons, hl] at h
    rw [hl] at hltd
    -- the first digit is the quotient by the weight of the others, and these are the remainder
    have hpos : 0 < b ^ es.length := Nat.zero_lt_of_lt hltd
    rw [Nat.add_comm, Nat.add_comm (e * _), Nat.mul_comm, Nat.mul_comm e] at h
    have hd := (Nat.div_mod_unique (d := d) hpos).2 ⟨rfl, hltd⟩
    have he := (Nat.div_mod_unique hpos).2 ⟨h.symm, hlte⟩
    rw [hd.1.symm.trans he.1, ih hl hds hes (hd.2.symm.trans he.2)]

/-- **Digits that do not begin with a zero are the numeral of their number.** -/
theorem digits_horner {d : Nat} {ds : List Nat} (h0 : d ≠ 0) (h : ∀ c ∈ d :: ds, c < 10) :
    digits 10 (horner 10 (d :: ds)) = d :: ds := by
  have hlt := horner_lt h
  have hle := pow_le_horner_cons (b := 10) h0 ds
  have hnum := lt_pow_decimalLength (horner 10 (d :: ds))
  have hlow : ds.length < decimalLength (horner 10 (d :: ds)) :=
    (Nat.pow_lt_pow_iff_right (by decide)).1 (Nat.lt_of_le_of_lt hle hnum)
  have hhigh := decimalLength_le (Nat.succ_pos ds.length) hlt
  exact eq_of_horner_eq (Nat.le_antisymm hhigh hlow) (fun _ hc => lt_ten_of_mem_digits hc) h
    (horner_digits 10 _)

/-! ## Zeros behind

Zeros behind a numeral multiply its number, and the result is a numeral again since it begins with
the same digit.  Only zero has to be looked at by itself. -/

theorem decimal_mul_pow {n : Nat} (hn : 0 < n) (k : Nat) :
    decimal (n * 10 ^ k) = decimal n ++ Text.fill '0' k := by
  obtain ⟨d, ds, hds, h0⟩ := exists_digits_eq_cons hn
  have hvalue : horner 10 (d :: (ds ++ List.replicate k 0)) = n * 10 ^ k := by
    have hzeros : horner 10 (List.replicate k 0) = 0 := by
      rw [← List.append_nil (List.replicate k 0), horner_zeros_append]
      rfl
    rw [← List.cons_append, ← hds, horner_append, horner_digits, List.length_replicate, hzeros,
      Nat.add_zero]
  have hlt : ∀ c ∈ d :: (ds ++ List.replicate k 0), c < 10 := by
    intro c hc
    rw [← List.cons_append, ← hds, List.mem_append] at hc
    rcases hc with hc | hc
    · exact lt_ten_of_mem_digits hc
    · rw [List.eq_of_mem_replicate hc]
      decide
  have hdigits : digits 10 (n * 10 ^ k) = digits 10 n ++ List.replicate k 0 := by
    rw [← hvalue, digits_horner h0 hlt, hds, List.cons_append]
  rw [decimal, decimal, text, text, hdigits, List.map_append, List.map_replicate]
  rfl

/-- **The digits of a number times a power of ten**, in a wider numeral. -/
theorem padZeros_decimal_mul_pow {width : Nat} (hw : 0 < width) (n k : Nat) :
    padZeros (width + k) (decimal (n * 10 ^ k)) =
      padZeros width (decimal n) ++ Text.fill '0' k := by
  rcases Nat.eq_zero_or_pos n with rfl | hn
  · have h0 : decimal 0 = ['0'] := text_zero (by decide)
    have hall (w : Nat) (hw : 0 < w) : padZeros w ['0'] = List.replicate w '0' := by
      obtain ⟨v, rfl⟩ := Nat.exists_eq_add_of_le' hw
      exact List.replicate_succ'.symm
    rw [Nat.zero_mul, h0, hall _ (Nat.add_pos_left hw k), hall _ hw, Text.fill,
      List.replicate_append_replicate]
  · have hlength : (decimal n ++ Text.fill '0' k).length = (decimal n).length + k := by
      rw [List.length_append, Text.fill, List.length_replicate]
    rw [decimal_mul_pow hn, padZeros_eq, padZeros_eq, hlength, Nat.add_sub_add_right,
      List.append_assoc]

end Numeral
end Stencil
