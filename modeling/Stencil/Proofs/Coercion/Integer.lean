import Stencil.Proofs.Coercion.Written
import Stencil.Proofs.Number.Truncation
import Stencil.Proofs.Text.Utf8

/-!
# Numbers read as integers

A number is read as the integer next to it on the side of zero, whatever it is given as
(`Value.toInteger_of_gives`).  There are two kinds of giving.

* Integers, doubles, fractions, objects that stand for an integer, and literals in texts
  (`Value.GivesExactly`) are cut off exactly, however large they are.
* Decimals, and texts with a point or a power of ten (`Value.GivesDecimal`), are cut off exactly as
  long as their integer part has at most `maxDecimalDigits` digits.  Beyond that they are read as
  zero.  The limit is tested on the place of the first digit, not on the number itself, and a
  decimal text that is beyond the range of decimals altogether is beyond this limit, too
  (`Scientific.finite?_bind_toInteger?`).
-/

set_option autoImplicit false

namespace Stencil

open Text

/-! ## Decimals

The place of the first digit decides whether a decimal is cut off or counts as zero, before any
power of ten is worked out. -/

namespace Scientific

/-- The value of a finite decimal. -/
def value (negative : Bool) (c : ℕ) (e : ℤ) : ℚ := withSign negative (c * 10 ^ e)

/-- A decimal is cut off unless its integer part is too long, and then it counts as zero. -/
theorem toInteger?_finite (negative : Bool) (c : ℕ) (e : ℤ) :
    (finite negative c e).toInteger?.getD 0 =
      if 10 ^ maxDecimalDigits ≤ |value negative c e| then 0
      else towardZero (value negative c e) := by
  have hnonneg : (0 : ℚ) ≤ c * 10 ^ e := shifted_nonneg (by norm_num) c e
  have hcut : towardZero (value negative c e) = Numeral.signed negative (floor c e) :=
    towardZero_withSign negative hnonneg (floor_eq c e)
  rw [value, abs_withSign negative hnonneg, ← value, hcut, toInteger?]
  rcases Nat.eq_zero_or_pos c with rfl | hc
  · -- zero has a first digit as well, and its place may be anywhere
    have hfloor : floor 0 e = 0 := by
      have h := floor_eq 0 e
      rw [Nat.cast_zero, zero_mul, Int.floor_zero] at h
      exact (Int.natCast_eq_zero.1 h.symm)
    have hsigned : Numeral.signed negative 0 = 0 := by cases negative <;> rfl
    rw [hfloor, hsigned]
    split <;> simp
  · have hlimit := le_place_iff hc e maxDecimalDigits
    by_cases hp : (maxDecimalDigits : ℤ) ≤ place c e
    · rw [if_pos hp, if_pos (hlimit.1 hp)]
      rfl
    · rw [if_neg hp, if_neg (mt hlimit.2 hp)]
      rfl

/-- Decimals whose first digit stands too far in front are refused by the limit as well. -/
theorem finite?_bind_toInteger? {negative : Bool} {c : ℕ} {e : ℤ} (h : minExponent ≤ e) :
    (finite? negative c e).bind toInteger? = (finite negative c e).toInteger? := by
  have hlimit : (maxDecimalDigits : ℤ) ≤ maxPlace := by decide
  rw [finite?, if_neg (not_lt.2 h)]
  split
  · rename_i hplace
    rw [toInteger?, if_pos (by omega)]
    rfl
  · rfl

end Scientific

/-! ## Texts

A text is read as a literal if it is one, and otherwise as a decimal.  Both leave nothing of the
text unread. -/

namespace Text

theorem toInteger?_of_isLiteral {s : Text} {n : ℤ} (h : IsLiteral s n) : toInteger? s = some n := by
  rw [toInteger?, plain_of_solid h.isSolid]
  simp only [List.isEmpty_iff, h.ne_nil, if_false, Numeral.literal?_of_isLiteral h]

theorem toInteger?_of_isDecimal {s : Text} {negative : Bool} {c k : ℕ} {e : ℤ}
    (h : IsDecimal s negative c k e) (hrange : Scientific.minExponent ≤ e - k) :
    toInteger? s = (Scientific.finite negative c (e - k)).toInteger? := by
  rw [toInteger?, plain_of_solid h.isSolid]
  simp only [List.isEmpty_iff, h.ne_nil, if_false, Numeral.literal?_eq_none_of_isDecimal h,
    Scientific.read?_of_isDecimal h, Scientific.finite?_bind_toInteger? hrange]

end Text

/-! ## Values

There is one constructor for each kind of value that gives a number, and the proofs go through them.
-/

namespace Value

/-- A value that holds a text: as it is, or as its UTF-8 bytes. -/
inductive Holds : Value → Text → Prop where
  | text (s : Text) : Holds (.text s) s
  | bytes (s : Text) : Holds (.bytes false (Utf8.encode s)) s

/-- A value that gives a number as an integer, a truth value, a finite double, a fraction, an object
that stands for an integer, or a literal. -/
inductive GivesExactly : Value → ℚ → Prop where
  | int (n : ℤ) : GivesExactly (.int n) n
  | bool (b : Bool) : GivesExactly (.bool b) b.toInt
  | float (negative : Bool) {m : ℕ} {e : ℤ} (h : IsDouble m e) :
    GivesExactly (.float (.finite negative m e h)) (withSign negative (m * 2 ^ e))
  | fraction (x : ℚ) : GivesExactly (.fraction x) x
  | object {o : Foreign} {n : ℤ} (h : o.index = some (.ok n)) : GivesExactly (.object o) n
  | literal {v : Value} {s : Text} {n : ℤ} (hv : Holds v s) (h : IsLiteral s n) : GivesExactly v n

/-- A value that gives a number as a decimal, or as a text with a point or a power of ten.  The
exponent of a text, and the number of digits behind its point, are such that a decimal can hold the
last digit; no memory has room for a text with more digits. -/
inductive GivesDecimal : Value → ℚ → Prop where
  | scientific (negative : Bool) (c : ℕ) (e : ℤ) :
    GivesDecimal (.scientific (.finite negative c e)) (Scientific.value negative c e)
  | text {v : Value} {s : Text} {negative : Bool} {c k : ℕ} {e : ℤ} (hv : Holds v s)
    (h : IsDecimal s negative c k e) (hk : k < 10 ^ 18) (he : e.natAbs < 10 ^ 17) :
    GivesDecimal v (Scientific.value negative c (e - k))

variable {v : Value} {x : ℚ}

theorem Holds.toInteger {s : Text} (h : Holds v s) :
    v.toInteger = .ok (.ofOption 0 s.toInteger?) := by
  cases h with
  | text => rfl
  | bytes =>
    show Except.ok (Coerced.ofOption 0 (Utf8.decode (Utf8.encode s)).toInteger?) = _
    rw [Utf8.decode_encode]

theorem GivesExactly.toInteger (h : GivesExactly v x) :
    v.toInteger = .ok (.good (towardZero x)) := by
  cases h with
  | int n => rw [towardZero_intCast]; rfl
  | bool b => rw [towardZero_intCast]; rfl
  | @float negative m e hd =>
    have hnonneg : (0 : ℚ) ≤ m * 2 ^ e := shifted_nonneg (by norm_num) m e
    rw [towardZero_withSign negative hnonneg (Binary64.floor_magnitude m e)]
    rfl
  | fraction x => rw [← tdiv_eq_towardZero]; rfl
  | @object o n h =>
    have hint : o.toInt = .ok n := by
      rw [Foreign.toInt, h]
      rfl
    rw [towardZero_intCast, Value.toInteger, foreignInteger, hint]
    rfl
  | literal hv h => rw [hv.toInteger, toInteger?_of_isLiteral h, towardZero_intCast]; rfl

@[simp] theorem value_ofOption (o : Option ℤ) : (Coerced.ofOption 0 o).value = o.getD 0 := by
  cases o <;> rfl

theorem GivesDecimal.toInteger (h : GivesDecimal v x) :
    v.toInteger.map Coerced.value =
      .ok (if 10 ^ maxDecimalDigits ≤ |x| then 0 else towardZero x) := by
  cases h with
  | scientific negative c e =>
    show Except.ok (Coerced.ofOption 0 (Scientific.finite negative c e).toInteger?).value = _
    rw [value_ofOption, Scientific.toInteger?_finite]
  | @text _ s negative c k e hv h hk he =>
    have hrange : Scientific.minExponent ≤ e - k := by
      rw [Scientific.minExponent]
      omega
    rw [hv.toInteger]
    show Except.ok (Coerced.ofOption 0 _).value = _
    rw [value_ofOption, toInteger?_of_isDecimal h hrange, Scientific.toInteger?_finite]

/-- **A number is cut off towards zero, whatever it is given as.**  Only a decimal whose integer
part has more than `maxDecimalDigits` digits is read as zero instead, so all ways of giving an
integer with at most that many digits give this integer. -/
theorem toInteger_of_gives :
    (∀ v x, GivesExactly v x → v.toInteger = .ok (.good (towardZero x))) ∧
    (∀ v x, GivesDecimal v x → v.toInteger.map Coerced.value =
      .ok (if 10 ^ maxDecimalDigits ≤ |x| then 0 else towardZero x)) ∧
    ∀ v (n : ℤ), GivesExactly v n ∨ GivesDecimal v n → |n| < 10 ^ maxDecimalDigits →
      v.toInteger.map Coerced.value = .ok n := by
  refine ⟨fun v x h => h.toInteger, fun v x h => h.toInteger, fun v n h hn => ?_⟩
  rcases h with h | h
  · rw [h.toInteger, towardZero_intCast]
    rfl
  · have hn' : ¬ (10 : ℚ) ^ maxDecimalDigits ≤ |(n : ℚ)| := by
      rw [not_le]
      exact_mod_cast hn
    rw [h.toInteger, if_neg hn', towardZero_intCast]

/-- A negative literal as bytes, a text with a point and a power, and the smallest decimal that is
too long. -/
theorem toInteger_of_gives_mixed :
    (GivesExactly (.bytes false (Utf8.encode "-0xfF".toList)) ((-255 : ℤ) : ℚ) ∧
      (Value.bytes false (Utf8.encode "-0xfF".toList)).toInteger = .ok (.good (-255))) ∧
    (GivesDecimal (.text "-12.75e1".toList) (Scientific.value true 1275 (1 - (2 : ℕ))) ∧
      (Value.text "-12.75e1".toList).toInteger.map Coerced.value = .ok (-127)) ∧
    (GivesDecimal (.scientific (.finite false 1 100000)) (Scientific.value false 1 100000) ∧
      (Value.scientific (.finite false 1 100000)).toInteger.map Coerced.value = .ok 0) := by
  have hliteral : IsLiteral (['-'] ++ '0' :: 'x' :: ['f', 'F'])
      (Numeral.signed true (Numeral.horner 16 [15, 15])) :=
    .marked .minus (by decide) (by decide) (by decide)
  have hdecimal : IsDecimal (['-'] ++ (['1', '2'] ++ ('.' :: ['7', '5'] ++ 'e' :: ([] ++ ['1']))))
      true (digitsValue (['1', '2'] ++ ['7', '5'])) 2 (Numeral.signed false (digitsValue ['1'])) :=
    .parts .minus (List.all_iff_forall_prop.1 (by decide))
      (.point (List.all_iff_forall_prop.1 (by decide)))
      (.power (.inl rfl) .absent ⟨by decide, List.all_iff_forall_prop.1 (by decide)⟩)
      (by decide) (by decide)
  have hbytes : GivesExactly (.bytes false (Utf8.encode "-0xfF".toList)) ((-255 : ℤ) : ℚ) :=
    .literal (.bytes _) hliteral
  have htext : GivesDecimal (.text "-12.75e1".toList) (Scientific.value true 1275 (1 - (2 : ℕ))) :=
    .text (.text _) hdecimal (by decide) (by decide)
  have hlong : GivesDecimal (.scientific (.finite false 1 100000))
      (Scientific.value false 1 100000) := .scientific false 1 100000
  obtain ⟨hexact, hcut, -⟩ := toInteger_of_gives
  refine ⟨⟨hbytes, ?_⟩, ⟨htext, ?_⟩, hlong, ?_⟩
  · rw [hexact _ _ hbytes, towardZero_intCast]
  · rw [hcut _ _ htext, ← Scientific.toInteger?_finite]
    decide +kernel
  · rw [hcut _ _ hlong, ← Scientific.toInteger?_finite]
    decide +kernel

end Value
end Stencil
