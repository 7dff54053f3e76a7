import Mathlib.Algebra.Group.Int.Defs
import Stencil.Proofs.Coercion.Written
import Stencil.Proofs.Number.Nearest
import Stencil.Proofs.Numeral.Width
import Stencil.Proofs.Text.Utf8

/-!
# Integers read as doubles

An integer is read as the nearest double, and as an infinity where it is too large, whether it is
given as an integer, as a literal in a text or as a decimal.  Fractions and objects that stand for
an integer are read so as well, but only while the double is finite: from `infinityFrom` on, these
two are not read at all, and the default takes their place (`Value.toFloat_of_integer`).
-/

set_option autoImplicit false

namespace Stencil

open Text

/-! ## Literals

An integer can be written in several bases.  What is read from a literal is the integer first, and
then its double. -/

namespace Text

/-- The literal of an integer to the base sixteen. -/
def hexLiteral (n : Int) : Text :=
  (if n < 0 then ['-'] else []) ++ '0' :: 'x' :: Numeral.text 16 n.natAbs

theorem isSign_of_lt (n : Int) : IsSign (if n < 0 then ['-'] else []) (n < 0) := by
  split
  · rw [decide_eq_true ‹_›]
    exact .minus
  · rw [decide_eq_false ‹_›]
    exact .absent

theorem isLiteral_signedDecimal (n : Int) : IsLiteral (Numeral.signedDecimal n) n := by
  have hlit := IsLiteral.digits (isSign_of_lt n) (Numeral.isDigits_decimal n.natAbs)
  rw [Numeral.digitsValue_decimal, Numeral.signed_natAbs] at hlit
  rw [Numeral.signedDecimal]
  split at hlit
  · rwa [if_pos ‹_›]
  · rwa [if_neg ‹_›]

theorem isLiteral_hexLiteral (n : Int) : IsLiteral (hexLiteral n) n := by
  have hdigit : ∀ d < 16, Numeral.baseDigit? 16 (Nat.digitChar d) = some d := by decide
  have hdigits : (Numeral.text 16 n.natAbs).mapM (Numeral.baseDigit? 16) =
      some (Numeral.digits 16 n.natAbs) :=
    Numeral.mapM_map_eq_some fun d hd => hdigit d (Numeral.lt_of_mem_digits (by decide) hd)
  have hlit := IsLiteral.marked (c := 'x') (isSign_of_lt n) (by decide)
    (Numeral.text_ne_nil 16 n.natAbs) hdigits
  rwa [Numeral.horner_digits, Numeral.signed_natAbs] at hlit

theorem toFloat?_of_isLiteral {s : Text} {n : Int} (h : IsLiteral s n) :
    toFloat? s = some (Binary64.ofInt n) := by
  have hfilter : s.filter (· ≠ '_') = s :=
    List.filter_eq_self.2 fun c hc => decide_eq_true (h.isSolid c hc).2
  rw [toFloat?, trim_of_solid h.isSolid]
  simp only [List.isEmpty_iff, h.ne_nil, if_false, hfilter, Numeral.literal?_of_isLiteral h]

end Text

/-! ## Other numbers

A decimal or a fraction that is an integer is rounded to the same double as the integer, since there
is only one nearest. -/

namespace Binary64

/-- The least magnitude of an integer that is rounded to an infinity: halfway from the largest
double to the power of two after it. -/
def infinityFrom : Nat := 2 ^ 1024 - 2 ^ 970

theorem ofDecimal_ofInt (n : Int) : ofDecimal (n < 0) n.natAbs 0 = ofInt n := by
  rw [ofDecimal, ofInt]
  split
  · rename_i hn
    rw [hn, nearest, if_pos rfl]
  · rw [if_neg (by decide), if_neg (by omega)]
    show nearest _ ⟨n.natAbs * 1, 1 * 1⟩ = _
    rw [Nat.mul_one]

theorem ofFraction_intCast (n : Int) : Json.ofFraction n = ofInt n := by
  have hneg : ((n : Rat) < 0) = (n < 0) := propext Rat.intCast_neg_iff
  rw [Json.ofFraction, ofInt, Rat.num_intCast, Rat.den_intCast]
  simp only [hneg]

/-- An integer that is not rounded to a finite double is rounded to the infinity of its sign. -/
theorem ofInt_cases (n : Int) :
    n.natAbs < infinityFrom ∧ (ofInt n).isFinite ∨
      infinityFrom ≤ n.natAbs ∧ ofInt n = infinite (n < 0) := by
  rcases Nat.lt_or_ge n.natAbs infinityFrom with h | h
  · exact .inl ⟨h, (isFinite_ofInt_iff n).2 h⟩
  · exact .inr ⟨h, nearest_eq_infinite (mt (isFinite_ofInt_iff n).1 (Nat.not_lt.2 h))⟩

end Binary64

/-! ## The same double

What is left is what each reading does with an infinity.  Some take it as a number like any other,
and some take it as a failure. -/

namespace Value

open Binary64

/-- What a reading that gives up on infinities makes of an integer. -/
theorem ofOption_finite?_ofInt (n : Int) :
    Coerced.ofOption (Binary64.zero false) (finite? (ofInt n)) =
      if n.natAbs < infinityFrom then .good (ofInt n) else .fallback (.zero false) := by
  rcases ofInt_cases n with ⟨hlt, hfinite⟩ | ⟨hge, hinf⟩
  · rw [finite?, if_pos hfinite, if_pos hlt]
    rfl
  · rw [hinf, if_neg (Nat.not_lt.2 hge)]
    rfl

theorem toFloat_of_isLiteral {s : Text} {n : Int} (h : IsLiteral s n) :
    (text s).toFloat = .ok (.good (ofInt n)) := by
  rw [toFloat, toFloat?_of_isLiteral h]
  rfl

theorem toFloat_scientific_ofInt (n : Int) :
    (scientific (.finite (n < 0) n.natAbs 0)).toFloat = .ok (.good (ofInt n)) := by
  rw [toFloat, Scientific.toBinary64?, ofDecimal_ofInt]
  rfl

theorem toFloat_fraction_intCast (n : Int) : (fraction n).toFloat =
    .ok (if n.natAbs < infinityFrom then .good (ofInt n) else .fallback (.zero false)) := by
  rw [toFloat, ofFraction_intCast, ofOption_finite?_ofInt]

/-- An object that is not asked for a double itself gives that of its integer, if it is finite. -/
theorem toFloat_object_index (o : Foreign) (n : Int) :
    (object { o with index := some (.ok n), float := none }).toFloat =
      .ok (if n.natAbs < infinityFrom then .good (ofInt n) else .fallback (.zero false)) := by
  have hdouble : Foreign.toDouble { o with index := some (.ok n), float := none } =
      if (ofInt n).isFinite then .ok (ofInt n) else .error .numberTooLarge := rfl
  rw [toFloat, hdouble]
  rcases ofInt_cases n with ⟨hlt, hfinite⟩ | ⟨hge, hinf⟩
  · rw [if_pos hfinite, if_pos hlt, Coerced.guarded_ok]
  · rw [hinf, if_neg (Nat.not_lt.2 hge)]
    rfl

/-- **What an integer is read as does not depend on how it is given, while its double is finite.**
From there on, it is an infinity of its sign for an integer, its literals and its decimal, but the
default for its fraction and for an object that stands for it. -/
theorem toFloat_of_integer (n : Int) (o : Foreign) :
    (∀ v ∈ [int n, text (Numeral.signedDecimal n), text (hexLiteral n),
        scientific (.finite (n < 0) n.natAbs 0)], v.toFloat = .ok (.good (ofInt n))) ∧
    (∀ v ∈ [fraction n, object { o with index := some (.ok n), float := none }], v.toFloat =
      .ok (if n.natAbs < infinityFrom then .good (ofInt n) else .fallback (.zero false))) ∧
    (n.natAbs < infinityFrom ∧ (ofInt n).isFinite ∨
      infinityFrom ≤ n.natAbs ∧ ofInt n = infinite (n < 0)) := by
  refine ⟨?_, ?_, ofInt_cases n⟩
  · simp only [List.forall_mem_cons]
    exact ⟨rfl, toFloat_of_isLiteral (isLiteral_signedDecimal n),
      toFloat_of_isLiteral (isLiteral_hexLiteral n), toFloat_scientific_ofInt n, nofun⟩
  · simp only [List.forall_mem_cons]
    exact ⟨toFloat_fraction_intCast n, toFloat_object_index o n, nofun⟩

/-- A one with four hundred zeros is infinite as an integer, and zero as a fraction and as an
object. -/
theorem toFloat_of_integer_ne :
    let o : Foreign := .ofText ⟨['m'], ['A']⟩ ['a']
    (int (10 ^ 400)).toFloat.map Coerced.value = .ok (infinite false) ∧
      (fraction ((10 ^ 400 : Int) : Rat)).toFloat.map Coerced.value = .ok (Binary64.zero false) ∧
      (object { o with index := some (.ok (10 ^ 400)) }).toFloat.map Coerced.value =
        .ok (Binary64.zero false) := by
  intro o
  have hlarge : infinityFrom ≤ (10 ^ 400 : Int).natAbs := by decide +kernel
  have hpos : ¬ (10 ^ 400 : Int) < 0 := by decide +kernel
  generalize (10 ^ 400 : Int) = n at hlarge hpos ⊢
  refine ⟨?_, ?_, ?_⟩
  · have hinf := ((ofInt_cases n).resolve_left fun h => Nat.not_lt.2 hlarge h.1).2
    rw [decide_eq_false hpos] at hinf
    rw [toFloat, hinf]
    rfl
  · rw [toFloat_fraction_intCast, if_neg (Nat.not_lt.2 hlarge)]
    rfl
  · have hobject := toFloat_object_index o n
    rw [if_neg (Nat.not_lt.2 hlarge)] at hobject
    exact congrArg (Except.map Coerced.value) hobject

end Value
end Stencil
