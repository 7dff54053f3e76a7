import Mathlib.Algebra.Group.Int.Defs
import Stencil.Coercion.Text
import Stencil.Proofs.Coercion.Literal
import Stencil.Proofs.Fallible
import Stencil.Proofs.Format.Parts

/-!
# Integers are read back

What is printed for an integer is, between spaces, its sign or the marker of its base, zeros, and
its numeral (`Directive.IntegerLayout`).  The zeros are counted: those that the precision asks for
and those that fill up the width, and no others.

Read as an integer, such an output is the integer again, in base ten, and its magnitude, in a base
that has a marker with a letter (`Directive.integer_read_back`).

The layout is stated in full, since a numeral that could be read would still be wrong with a zero
too many.  Octal numerals are set apart: their marker is a zero, which cannot be told from the zeros
of the precision, and without a marker no base but ten can be read at all.
-/

set_option autoImplicit false

namespace Stencil
namespace Directive

/-! ## The layout

An integer without a width is a lead and a numeral behind zeros.  The width then adds either spaces
at one end or more zeros at the same place, so in all cases there is one run of zeros, and it is
counted. -/

/-- The numeral of a magnitude. -/
def numeral (d : Directive) (base : Nat) (n : Int) : Text := d.inCase (Numeral.text base n.natAbs)

/-- The zeros that the precision asks for in front of a numeral. -/
def precisionZeros (o : Operands) (numeral : Text) : Nat :=
  (precisionOf o).elim 0 Int.toNat - numeral.length

/-- The zeros that fill up an output to the width, where the flags ask for zeros. -/
def fillZeros (d : Directive) (o : Operands) (u : Text) : Nat :=
  if .zero ∈ d.flags ∧ .left ∉ d.flags then (widthOf o).elim 0 Int.toNat - u.length else 0

/-- The sign of an integer in base ten; in another base the marker, where it is asked for and the
integer is not zero. -/
def signOrMarker (d : Directive) (base : Nat) (n : Int) : Text :=
  if base = 10 then d.sign (n < 0)
  else if .alternate ∈ d.flags ∧ n ≠ 0 then d.inCase (baseMarker base)
  else []

/-- An integer as it is printed.  Its numeral has no zero in front, but zero is a single one. -/
def IntegerLayout (d : Directive) (o : Operands) (base : Nat) (n : Int) (t : Text) : Prop :=
  let lead := d.signOrMarker base n
  let numeral := d.numeral base n
  let zeros := precisionZeros o numeral
  let filled := d.fillZeros o (lead ++ Text.fill '0' zeros ++ numeral)
  (∃ before after, t = Text.fill ' ' before ++ lead ++ Text.fill '0' (zeros + filled) ++ numeral ++
    Text.fill ' ' after) ∧
    (n = 0 → numeral = ['0']) ∧ (n ≠ 0 → numeral.head? ≠ some '0')

variable {d : Directive} {o : Operands} {base : Nat}

/-- The letter case is changed character by character. -/
@[simp] theorem inCase_append (d : Directive) (s t : Text) :
    d.inCase (s ++ t) = d.inCase s ++ d.inCase t := by
  simp only [inCase]
  split
  · exact List.map_append
  · rfl

/-- Zeros have no case. -/
@[simp] theorem inCase_fill_zero (d : Directive) (k : Nat) :
    d.inCase (Text.fill '0' k) = Text.fill '0' k :=
  inCase_eq_self fun c hc => by rw [List.eq_of_mem_replicate hc]; rfl

theorem inCase_padZeros (d : Directive) (width : Nat) (s : Text) :
    d.inCase (Numeral.padZeros width s) =
      Text.fill '0' (width - (d.inCase s).length) ++ d.inCase s := by
  rw [Numeral.padZeros, inCase_append, inCase_fill_zero, length_inCase]

/-- Filling up adds spaces at one end, or zeros after the lead. -/
theorem exists_fillUp (w : Nat) (left zero : Bool) (lead : Text) (zeros : Nat) (numeral : Text) :
    ∃ before after, fillUp w left zero lead (Text.fill '0' zeros ++ numeral) =
      Text.fill ' ' before ++ lead ++
        Text.fill '0' (zeros + if !left && zero then
          w - (lead ++ Text.fill '0' zeros ++ numeral).length else 0) ++ numeral ++
            Text.fill ' ' after := by
  let missing := w - (lead ++ (Text.fill '0' zeros ++ numeral)).length
  cases left with
  | true => exact ⟨0, missing, by simp [fillUp, Text.fill, missing]⟩
  | false =>
    cases zero with
    | true =>
      refine ⟨0, 0, ?_⟩
      rw [Nat.add_comm zeros]
      simp [fillUp, Text.fill, ← List.replicate_append_replicate]
    | false => exact ⟨missing, 0, by simp [fillUp, Text.fill, missing]⟩

/-- The zeros that the field fills in are those that the flags and the width ask for. -/
theorem fillZeros_eq (d : Directive) (o : Operands) (u : Text) :
    (if !d.fillsAfter o && (d.zero && !d.fillsAfter o && true) then
      (widthOf o).elim 0 Int.natAbs - u.length else 0) = d.fillZeros o u := by
  rw [fillZeros]
  by_cases hflags : .zero ∈ d.flags ∧ .left ∉ d.flags
  · have hz : d.zero = true := by simp [zero, left, hflags]
    have hl : d.left = false := by simp [left, hflags]
    rw [if_pos hflags, hz, fillsAfter, hl]
    cases widthOf o with
    | none => simp
    | some w =>
      by_cases hw : w < 0
      · simp [hw, Int.toNat_of_nonpos (Int.le_of_lt hw)]
      · have habs : w.natAbs = w.toNat := by omega
        simp [hw, habs]
  · have hz : d.zero = false := by
      rw [zero, left, Bool.and_eq_false_iff]
      by_cases hzero : .zero ∈ d.flags
      · exact .inr (by simpa [hzero] using hflags)
      · exact .inl (by simpa using hzero)
    rw [if_neg hflags, hz]
    simp

/-- What a precision that is not too large lays out. -/
theorem parts_int [Nesting] (hf : d.conversion.family = .integer base) (hb : base ≠ 8)
    (hp : ∀ p, precisionOf o = some p → p < 2 ^ 63) (n : Int) :
    d.parts (precisionOf o) (.int n) = .ok ⟨d.signOrMarker base n,
      Text.fill '0' (precisionZeros o (d.numeral base n)) ++ d.numeral base n, true⟩ := by
  have hlead : ∀ digits, d.inCase (d.integerLead base n digits) = d.signOrMarker base n := by
    intro digits
    rw [integerLead, signOrMarker]
    by_cases hten : base = 10
    · rw [if_pos hten, if_pos hten, inCase_sign]
    · rw [if_neg hten, if_neg hten]
      by_cases ha : .alternate ∈ d.flags ∧ n ≠ 0
      · rw [if_pos ha, if_pos (by simp [alternate, ha, hb])]
      · rw [if_neg ha, if_neg (by simpa [alternate, hb] using ha), inCase_nil]
  rw [parts, hf]
  show (integerDigits base (precisionOf o) n.natAbs >>= _) = _
  rcases integerDigits_cases base (precisionOf o) n.natAbs with ⟨-, p, h, hmax⟩ | h
  · exact absurd (hp p h) (Int.not_lt.2 hmax)
  · rw [h]
    show Except.ok (Parts.mk (d.inCase (d.integerLead base n _)) (d.inCase _) true) = _
    rw [hlead, inCase_padZeros]
    rfl

theorem numeral_zero (d : Directive) (hb : 2 ≤ base) : d.numeral base 0 = ['0'] := by
  rw [numeral, Int.natAbs_zero, Numeral.text_zero hb]
  exact d.inCase_fill_zero 1

/-- Only the numeral of zero begins with a zero. -/
theorem head?_numeral_ne_zero (d : Directive) (hb : 2 ≤ base) (hb' : base ≤ 16) {n : Int}
    (hn : n ≠ 0) : (d.numeral base n).head? ≠ some '0' := by
  have hall : ∀ x < 16, (Nat.digitChar x).toUpper = '0' → Nat.digitChar x = '0' := by decide
  intro h
  obtain ⟨c, hc, hupper⟩ := head?_inCase h
  obtain ⟨x, hx, rfl⟩ := Numeral.exists_digit_of_mem_text hb (List.mem_of_head? hc)
  have hzero : Nat.digitChar x = '0' :=
    hupper.elim Eq.symm fun h => hall x (by omega) h.symm
  rw [hzero] at hc
  exact Numeral.head?_text_ne_zero hb hb' (Int.natAbs_pos.2 hn) hc

/-! ## Reading

A text is stripped of its blanks and then read as a literal.  Neither the letter case nor zeros in
front change the value of a numeral, and the marker or the sign in front of it says what it is read
as. -/

/-- Zeros and the letter case do not change the value of a numeral. -/
theorem baseValue?_inCase (d : Directive) (hb : 2 ≤ base) (hb' : base ≤ 16) (k m : Nat) :
    Numeral.baseValue? base (d.inCase (Text.fill '0' k ++ Numeral.text base m)) = some m := by
  rw [inCase]
  split
  · exact Numeral.baseValue?_upper_zeros_append hb hb' k m
  · exact Numeral.baseValue?_zeros_append hb hb' k m

theorem mem_literalChars_of_inCase {s : Text} (h : ∀ c ∈ s, c ∈ "0123456789abcdefx".toList)
    {c : Char} (hc : c ∈ d.inCase s) : c ∈ Text.literalChars := by
  have hall : ∀ c ∈ "0123456789abcdefx".toList,
      c ∈ Text.literalChars ∧ c.toUpper ∈ Text.literalChars :=
    List.all_iff_forall_prop.1 (by decide)
  rw [inCase] at hc
  split at hc
  · obtain ⟨b, hb, rfl⟩ := List.mem_map.1 hc
    exact (hall b (h b hb)).2
  · exact (hall c (h c hc)).1

/-- A decimal numeral is the same in either letter case. -/
@[simp] theorem numeral_ten (d : Directive) (n : Int) : d.numeral 10 n = Numeral.text 10 n.natAbs :=
  inCase_eq_self fun c hc => toUpper_of_isDigit ((Json.isDigits_decimal n.natAbs).2 c hc)

/-- A sign and a decimal numeral are read between spaces. -/
theorem toInteger?_sign {sign : Text} (hs : sign ∈ signs) (k m before after : Nat) :
    Text.toInteger? (Text.fill ' ' before ++ (sign ++ (Text.fill '0' k ++ Numeral.text 10 m)) ++
      Text.fill ' ' after) = some (Numeral.signed (decide (sign = ['-'])) m) := by
  have hlit : ∀ s ∈ [[], ['-'], ['+']], ∀ c ∈ s ++ (Text.fill '0' k ++ Numeral.text 10 m),
      c ∈ Text.literalChars := by
    intro s hs c hc
    have hall : ∀ s ∈ [[], ['-'], ['+']], (s ++ "0123456789".toList).all
        fun c => c ∈ Text.literalChars := by decide
    refine List.all_iff_forall_prop.1 (hall s hs) c (List.mem_append.2 ?_)
    exact (List.mem_append.1 hc).imp_right Numeral.isDigit_of_mem_zeros_append
  by_cases hspace : sign = [' ']
  · -- a space for a sign is one more blank
    subst hspace
    have h := Text.toInteger?_of_literal (hlit [] (by simp))
      (Numeral.literal?_sign (by simp) k m) (before + 1) after
    rw [Text.fill, List.replicate_succ', List.append_assoc _ [' ']] at h
    exact h
  · have hmem : sign ∈ [[], ['-'], ['+']] := by simpa [signs, hspace] using hs
    exact Text.toInteger?_of_literal (hlit sign hmem) (Numeral.literal?_sign hmem k m) before after

/-- A minus is printed for negative numbers only, whatever the flags ask for. -/
theorem sign_eq_minus_iff (d : Directive) (negative : Bool) :
    d.sign negative = ['-'] ↔ negative = true := by
  rw [sign]
  cases negative with
  | true => simp
  | false =>
    simp only [Bool.false_eq_true, if_false, iff_false]
    split
    · decide
    · split <;> decide

/-- A numeral with the marker of its base is read between spaces. -/
theorem toInteger?_marker (d : Directive) (hb : base = 16 ∨ base = 2) (k m before after : Nat) :
    Text.toInteger? (Text.fill ' ' before ++
      d.inCase (baseMarker base ++ (Text.fill '0' k ++ Numeral.text base m)) ++
        Text.fill ' ' after) = some (m : Int) := by
  refine Text.toInteger?_of_literal (fun c hc => mem_literalChars_of_inCase ?_ hc) ?_ before after
  · intro c hc
    have hall : ∀ x < 16, Nat.digitChar x ∈ "0123456789abcdefx".toList := by decide
    rcases List.mem_append.1 hc with hc | hc
    · have hmarker : ∀ c ∈ baseMarker 16 ++ baseMarker 2, c ∈ "0123456789abcdefx".toList :=
        List.all_iff_forall_prop.1 (by decide)
      refine hmarker c (List.mem_append.2 ?_)
      rcases hb with rfl | rfl
      · exact .inl hc
      · exact .inr hc
    · rcases List.mem_append.1 hc with hc | hc
      · rw [List.eq_of_mem_replicate hc]
        decide
      · obtain ⟨x, hx, rfl⟩ := Numeral.exists_digit_of_mem_text (by omega) hc
        exact hall x (by omega)
  · have hread : Numeral.baseValue? base (d.inCase (Text.fill '0' k ++ Numeral.text base m)) =
        some m := d.baseValue?_inCase (by omega) (by omega) k m
    rw [inCase_append]
    generalize d.inCase (Text.fill '0' k ++ Numeral.text base m) = s at hread ⊢
    rw [inCase]
    rcases hb with rfl | rfl <;> split <;> exact Numeral.literal?_marker (by simp) hread

/-- What is laid out between spaces is read: in base ten with the sign, with a marker without. -/
theorem toInteger?_layout (hb : base = 10 ∨ (base = 16 ∨ base = 2) ∧ .alternate ∈ d.flags) (n : Int)
    (k before after : Nat) :
    Text.toInteger? (Text.fill ' ' before ++ d.signOrMarker base n ++ Text.fill '0' k ++
      d.numeral base n ++ Text.fill ' ' after) = some (if base = 10 then n else n.natAbs) := by
  rw [List.append_assoc _ _ (d.numeral base n), List.append_assoc _ (d.signOrMarker base n)]
  by_cases hten : base = 10
  · subst hten
    rw [signOrMarker, if_pos rfl, numeral_ten, toInteger?_sign (d.sign_mem_signs _), if_pos rfl]
    have hsign : decide (d.sign (n < 0) = ['-']) = decide (n < 0) :=
      decide_eq_decide.2 ((d.sign_eq_minus_iff _).trans decide_eq_true_iff)
    rw [hsign, Numeral.signed_natAbs]
  · obtain ⟨hb, ha⟩ := hb.resolve_left hten
    rw [signOrMarker, if_neg hten, if_neg hten]
    by_cases hn : n = 0
    · -- zero has no marker, so it is read as a decimal numeral
      subst hn
      rw [if_neg (by simp), d.numeral_zero (by omega), ← Numeral.text_zero (show 2 ≤ 10 by decide)]
      exact toInteger?_sign (by simp [signs]) k 0 before after
    · rw [if_pos ⟨ha, hn⟩, ← toInteger?_marker d hb k n.natAbs before after, inCase_append,
        inCase_append, inCase_fill_zero, numeral]

/-- **Printed integers are read back.**  In base ten the integer itself is read, and where its
output has a marker with a letter, its magnitude. -/
theorem integer_read_back [Nesting] (d : Directive) (o : Operands) (n : Int) (base : Nat)
    (hf : d.conversion.family = .integer base) (hv : o.value = .int n)
    (hb : base = 10 ∨ (base = 16 ∨ base = 2) ∧ .alternate ∈ d.flags)
    (hw : ∀ w, o.width.bind SizeOperand.resolve = some w → w.natAbs < 2 ^ 63)
    (hp : ∀ p, o.precision.bind SizeOperand.resolve = some p → p < 2 ^ 63) :
    ∃ t, d.format o = .ok t ∧ d.IntegerLayout o base n t ∧
      (Value.text t).toInteger = .ok (.good (if base = 10 then n else n.natAbs)) := by
  have hprecision : ∀ p, precisionOf o = some p → p < 2 ^ 63 := fun p h =>
    hp p (Option.eq_some_of_filter_eq_some h)
  have hbase : base ≠ 8 ∧ 2 ≤ base ∧ base ≤ 16 := by omega
  obtain ⟨before, after, ht⟩ := exists_fillUp ((widthOf o).elim 0 Int.natAbs) (d.fillsAfter o)
    (d.zero && !d.fillsAfter o && true) (d.signOrMarker base n)
    (precisionZeros o (d.numeral base n)) (d.numeral base n)
  rw [fillZeros_eq] at ht
  refine ⟨_, by rw [format_eq_fillUp d hw, hv, parts_int hf hbase.1 hprecision]; rfl, ?_, ?_⟩
  · refine ⟨⟨before, after, ht⟩, ?_, d.head?_numeral_ne_zero hbase.2.1 hbase.2.2⟩
    rintro rfl
    exact d.numeral_zero hbase.2.1
  · rw [ht, Value.toInteger, toInteger?_layout hb]
    rfl

/-- Zeros up to the precision and zeros up to the width. -/
theorem integer_read_back_marker :
    let d : Directive := ⟨"%#012.4X".toList, .hexUpper, none, [.alternate, .zero],
      some (.literal 12), some (.literal 4), none⟩
    let o : Operands := ⟨some (.literal 12), some (.literal 4), .int (-255)⟩
    d.format o = .ok "0X00000000FF".toList ∧ d.IntegerLayout o 16 (-255) "0X00000000FF".toList ∧
      (Value.text "0X00000000FF".toList).toInteger = .ok (.good 255) := by
  intro d o
  have hformat : d.format o = .ok "0X00000000FF".toList := rfl
  have hsize : ∀ w, some w = some (12 : Int) → w.natAbs < 2 ^ 63 := by
    rintro w ⟨⟩
    decide
  have hprecision : ∀ p, some p = some (4 : Int) → p < 2 ^ 63 := by
    rintro p ⟨⟩
    decide
  obtain ⟨t, ht, hlayout, hread⟩ := integer_read_back d o (-255) 16 rfl rfl
    (.inr ⟨.inl rfl, List.mem_cons_self⟩) (fun w h => hsize w h.symm) fun p h => hprecision p h.symm
  obtain rfl : "0X00000000FF".toList = t := Except.ok.inj (hformat.symm.trans ht)
  exact ⟨hformat, hlayout, hread⟩

end Directive
end Stencil
