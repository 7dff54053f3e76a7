import Stencil.Format
import Stencil.Proofs.Json.Number

/-!
# The parts of an output

Every conversion prints a lead (a sign, the marker of a base, or nothing) and a body, and says
whether zeros may be filled in between.  `Directive.parts` is this much of a conversion, and
`Directive.formatValue_eq_parts` says that the rest is filling, in the same way for all of them.

The lead can be told from the body: the body of a number begins with a digit or with a letter
(`Directive.splitSign_sign_append`), never with a sign.

What a conversion prints depends on few things: the precision and the value decide the parts, and
the flags, the width and how long the parts are decide the fill.  Almost everything that is proved
about output starts from one of the two.
-/

set_option autoImplicit false

namespace Stencil
namespace Directive

/-! ## Parts

The cases of `Directive.parts` are those of the conversions, in the same order.  Zeros may not be
filled into what is no number, which is what the flag is for. -/

/-- What a conversion prints before anything is filled in, and whether zeros may be. -/
structure Parts where
  lead : Text
  body : Text
  zeros : Bool
  deriving DecidableEq, Repr

/-- The parts of an output with a precision. -/
def parts [Nesting] (d : Directive) (precision : Option Int) (v : Value) : Except Fault Parts :=
  match d.conversion.family with
  | .text => do
    let s := (← v.toText).value
    return ⟨[], (precision.elim s fun p => s.take p.toNat), true⟩
  | .integer base => do
    let n := (← v.toInteger).value
    let digits ← integerDigits base precision n.natAbs
    return ⟨d.inCase (d.integerLead base n digits), d.inCase digits, true⟩
  | .float style => do
    let x := (← v.toFloat).value
    let p := precision.getD defaultPrecision
    if maxPrecision < p then .error .precisionTooLarge
    else .ok ⟨d.sign x.isNegative, d.inCase (floatBody style d.alternate p.toNat x), x.isFinite⟩
  | .char => do return ⟨[], [(← v.toChar).value], false⟩
  | .truth => do return ⟨[], d.truthText (← v.toTruth).value, true⟩
  | .json => do return ⟨[], (← v.toJson).value, false⟩

/-- **A conversion is its parts, filled up.** -/
theorem formatValue_eq_parts [Nesting] (d : Directive) (f : Field) (v : Value) :
    d.formatValue f v = d.parts f.precision v >>= fun p =>
      fillTo f.width f.left (f.zero && p.zeros) p.lead p.body := by
  rw [formatValue, parts]
  -- each family coerces its value first, and both sides fail with it
  cases d.conversion.family with
  | text =>
    cases v.toText with
    | error e => rfl
    | ok s =>
      show formatText f s.value = fillTo f.width f.left (f.zero && true) [] _
      rw [Bool.and_true, formatText]
      cases f.precision <;> rfl
  | integer base =>
    cases v.toInteger with
    | error e => rfl
    | ok n =>
      show d.formatInteger f base n.value = (integerDigits base f.precision _ >>= _) >>= _
      rw [formatInteger]
      cases integerDigits base f.precision n.value.natAbs with
      | error e => rfl
      | ok digits =>
        show f.fill _ _ = fillTo f.width f.left (f.zero && true) _ _
        rw [Bool.and_true]
        rfl
  | float style =>
    cases v.toFloat with
    | error e => rfl
    | ok x =>
      show d.formatFloat f style x.value = (if _ then _ else _) >>= _
      rw [formatFloat]
      split <;> rfl
  | char =>
    cases v.toChar with
    | error e => rfl
    | ok c =>
      show fillTo f.width f.left false [] _ = fillTo f.width f.left (f.zero && false) [] _
      rw [Bool.and_false]
  | truth =>
    cases v.toTruth with
    | error e => rfl
    | ok b =>
      show f.fill [] _ = fillTo f.width f.left (f.zero && true) [] _
      rw [Bool.and_true]
      rfl
  | json =>
    cases v.toJson with
    | error e => rfl
    | ok s =>
      show fillTo f.width f.left false [] _ = fillTo f.width f.left (f.zero && false) [] _
      rw [Bool.and_false]

/-! ## Filling up

A width counts by its magnitude, and its sign asks for fill after the output.  All kinds of fill
make an output just as long as the width if it was shorter, and leave it alone if it was not. -/

/-- `lead ++ body`, filled up to a width. -/
def fillUp (w : Nat) (left zero : Bool) (lead body : Text) : Text :=
  let missing := w - (lead ++ body).length
  if left then lead ++ body ++ Text.fill ' ' missing
  else if zero then lead ++ Text.fill '0' missing ++ body
  else Text.fill ' ' missing ++ (lead ++ body)

theorem fillUp_of_le {w : Nat} {lead body : Text} (left zero : Bool)
    (h : w ≤ (lead ++ body).length) : fillUp w left zero lead body = lead ++ body := by
  rw [fillUp, Nat.sub_eq_zero_of_le h]
  cases left <;> cases zero <;> simp [Text.fill]

/-- A field is as wide as its width, or as what is in it. -/
@[simp] theorem length_fillUp (w : Nat) (left zero : Bool) (lead body : Text) :
    (fillUp w left zero lead body).length = max w (lead ++ body).length := by
  rw [fillUp]
  cases left <;> cases zero <;> simp [Text.fill] <;> omega

/-- A width that is not too large is filled up to. -/
theorem fillTo_eq_fillUp {width : Option Int} (hw : ∀ w, width = some w → w.natAbs < 2 ^ 63)
    (left zero : Bool) (lead body : Text) :
    fillTo (width.map fun w => (w.natAbs : Int)) left zero lead body =
      .ok (fillUp (width.elim 0 Int.natAbs) left zero lead body) := by
  cases width with
  | none => exact congrArg _ (fillUp_of_le left zero (Nat.zero_le _)).symm
  | some w =>
    have hmax := hw w rfl
    simp only [Option.map_some, Option.elim_some, fillTo]
    by_cases hl : w.natAbs ≤ (lead ++ body).length
    · rw [if_pos (by omega), fillUp_of_le left zero hl]
    · have hm : ¬maxFill ≤ (w.natAbs : Int) := by
        rw [maxFill]
        omega
      rw [if_neg (by omega), if_neg hm]
      simp only [fillUp, Int.toNat_natCast, List.append_assoc]

/-- The width that the operands set. -/
def widthOf (o : Operands) : Option Int := o.width.bind SizeOperand.resolve

/-- The precision that the operands set. -/
def precisionOf (o : Operands) : Option Int :=
  (o.precision.bind SizeOperand.resolve).filter (0 ≤ ·)

/-- Fill goes after the output: the flag or the sign of the width asks for it. -/
def fillsAfter (d : Directive) (o : Operands) : Bool := d.left || (widthOf o).any (· < 0)

/-- The output is what is printed without a width, filled up. -/
theorem format_eq_fillTo [Nesting] (d : Directive) (o : Operands) :
    d.format o = d.parts (precisionOf o) o.value >>= fun p =>
      fillTo ((widthOf o).map fun w => (w.natAbs : Int)) (d.fillsAfter o)
        (d.zero && !d.fillsAfter o && p.zeros) p.lead p.body :=
  d.formatValue_eq_parts (Field.ofOperands d o) o.value

/-- **The output is what is printed without a width, filled up** to a width that is not too
large. -/
theorem format_eq_fillUp [Nesting] (d : Directive) {o : Operands}
    (hw : ∀ w, widthOf o = some w → w.natAbs < 2 ^ 63) :
    d.format o = d.parts (precisionOf o) o.value >>= fun p =>
      .ok (fillUp ((widthOf o).elim 0 Int.natAbs) (d.fillsAfter o)
        (d.zero && !d.fillsAfter o && p.zeros) p.lead p.body) := by
  rw [format_eq_fillTo]
  exact congrArg _ (funext fun p => fillTo_eq_fillUp hw _ _ p.lead p.body)

/-- Without a width nothing is filled in. -/
theorem format_of_widthOf_eq_none [Nesting] (d : Directive) {o : Operands} (hw : widthOf o = none) :
    d.format o = d.parts (precisionOf o) o.value >>= fun p => .ok (p.lead ++ p.body) := by
  rw [format_eq_fillUp d (by rintro w h; rw [hw] at h; cases h), hw]
  exact congrArg _ (funext fun p => congrArg _ (fillUp_of_le _ _ (Nat.zero_le _)))

/-- What is printed without a width, the flags and the width decide the output. -/
theorem format_congr_parts [Nesting] {d d' : Directive} {o o' : Operands} (hl : d'.left = d.left)
    (hz : d'.zero = d.zero) (hw : widthOf o' = widthOf o)
    (hp : d'.parts (precisionOf o') o'.value = d.parts (precisionOf o) o.value) :
    d'.format o' = d.format o := by
  have hafter : d'.fillsAfter o' = d.fillsAfter o := by rw [fillsAfter, fillsAfter, hl, hw]
  rw [format_eq_fillTo, format_eq_fillTo, hp, hz, hw, hafter]

/-! ## Digits of integers

The precision of an integer only asks for more zeros, so it never takes a digit away. -/

/-- A precision sets the least number of digits, unless it is too large. -/
theorem integerDigits_cases (base : Nat) (precision : Option Int) (n : Nat) :
    (integerDigits base precision n = .error .sizeTooLarge ∧
        ∃ p, precision = some p ∧ maxFill ≤ p) ∨
      integerDigits base precision n =
        .ok (Numeral.padZeros (precision.elim 0 Int.toNat) (Numeral.text base n)) := by
  cases precision with
  | none =>
    refine .inr ?_
    show Except.ok (Numeral.text base n) = .ok (Numeral.padZeros 0 (Numeral.text base n))
    rw [Numeral.padZeros_eq, Nat.zero_sub]
    rfl
  | some p =>
    rw [integerDigits]
    by_cases hp : maxFill ≤ p
    · exact .inl ⟨if_pos hp, p, rfl, hp⟩
    · exact .inr (if_neg hp)

/-! ## Letter case

The upper case conversions change letters and nothing else.  Digits have no case, nor do signs. -/

@[simp] theorem inCase_nil (d : Directive) : d.inCase [] = [] := by
  rw [inCase]
  split <;> rfl

/-- What has no lower case letter stays as it is. -/
theorem inCase_eq_self {d : Directive} {s : Text} (h : ∀ c ∈ s, c.toUpper = c) :
    d.inCase s = s := by
  rw [inCase]
  split
  · exact (List.map_congr_left h).trans (List.map_id s)
  · rfl

/-- The letter case does not matter for digits. -/
theorem toUpper_of_isDigit {c : Char} (h : c.isDigit) : c.toUpper = c := by
  refine dif_neg ?_
  rintro ⟨hlow, -⟩
  have hhigh : c.toNat ≤ 57 := of_decide_eq_true (Bool.and_eq_true_iff.1 h).2
  have hlow : 97 ≤ c.toNat := hlow
  omega

@[simp] theorem length_inCase (d : Directive) (s : Text) : (d.inCase s).length = s.length := by
  rw [inCase]
  split
  · exact List.length_map _
  · rfl

theorem head?_inCase {d : Directive} {s : Text} {c : Char} (h : (d.inCase s).head? = some c) :
    ∃ b, s.head? = some b ∧ (c = b ∨ c = b.toUpper) := by
  rw [inCase] at h
  split at h
  · rw [Text.upper, List.head?_map] at h
    obtain ⟨b, hb, rfl⟩ := Option.map_eq_some_iff.1 h
    exact ⟨b, hb, .inr rfl⟩
  · exact ⟨c, h, .inl rfl⟩

/-! ## Signs

There are three signs and the missing one, and which it is depends on the flags and on whether the
value is negative. -/

/-- The signs that a number may have. -/
def signs : List Text := [[], ['-'], ['+'], [' ']]

/-- No other sign is written. -/
theorem sign_mem_signs (d : Directive) (negative : Bool) : d.sign negative ∈ signs := by
  rw [sign]
  split
  · decide
  · split
    · decide
    · split <;> decide

@[simp] theorem inCase_sign (d : Directive) (negative : Bool) :
    d.inCase (d.sign negative) = d.sign negative := by
  have hall : ∀ s ∈ signs, s.upper = s := by decide
  rw [inCase]
  split
  · exact hall _ (d.sign_mem_signs negative)
  · rfl

/-- The text begins as the magnitude of a number does: with a digit to a base of at most sixteen, or
as the name of what is no finite number does. -/
def BeginsMagnitude (s : Text) : Prop := ∀ c, s.head? = some c → c ∈ "0123456789abcdefin".toList

/-- **A sign can be told from the magnitude after it.** -/
theorem splitSign_sign_append (d : Directive) {sign body : Text} (hs : sign ∈ signs)
    (hb : BeginsMagnitude body) :
    Text.splitSign (sign ++ d.inCase body) = (sign, d.inCase body) := by
  have hno : ∀ b ∈ "0123456789abcdefin".toList, ∀ c, (c = b ∨ c = b.toUpper) →
      ¬(c = '-' ∨ c = '+' ∨ c = ' ') := by
    have hall : ∀ b ∈ "0123456789abcdefin".toList,
        ¬(b = '-' ∨ b = '+' ∨ b = ' ') ∧
          ¬(b.toUpper = '-' ∨ b.toUpper = '+' ∨ b.toUpper = ' ') :=
      List.all_iff_forall_prop.1 (by decide)
    rintro b hb c (rfl | rfl)
    · exact (hall _ hb).1
    · exact (hall _ hb).2
  have hnil : Text.splitSign (d.inCase body) = ([], d.inCase body) := by
    cases hc : d.inCase body with
    | nil => rfl
    | cons c s =>
      obtain ⟨b, hbody, hcb⟩ := head?_inCase (d := d) (s := body) (c := c) (by rw [hc]; rfl)
      rw [Text.splitSign, if_neg (hno b (hb b hbody) c hcb)]
  simp only [signs, List.mem_cons, List.not_mem_nil, or_false] at hs
  rcases hs with rfl | rfl | rfl | rfl
  · exact hnil
  · rfl
  · rfl
  · rfl

/-! ## Magnitudes

A magnitude is digits, perhaps behind the marker of a base, or the name of what is not finite.  Its
first character is none that a sign is made of. -/

theorem beginsMagnitude_text {base : Nat} (hb : 2 ≤ base) (hb' : base ≤ 16) (n : Nat) :
    BeginsMagnitude (Numeral.text base n) := by
  have hall : ∀ d < 16, Nat.digitChar d ∈ "0123456789abcdefin".toList := by decide
  intro c hc
  obtain ⟨d, hd, rfl⟩ := Numeral.exists_digit_of_mem_text hb (List.mem_of_head? hc)
  exact hall d (Nat.lt_of_lt_of_le hd hb')

theorem beginsMagnitude_padZeros {s : Text} (h : BeginsMagnitude s) (width : Nat) :
    BeginsMagnitude (Numeral.padZeros width s) := by
  rw [Numeral.padZeros_eq]
  cases width - s.length with
  | zero => exact h
  | succ k =>
    rintro c ⟨⟩
    decide

theorem beginsMagnitude_append {s t : Text} (hne : s ≠ []) (h : BeginsMagnitude s) :
    BeginsMagnitude (s ++ t) := by
  intro c hc
  obtain ⟨a, s, rfl⟩ := List.exists_cons_of_ne_nil hne
  exact h c hc

/-- The whole part of a number that is laid out begins with a digit. -/
def HasWhole (f : Layout.Form) : Prop := f.whole ≠ [] ∧ BeginsMagnitude f.whole

theorem HasWhole.of_isProper {f : Layout.Form} (h : Json.IsProper f) : HasWhole f := by
  have hall : ∀ d < 10, Char.ofNat (48 + d) ∈ "0123456789abcdefin".toList := by decide
  refine ⟨h.whole.isDigits.1, fun c hc => ?_⟩
  obtain ⟨hlow, hhigh⟩ := Bool.and_eq_true_iff.1 (h.whole.isDigits.2 c (List.mem_of_head? hc))
  have hlow : 48 ≤ c.toNat := of_decide_eq_true hlow
  have hhigh : c.toNat ≤ 57 := of_decide_eq_true hhigh
  have hd := hall (c.toNat - 48) (by omega)
  rwa [Nat.add_sub_cancel' hlow, Char.ofNat_toNat] at hd

theorem HasWhole.beginsMagnitude_render {f : Layout.Form} (h : HasWhole f) (keepPoint : Bool) :
    BeginsMagnitude (f.render keepPoint) := by
  rw [Layout.Form.render, List.append_assoc]
  exact beginsMagnitude_append h.1 h.2

/-- A double begins with a digit in every style, and with a letter if it is not finite. -/
theorem beginsMagnitude_floatBody (style : Layout.Style) (alternate : Bool) (p : Nat)
    (x : Binary64) : BeginsMagnitude (floatBody style alternate p x) := by
  have hrender {f : Layout.Form} (h : Json.IsProper f) : BeginsMagnitude (f.render alternate) :=
    (HasWhole.of_isProper h).beginsMagnitude_render alternate
  cases x with
  | finite negative m e hd =>
    cases style with
    | fixed => exact hrender (Json.isProper_fixed p _)
    | exponential => exact hrender (Json.isProper_exponential p _)
    | general => exact hrender (Json.isProper_general p _ alternate)
  | infinite negative =>
    rintro c ⟨⟩
    decide
  | nan =>
    rintro c ⟨⟩
    decide

end Directive
end Stencil
