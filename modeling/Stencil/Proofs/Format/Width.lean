import Stencil.Proofs.Fallible
import Stencil.Proofs.Format.Parts

/-!
# What a width adds

A width never changes what a conversion prints; it only adds fill to it.  The fill is spaces after
the output, or zeros inside of it, or spaces in front.  Where zeros are filled in can be told from
the output alone: right after its sign, or after the marker of its base (`Directive.mark`).

That the mark is the right place is the point of `Directive.isMark_parts`.  It is the lead of the
output, except that an octal numeral may begin with a zero of its own, which looks like the marker;
zeros before it and zeros after it are the same.
-/

set_option autoImplicit false

namespace Stencil
namespace Directive

/-! ## Where the fill goes

The mark of an output is found in its text, and depends on the flags and the conversion only.  For a
sign it is the first character, if this is a sign; for a marker it is the marker, if there is one.
-/

/-- The marker of a base that an output begins with, where markers are asked for. -/
def markerOf (d : Directive) (base : Nat) (u : Text) : Text :=
  if d.alternate && (Text.after? (d.inCase (baseMarker base)) u).isSome then
    d.inCase (baseMarker base)
  else []

/-- The sign or marker that an output of the directive begins with. -/
def mark (d : Directive) (u : Text) : Text :=
  match d.conversion.family with
  | .integer base => if base = 10 then (Text.splitSign u).1 else d.markerOf base u
  | .float _ => (Text.splitSign u).1
  | .text | .char | .truth | .json => []

/-- The output for a value can be filled up with zeros: not a character, not JSON, and no number
that is not finite. -/
def takesZeros (d : Directive) (v : Value) : Bool :=
  match d.conversion.family with
  | .float _ => v.toFloat.toOption.any fun x => x.value.isFinite
  | .char | .json => false
  | .text | .integer _ | .truth => true

/-- `t` is the output `u` for a value, filled up to the width `w`; a width below zero asks for fill
after the output. -/
def Filled (d : Directive) (v : Value) (w : Int) (u t : Text) : Prop :=
  if w.natAbs ≤ u.length then t = u
  else
    t.length = w.natAbs ∧
      if .left ∈ d.flags ∨ w < 0 then ∃ k, t = u ++ Text.fill ' ' k
      else if .zero ∈ d.flags ∧ d.takesZeros v then
        ∃ k rest, u = d.mark u ++ rest ∧ t = d.mark u ++ Text.fill '0' k ++ rest
      else ∃ k, t = Text.fill ' ' k ++ u

/-! ## Markers

The marker of a base is a zero and a letter, and for octal numerals just the zero.  An integer has a
marker unless it is zero or its octal numeral begins with a zero already. -/

variable {d : Directive} {base : Nat}

/-- There are four bases. -/
theorem base_of_family {v : Conversion} (h : v.family = .integer base) :
    base = 10 ∨ base = 8 ∨ base = 16 ∨ base = 2 := by
  cases v <;> cases h <;> simp

theorem zeros_append_cons (k : Nat) (s : Text) :
    '0' :: (Text.fill '0' k ++ s) = Text.fill '0' k ++ '0' :: s := by
  rw [← List.cons_append, Text.fill, ← List.replicate_succ, List.replicate_succ', List.append_assoc]
  rfl

theorem inCase_cons_zero (d : Directive) (s : Text) : d.inCase ('0' :: s) = '0' :: d.inCase s := by
  simp only [inCase]
  split <;> rfl

/-- A marker stands in front, or markers are not asked for, or the integer is zero, or its octal
numeral begins with a zero. -/
theorem integerLead_cases (hb : base ≠ 10) (n : Int) (digits : Text) :
    (d.alternate ∧ d.integerLead base n digits = baseMarker base) ∨
      (d.integerLead base n digits = [] ∧
        (d.alternate = false ∨ n = 0 ∨ (base = 8 ∧ digits.head? = some '0'))) := by
  rw [integerLead, if_neg hb]
  split
  · rename_i h
    rw [Bool.and_eq_true, Bool.and_eq_true] at h
    exact .inl ⟨h.1.1, rfl⟩
  · rename_i h
    refine .inr ⟨rfl, ?_⟩
    cases ha : d.alternate with
    | false => exact .inl rfl
    | true =>
      by_cases hn : n = 0
      · exact .inr (.inl hn)
      · exact .inr (.inr (by simpa [ha, hn] using h))

/-- An octal numeral of zero, or one with a zero in front, begins with a zero. -/
theorem exists_eq_zero_cons {n : Int} {width : Nat}
    (h : n = 0 ∨ (Numeral.padZeros width (Numeral.text 8 n.natAbs)).head? = some '0') :
    ∃ ds, Numeral.padZeros width (Numeral.text 8 n.natAbs) = '0' :: ds := by
  refine List.head?_eq_some_iff.1 ?_
  rcases h with rfl | h
  · rw [Int.natAbs_zero, Numeral.text_zero (by decide), Numeral.padZeros_eq]
    cases width - ['0'].length <;> rfl
  · exact h

/-- The digits of zero do not begin as a marker with a letter in it. -/
theorem markerOf_zero (d : Directive) (hb : base = 16 ∨ base = 2) (width : Nat) :
    d.markerOf base (d.inCase (Numeral.padZeros width (Numeral.text base 0))) = [] := by
  have hdigits : ∀ c ∈ Numeral.padZeros width (Numeral.text base 0), c = '0' := by
    intro c hc
    rw [Numeral.text_zero (by omega)] at hc
    exact (Numeral.mem_padZeros hc).elim id List.mem_singleton.1
  have hletter : ∃ c ∈ d.inCase (baseMarker base), c ≠ '0' := by
    rcases hb with rfl | rfl <;> rw [inCase] <;> split <;>
      exact List.any_iff_exists_prop.1 (by decide)
  rw [inCase_eq_self fun c hc => by rw [hdigits c hc]; rfl, markerOf]
  cases hp : Text.after? (d.inCase (baseMarker base))
      (Numeral.padZeros width (Numeral.text base 0)) with
  | none => simp
  | some rest =>
    obtain ⟨c, hc, hne⟩ := hletter
    rw [Text.after?_eq_some_iff.1 hp] at hdigits
    exact absurd (hdigits c (List.mem_append_left _ hc)) hne

theorem markerOf_append (ha : d.alternate) (s : Text) :
    d.markerOf base (d.inCase (baseMarker base) ++ s) = d.inCase (baseMarker base) := by
  rw [markerOf, Text.after?_eq_some_iff.2 rfl, ha]
  rfl

/-! ## The mark is the lead

A conversion fills in zeros between its lead and its body.  So the mark is right if it is the lead,
or if the two differ in a zero at the place where the zeros go. -/

/-- `m` is as good a place for zeros as `lead` is. -/
def IsMark (m lead body : Text) : Prop :=
  ∃ rest, lead ++ body = m ++ rest ∧
    ∀ k, lead ++ Text.fill '0' k ++ body = m ++ Text.fill '0' k ++ rest

theorem isMark_self (lead body : Text) : IsMark lead lead body := ⟨body, rfl, fun _ => rfl⟩

/-- A zero that the body begins with is as good as nothing. -/
theorem isMark_zero (s : Text) : IsMark ['0'] [] ('0' :: s) :=
  ⟨s, rfl, fun k => (zeros_append_cons k s).symm⟩

/-- A lead that is a sign is the mark. -/
theorem isMark_sign (d : Directive) {lead body : Text} (hl : lead ∈ signs)
    (hb : BeginsMagnitude body) :
    IsMark (Text.splitSign (lead ++ d.inCase body)).1 lead (d.inCase body) := by
  rw [d.splitSign_sign_append hl hb]
  exact isMark_self lead _

/-- **A lead that is a marker is the mark**, and without a lead the mark is nothing or a zero. -/
theorem isMark_marker (d : Directive) (hb : base = 8 ∨ base = 16 ∨ base = 2) (n : Int)
    (width : Nat) :
    let digits := Numeral.padZeros width (Numeral.text base n.natAbs)
    let lead := d.inCase (d.integerLead base n digits)
    IsMark (d.markerOf base (lead ++ d.inCase digits)) lead (d.inCase digits) := by
  intro digits lead
  rcases integerLead_cases (d := d) (show base ≠ 10 by omega) n digits with ⟨ha, h⟩ | ⟨h, hz⟩
  · simp only [lead, h, markerOf_append ha]
    exact isMark_self _ _
  · -- the output is the digits alone, and of these only an octal zero looks like a marker
    simp only [lead, h, inCase_nil, List.nil_append]
    by_cases ha : d.alternate = false
    · rw [markerOf, ha]
      exact isMark_self [] _
    rcases hb with rfl | hb
    · obtain ⟨ds, hds⟩ : ∃ ds, digits = '0' :: ds :=
        exists_eq_zero_cons ((hz.resolve_left ha).imp_right And.right)
      have hm : d.markerOf 8 ('0' :: d.inCase ds) = ['0'] := by
        have h8 : d.inCase (baseMarker 8) = ['0'] :=
          (d.inCase_cons_zero []).trans (by rw [inCase_nil])
        rw [← h8]
        exact (congrArg _ (by rw [h8]; rfl)).trans (markerOf_append (Bool.of_not_eq_false ha) _)
      simp only [digits, hds, inCase_cons_zero, hm]
      exact isMark_zero _
    · have hn : n = 0 := (hz.resolve_left ha).resolve_right (by omega)
      subst hn
      simp only [digits, Int.natAbs_zero, markerOf_zero d hb]
      exact isMark_self [] _

/-- **Zeros belong after the mark of the output**, whatever the conversion; whether they may be
filled in depends on the conversion and the value alone. -/
theorem isMark_parts [Nesting] {precision : Option Int} {v : Value} {p : Parts}
    (h : d.parts precision v = .ok p) :
    IsMark (d.mark (p.lead ++ p.body)) p.lead p.body ∧ p.zeros = d.takesZeros v := by
  rw [parts] at h
  -- one case for each family; only numbers have a sign or a marker, so the others leave the lead
  -- empty
  unfold mark takesZeros
  cases hf : d.conversion.family with
  | text =>
    rw [hf] at h
    obtain ⟨s, -, h⟩ := Fallible.exists_of_bind h
    cases h
    exact ⟨isMark_self [] _, rfl⟩
  | integer base =>
    rw [hf] at h
    obtain ⟨n, -, h⟩ := Fallible.exists_of_bind h
    obtain ⟨digits, hd, h⟩ := Fallible.exists_of_bind h
    cases h
    refine ⟨?_, rfl⟩
    -- the digits can be refused, which leaves nothing to show; else they are padded digits
    rcases integerDigits_cases base precision n.value.natAbs with ⟨he, -⟩ | hd'
    · rw [he] at hd
      cases hd
    rw [hd'] at hd
    cases hd
    -- a decimal has a sign alone, any other base has a marker after it
    by_cases hten : base = 10
    · subst hten
      rw [show d.integerLead 10 n.value _ = d.sign (n.value < 0) from rfl, inCase_sign]
      exact isMark_sign d (d.sign_mem_signs _)
        (beginsMagnitude_padZeros (beginsMagnitude_text (by decide) (by decide) _) _)
    · simp only [if_neg hten]
      exact isMark_marker d ((base_of_family hf).resolve_left hten) n.value _
  | float style =>
    rw [hf] at h
    obtain ⟨x, hx, h⟩ := Fallible.exists_of_bind h
    dsimp only at h
    split at h <;> cases h
    refine ⟨isMark_sign d (d.sign_mem_signs _) (beginsMagnitude_floatBody style _ _ _), ?_⟩
    simp only [hx]
    rfl
  | char =>
    rw [hf] at h
    obtain ⟨c, -, h⟩ := Fallible.exists_of_bind h
    cases h
    exact ⟨isMark_self [] _, rfl⟩
  | truth =>
    rw [hf] at h
    obtain ⟨b, -, h⟩ := Fallible.exists_of_bind h
    cases h
    exact ⟨isMark_self [] _, rfl⟩
  | json =>
    rw [hf] at h
    obtain ⟨s, -, h⟩ := Fallible.exists_of_bind h
    cases h
    exact ⟨isMark_self [] _, rfl⟩

/-! ## Filling up

The parts do not depend on the width, so the output without a width is the lead and the body as they
are, and the output with a width is these two with fill. -/

theorem format_without_width [Nesting] (d : Directive) (o : Operands) :
    { d with width := none }.format { o with width := none } =
      d.parts (precisionOf o) o.value >>= fun p => .ok (p.lead ++ p.body) :=
  format_of_widthOf_eq_none { d with width := none } (o := { o with width := none }) rfl

/-- The fill of a field is the fill that the flags, the value and the sign of the width ask for. -/
theorem filled_fillUp {v : Value} {w : Int} {p : Parts}
    (hm : IsMark (d.mark (p.lead ++ p.body)) p.lead p.body) (hz : p.zeros = d.takesZeros v) :
    let left := d.left || decide (w < 0)
    d.Filled v w (p.lead ++ p.body)
      (fillUp w.natAbs left (d.zero && !left && p.zeros) p.lead p.body) := by
  intro left
  unfold Filled
  by_cases hl : w.natAbs ≤ (p.lead ++ p.body).length
  · rw [if_pos hl, fillUp_of_le _ _ hl]
  rw [if_neg hl, length_fillUp]
  refine ⟨by omega, ?_⟩
  rw [fillUp]
  have hleft : left = true ↔ .left ∈ d.flags ∨ w < 0 := by simp [left, Directive.left]
  by_cases hlf : left
  · rw [if_pos (hleft.1 hlf), if_pos hlf]
    exact ⟨_, rfl⟩
  rw [if_neg (mt hleft.2 hlf), if_neg hlf]
  have hzero : (d.zero && !left && p.zeros) = true ↔ .zero ∈ d.flags ∧ d.takesZeros v := by
    have hd : d.left = false := by
      rw [Bool.not_eq_true, Bool.or_eq_false_iff] at hlf
      exact hlf.1
    simp [Directive.zero, hd, hlf, hz]
  by_cases hzf : d.zero && !left && p.zeros
  · rw [if_pos (hzero.1 hzf), if_pos hzf]
    obtain ⟨rest, hrest, hzeros⟩ := hm
    exact ⟨_, rest, hrest, hzeros _⟩
  · rw [if_neg (mt hzero.2 hzf), if_neg hzf]
    exact ⟨_, rfl⟩

/-- **A width only adds fill.**  Where the directive without its width fails, it fails with it in
the same way.  Otherwise its output is the output without the width, filled up: `Directive.Filled`
says how far and where. -/
theorem format_width [Nesting] (d : Directive) (o : Operands) (w : Int)
    (hw : o.width.bind SizeOperand.resolve = some w) (hmax : w.natAbs < 2 ^ 63) :
    match { d with width := none }.format { o with width := none } with
    | .error e => d.format o = .error e
    | .ok u => ∃ t, d.format o = .ok t ∧ d.Filled o.value w u t := by
  have hwidth : widthOf o = some w := hw
  rw [format_without_width, format_eq_fillUp d (by rintro _ h; cases hwidth ▸ h; exact hmax)]
  cases hp : d.parts (precisionOf o) o.value with
  | error e => rfl
  | ok p =>
    obtain ⟨hm, hz⟩ := isMark_parts hp
    refine ⟨_, rfl, ?_⟩
    rw [fillsAfter, hwidth]
    exact filled_fillUp hm hz

/-- Zeros are filled in between the marker and the digits. -/
theorem format_width_star :
    let d : Directive :=
      ⟨"%#0*X".toList, .hexUpper, none, [.alternate, .zero], some .next, none, none⟩
    let o : Operands := ⟨some (.argument (.int 10)), none, .int 255⟩
    o.width.bind SizeOperand.resolve = some 10 ∧
      { d with width := none }.format { o with width := none } = .ok "0XFF".toList ∧
      d.format o = .ok "0X000000FF".toList ∧
      d.Filled (.int 255) 10 "0XFF".toList "0X000000FF".toList := by
  intro d o
  have hw : o.width.bind SizeOperand.resolve = some 10 := by decide +kernel
  have hbare : { d with width := none }.format { o with width := none } = .ok "0XFF".toList := rfl
  have hfull : d.format o = .ok "0X000000FF".toList := rfl
  have h := format_width d o 10 hw (by decide)
  rw [hbare] at h
  obtain ⟨t, ht, hfilled⟩ := h
  obtain rfl : "0X000000FF".toList = t := Except.ok.inj (hfull.symm.trans ht)
  exact ⟨hw, hbare, hfull, hfilled⟩

end Directive
end Stencil
