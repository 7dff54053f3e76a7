import Stencil.Proofs.Coercion.Literal
import Stencil.Proofs.Directive.Numbers
import Stencil.Proofs.Directive.Canonical
import Stencil.Proofs.Text.Digit

/-!
# Numbers written in texts

Two notations are described here without saying how they are read.  An integer may be a literal
(`Text.IsLiteral`): decimal digits of any script, or the marker of a base with digits to that base.
A number with a point or a power of ten is a decimal (`Text.IsDecimal`).  Both may have a sign.

Neither has a blank or an underscore, so nothing is taken away before they are read
(`Text.plain_of_solid`).  A literal is read as its integer (`Numeral.literal?_of_isLiteral`).  A
decimal is no literal, since its point or its letter is no digit, and is read as its coefficient
and its exponent (`Scientific.read?_of_isDecimal`).

The two are kept apart because they are read by different functions, one after the other: a text is
a literal if it can be one, and a decimal only otherwise.  So it has to be shown of a decimal that
it is no literal either (`Numeral.literal?_eq_none_of_isDecimal`).
-/

set_option autoImplicit false

namespace Stencil

open Grammar

namespace Text

/-! ## The notations

Each notation is a relation between a text and the parts of the number that it writes.  Nothing is
computed here but the value of digits, and a text that is written in two ways would write both
numbers; that it does not follows from reading. -/

/-- A sign or nothing, and whether it is a minus. -/
inductive IsSign : Text → Bool → Prop where
  | absent : IsSign [] false
  | plus : IsSign ['+'] false
  | minus : IsSign ['-'] true

/-- The number that decimal digits of any script write. -/
def digitsValue (ds : Text) : Nat := Numeral.horner 10 (ds.filterMap digitValue?)

/-- The letters that mark a base after a zero. -/
def markers : List (Char × Nat) := [('x', 16), ('X', 16), ('o', 8), ('O', 8), ('b', 2), ('B', 2)]

/-- A literal and the integer that it writes: decimal digits, or digits behind the marker of their
base, with a sign or without. -/
inductive IsLiteral : Text → Int → Prop where
  | digits {sign ds : Text} {negative : Bool} (hs : IsSign sign negative) (hd : IsDigits ds) :
    IsLiteral (sign ++ ds) (Numeral.signed negative (digitsValue ds))
  | marked {sign ds : Text} {negative : Bool} {c : Char} {b : Nat} {ns : List Nat}
    (hs : IsSign sign negative) (hc : (c, b) ∈ markers) (hne : ds ≠ [])
    (hd : ds.mapM (Numeral.baseDigit? b) = some ns) :
    IsLiteral (sign ++ '0' :: c :: ds) (Numeral.signed negative (Numeral.horner b ns))

/-- A point with the digits behind it, or nothing. -/
inductive IsFraction : Text → Text → Prop where
  | absent : IsFraction [] []
  | point {ds : Text} (h : ∀ c ∈ ds, isDecimalDigit c) : IsFraction ('.' :: ds) ds

/-- A power of ten with its exponent, or nothing. -/
inductive IsPower : Text → Int → Prop where
  | absent : IsPower [] 0
  | power {letter : Char} {sign ds : Text} {negative : Bool} (hl : letter = 'e' ∨ letter = 'E')
    (hs : IsSign sign negative) (hd : IsDigits ds) :
    IsPower (letter :: (sign ++ ds)) (Numeral.signed negative (digitsValue ds))

/-- A number with a point, a power of ten or both: its sign, its digits as one number, how many of
them stand behind the point, and the exponent of the power. -/
inductive IsDecimal : Text → (negative : Bool) → (coefficient places : Nat) → Int → Prop where
  | parts {sign whole point fraction power : Text} {negative : Bool} {e : Int}
    (hs : IsSign sign negative) (hw : ∀ c ∈ whole, isDecimalDigit c)
    (hf : IsFraction point fraction)
    (hp : IsPower power e) (hdigit : whole ++ fraction ≠ []) (hmark : point ++ power ≠ []) :
    IsDecimal (sign ++ (whole ++ (point ++ power))) negative (digitsValue (whole ++ fraction))
      fraction.length e

/-! ## Characters of numbers

A text is stripped of blanks at its ends and of underscores before it is read.  A number has
neither, which is seen part by part. -/

/-- Neither a blank nor an underscore. -/
def IsSolid (s : Text) : Prop := ∀ c ∈ s, isBlank c = false ∧ c ≠ '_'

variable {s t sign : Text} {negative : Bool}

theorem IsSolid.append (hs : IsSolid s) (ht : IsSolid t) : IsSolid (s ++ t) := by
  intro c hc
  exact (List.mem_append.1 hc).elim (hs c) (ht c)

theorem isSolid_nil : IsSolid [] := nofun

theorem isSolid_cons {c : Char} (hc : isBlank c = false ∧ c ≠ '_') (hs : IsSolid s) :
    IsSolid (c :: s) := by
  intro d hd
  rcases List.mem_cons.1 hd with rfl | hd
  · exact hc
  · exact hs d hd

theorem isSolid_of_digits (h : ∀ c ∈ s, isDecimalDigit c) : IsSolid s := fun c hc =>
  have hd := isDigitLike_of_isDecimalDigit (h c hc)
  ⟨isBlank_of_isDigitLike hd, (ne_of_isDigitLike hd).2.2⟩

theorem IsSign.isSolid (h : IsSign sign negative) : IsSolid sign := by
  cases h with
  | absent => exact isSolid_nil
  | plus | minus => exact isSolid_cons (by decide) isSolid_nil

theorem trim_of_solid (h : IsSolid s) : trim s = s := trimWhere_eq_self fun c hc => (h c hc).1

/-- Where there are no blanks and no underscores, nothing is taken away. -/
theorem plain_of_solid (h : IsSolid s) : plain s = s := by
  rw [plain, trim_of_solid h]
  exact List.filter_eq_self.2 fun c hc => decide_eq_true (h c hc).2

end Text

/-! ## Signs

A sign is taken away first.  Behind it stands a digit, a point or the zero of a marker, so no second
sign can be mistaken for it. -/

namespace Numeral

open Text

variable {sign t : Text} {negative : Bool}

theorem takeSign_append (hs : IsSign sign negative)
    (ht : ∀ c, t.head? = some c → c ≠ '-' ∧ c ≠ '+') : takeSign (sign ++ t) = (negative, t) := by
  cases hs with
  | absent => exact takeSign_of_head? ht
  | plus | minus => rfl

theorem takeSign_of_ne {s : Text} (hminus : ∀ t, s = '-' :: t → False)
    (hplus : ∀ t, s = '+' :: t → False) : takeSign s = (false, s) := by
  refine takeSign_of_head? fun c hc => ?_
  obtain ⟨t, rfl⟩ := List.head?_eq_some_iff.1 hc
  exact ⟨fun h => hminus t (by rw [h]), fun h => hplus t (by rw [h])⟩

theorem takeSign_digits {ds : Text} (hs : IsSign sign negative) (hd : IsDigits ds) :
    takeSign (sign ++ ds) = (negative, ds) :=
  takeSign_append hs fun c hc =>
    ne_sign_of_isDigitLike (isDigitLike_of_isDecimalDigit (hd.2 c (List.mem_of_head? hc)))

/-! ## Literals

What is no digit to a base has no value to it, so a marker is needed before letters can be digits.
-/

/-- The digits to any base are among the digits and the first letters. -/
theorem isBaseDigit_cases {b d : Nat} {c : Char} (h : baseDigit? b c = some d) :
    48 ≤ c.toNat ∧ c.toNat ≤ 57 ∨ 97 ≤ c.toNat ∧ c.toNat ≤ 102 ∨
      65 ≤ c.toNat ∧ c.toNat ≤ 70 := by
  have hdigit : c.isDigit = true → 48 ≤ c.toNat ∧ c.toNat ≤ 57 := by
    intro hd
    simpa [Char.isDigit, UInt32.le_iff_toNat_le] using hd
  rw [baseDigit?] at h
  split at h
  · exact .inl (hdigit ‹_›)
  · split at h
    · exact .inr (.inl ‹_›)
    · split at h
      · exact .inr (.inr ‹_›)
      · simp at h

theorem isSolid_of_baseDigits {b : Nat} {ds : Text} {ns : List Nat}
    (h : ds.mapM (baseDigit? b) = some ns) : IsSolid ds := by
  have hsolid : ∀ n ≤ 102, 48 ≤ n ∧ n ≤ 57 ∨ 97 ≤ n ∧ n ≤ 102 ∨ 65 ≤ n ∧ n ≤ 70 →
      isBlank (Char.ofNat n) = false ∧ Char.ofNat n ≠ '_' := by decide
  intro c hc
  cases hd : baseDigit? b c with
  | none =>
    rw [mapM_eq_none hc hd] at h
    cases h
  | some d =>
    have hcases := isBaseDigit_cases hd
    have hs := hsolid c.toNat (by omega) hcases
    rwa [Char.ofNat_toNat] at hs

/-- Decimal digits are read whatever their script is. -/
theorem unsignedLiteral?_of_isDigits {ds : Text} (hd : IsDigits ds) :
    unsignedLiteral? ds = some (digitsValue ds) := by
  have hmarker : ∀ c ∈ "xXoObB".toList, isDecimalDigit c = false :=
    List.all_iff_forall_prop.1 (by decide)
  rw [unsignedLiteral?_of_marker_not_mem fun c hc hm => by simpa [hmarker c hm] using hd.2 c hc,
    digitRun?_eq_some hd.1 hd.2, Option.map_some, value_eq_horner, digitsValue]

/-- Digits behind a marker are read to its base. -/
theorem unsignedLiteral?_marked {c : Char} {b : Nat} {ds : Text} {ns : List Nat}
    (hc : (c, b) ∈ markers) (hne : ds ≠ []) (hd : ds.mapM (baseDigit? b) = some ns) :
    unsignedLiteral? ('0' :: c :: ds) = some (horner b ns) := by
  have hbase : baseValue? b ds = some (horner b ns) := by
    obtain ⟨d, ds, rfl⟩ := List.exists_cons_of_ne_nil hne
    rw [baseValue?, hd, Option.map_some, value_eq_horner]
    simp
  simp only [markers, List.mem_cons, Prod.mk.injEq, List.not_mem_nil, or_false] at hc
  rcases hc with ⟨rfl, rfl⟩ | ⟨rfl, rfl⟩ | ⟨rfl, rfl⟩ | ⟨rfl, rfl⟩ | ⟨rfl, rfl⟩ | ⟨rfl, rfl⟩ <;>
    exact hbase

/-- **A literal is read as the integer that it writes.** -/
theorem literal?_of_isLiteral {s : Text} {n : Int} (h : IsLiteral s n) : literal? s = some n := by
  cases h with
  | digits hs hd =>
    rw [literal?, takeSign_digits hs hd, unsignedLiteral?_of_isDigits hd, Option.map_some]
  | marked hs hc hne hd =>
    rw [literal?, takeSign_append hs (by rintro c ⟨⟩; decide), unsignedLiteral?_marked hc hne hd,
      Option.map_some]

end Numeral

namespace Text

variable {s : Text} {n : Int}

theorem IsLiteral.isSolid (h : IsLiteral s n) : IsSolid s := by
  cases h with
  | digits hs hd => exact hs.isSolid.append (isSolid_of_digits hd.2)
  | marked hs hc _ hd =>
    have hletters : ∀ p ∈ markers, isBlank p.1 = false ∧ p.1 ≠ '_' := by decide
    exact hs.isSolid.append (isSolid_cons (by decide)
      (isSolid_cons (hletters _ hc) (Numeral.isSolid_of_baseDigits hd)))

theorem IsLiteral.ne_nil (h : IsLiteral s n) : s ≠ [] := by
  cases h with
  | digits _ hd => simp [hd.1]
  | marked => simp

/-! ## Decimals

The digits in front of the point end where the point or the letter stands, and the digits behind the
point end at the letter.  One of the two must be there, since otherwise the number would be a
literal. -/

/-- The characters of a decimal behind its sign that are no digits. -/
def decimalMarks : Text := ".eE+-".toList

theorem IsSign.mem_marks {sign : Text} {negative : Bool} (h : IsSign sign negative) :
    ∀ c ∈ sign, c ∈ decimalMarks := by
  cases h <;> simp [decimalMarks]

theorem mem_decimal {whole point fraction power : Text} {e : Int}
    (hw : ∀ c ∈ whole, isDecimalDigit c) (hf : IsFraction point fraction) (hp : IsPower power e) :
    ∀ c ∈ whole ++ (point ++ power), isDecimalDigit c ∨ c ∈ decimalMarks := by
  have hpoint : ∀ c ∈ point, isDecimalDigit c ∨ c ∈ decimalMarks := by
    cases hf with
    | absent => nofun
    | point h => exact List.forall_mem_cons.2 ⟨.inr (by decide), fun c hc => .inl (h c hc)⟩
  have hpower : ∀ c ∈ power, isDecimalDigit c ∨ c ∈ decimalMarks := by
    cases hp with
    | absent => nofun
    | power hl hs hd =>
      refine List.forall_mem_cons.2 ⟨.inr (by rcases hl with rfl | rfl <;> decide), ?_⟩
      exact List.forall_mem_append.2 ⟨fun c hc => .inr (hs.mem_marks c hc),
        fun c hc => .inl (hd.2 c hc)⟩
  exact List.forall_mem_append.2 ⟨fun c hc => .inl (hw c hc),
    List.forall_mem_append.2 ⟨hpoint, hpower⟩⟩

variable {negative : Bool} {coefficient places : Nat} {e : Int}

theorem IsDecimal.isSolid (h : IsDecimal s negative coefficient places e) : IsSolid s := by
  have hmarks : ∀ c ∈ decimalMarks, isBlank c = false ∧ c ≠ '_' :=
    List.all_iff_forall_prop.1 (by decide)
  cases h with
  | parts hs hw hf hp =>
    refine hs.isSolid.append fun c hc => ?_
    rcases mem_decimal hw hf hp c hc with hd | hm
    · exact isSolid_of_digits (s := [c]) (by simpa using hd) c List.mem_cons_self
    · exact hmarks c hm

theorem IsDecimal.ne_nil (h : IsDecimal s negative coefficient places e) : s ≠ [] := by
  cases h with
  | parts _ _ _ _ _ hmark =>
    intro hnil
    simp only [List.append_eq_nil_iff] at hnil
    exact hmark (List.append_eq_nil_iff.2 hnil.2.2)

/-- The part of a decimal without its sign begins with a digit or with the point. -/
theorem head?_decimal {whole point fraction power : Text} (hw : ∀ c ∈ whole, isDecimalDigit c)
    (hf : IsFraction point fraction) (hdigit : whole ++ fraction ≠ []) {c : Char}
    (hc : (whole ++ (point ++ power)).head? = some c) : isDecimalDigit c ∨ c = '.' := by
  cases whole with
  | cons d whole =>
    cases hc
    exact .inl (hw c List.mem_cons_self)
  | nil =>
    cases hf with
    | absent => exact absurd rfl hdigit
    | point =>
      cases hc
      exact .inr rfl

theorem ne_sign_of_decimal {c : Char} (h : isDecimalDigit c ∨ c = '.') : c ≠ '-' ∧ c ≠ '+' := by
  rcases h with h | rfl
  · exact ne_sign_of_isDigitLike (isDigitLike_of_isDecimalDigit h)
  · decide

end Text

namespace Numeral

open Text

/-- The point or the letter of a decimal is no digit of a literal. -/
theorem literal?_eq_none_of_isDecimal {s : Text} {negative : Bool} {c k : Nat} {e : Int}
    (h : IsDecimal s negative c k e) : literal? s = none := by
  cases h with
  | @parts sign whole point fraction power _ _ hs hw hf hp hdigit hmark =>
    have hletter : ∃ c ∈ whole ++ (point ++ power), isDecimalDigit c = false := by
      cases hf with
      | point => exact ⟨'.', by simp, by decide⟩
      | absent =>
        cases hp with
        | absent => exact absurd rfl hmark
        | @power letter _ _ _ hl =>
          refine ⟨letter, by simp, ?_⟩
          rcases hl with rfl | rfl <;> decide
    have hmarker : ∀ c ∈ whole ++ (point ++ power), c ∉ "xXoObB".toList := by
      have hnot : ∀ c ∈ "xXoObB".toList, isDecimalDigit c = false ∧ c ∉ decimalMarks :=
        List.all_iff_forall_prop.1 (by decide)
      intro c hc hm
      rcases mem_decimal hw hf hp c hc with hd | hd
      · simp [(hnot c hm).1] at hd
      · exact (hnot c hm).2 hd
    obtain ⟨c, hc, hd⟩ := hletter
    rw [literal?, takeSign_append hs fun c hc => ne_sign_of_decimal (head?_decimal hw hf hdigit hc),
      unsignedLiteral?_of_marker_not_mem hmarker,
      digitRun?_eq_none hc hd]
    rfl

end Numeral

namespace Scientific

open Text

theorem exponent?_cons {letter : Char} (hl : letter = 'e' ∨ letter = 'E') (s : Text) :
    exponent? (letter :: s) = (digitRun? (Numeral.takeSign s).2).map fun ds =>
      Numeral.signed (Numeral.takeSign s).1 (Numeral.value 10 ds) := by
  unfold exponent?
  simp only [if_pos hl]
  split
  · rfl
  · rfl
  · rename_i hminus hplus
    rw [Numeral.takeSign_of_ne hminus hplus]
    rfl

/-- An exponent is read with its sign. -/
theorem exponent?_of_isPower {power : Text} {e : Int} (h : IsPower power e) :
    exponent? power = some e := by
  cases h with
  | absent => rfl
  | power hl hs hd =>
    rw [exponent?_cons hl, Numeral.takeSign_digits hs hd, digitRun?_eq_some hd.1 hd.2,
      Option.map_some, Numeral.value_eq_horner, digitsValue]

/-- What begins with a digit or with the point is no name of a number. -/
theorem readUnsigned?_of_head {t : Text} (negative : Bool)
    (ht : ∀ c, t.head? = some c → isDecimalDigit c ∨ c = '.') :
    readUnsigned? negative t = (do
      let (whole, fraction, e) ← parts? t
      finite? negative (Numeral.value 10 (whole ++ fraction)) (e - fraction.length)) := by
  have hhead (l : Char) (hl : l ∈ "ins".toList) (u : Text) : lower t ≠ l :: u := by
    intro hu
    have hmap : (lower t).head? = t.head?.map Char.toLower := List.head?_map
    rw [hu, List.head?_cons, eq_comm, Option.map_eq_some_iff] at hmap
    obtain ⟨c, hc, rfl⟩ := hmap
    have hdigit : ∀ l ∈ "ins".toList, isDecimalDigit l = false :=
      List.all_iff_forall_prop.1 (by decide)
    rcases ht c hc with hd | rfl
    · rw [toLower_of_isDigitLike (isDigitLike_of_isDecimalDigit hd)] at hl
      simp [hdigit c hl] at hd
    · revert hl
      decide
  have hafter (l : Char) (hl : l ∈ "ins".toList) (lead : Text) :
      after? (l :: lead) (lower t) = none := by
    refine Option.eq_none_iff_forall_ne_some.2 fun rest hrest => ?_
    exact hhead l hl (lead ++ rest) (after?_eq_some_iff.1 hrest)
  have hinf : lower t ≠ "inf".toList := hhead 'i' (by decide) _
  have hinfinity : lower t ≠ "infinity".toList := hhead 'i' (by decide) _
  have hnan : after? "nan".toList (lower t) = none := hafter 'n' (by decide) _
  have hsnan : after? "snan".toList (lower t) = none := hafter 's' (by decide) _
  rw [readUnsigned?, if_neg (not_or.2 ⟨hinf, hinfinity⟩), hnan, hsnan]

/-- The parts of a decimal are found where they stand. -/
theorem parts?_decimal {whole point fraction power : Text} {e : Int}
    (hw : ∀ c ∈ whole, isDecimalDigit c) (hf : IsFraction point fraction) (hp : IsPower power e)
    (hdigit : whole ++ fraction ≠ []) :
    parts? (whole ++ (point ++ power)) =
      some (whole.filterMap digitValue?, fraction.filterMap digitValue?, e) := by
  have hpower : ∀ c, power.head? = some c → isDecimalDigit c = false := by
    cases hp with
    | absent => nofun
    | power hl =>
      rintro c ⟨⟩
      rcases hl with rfl | rfl <;> decide
  have he := exponent?_of_isPower hp
  cases hf with
  | @point fraction h =>
    have hrun : run isDecimalDigit (whole ++ ('.' :: fraction ++ power)) =
        (whole, '.' :: fraction ++ power) := run_append_of_forall hw (by rintro c ⟨⟩; decide)
    have hrun' : run isDecimalDigit (fraction ++ power) = (fraction, power) :=
      run_append_of_forall h hpower
    rw [parts?, hrun]
    simp only [List.cons_append, hrun', he, Option.map_some]
    rw [if_neg (by simpa using hdigit)]
  | absent =>
    have hrun : run isDecimalDigit (whole ++ ([] ++ power)) = (whole, power) :=
      run_append_of_forall hw hpower
    rw [List.append_nil] at hdigit
    rw [parts?, hrun]
    cases hp with
    | absent => simp [hdigit, he]
    | power hl =>
      rcases hl with rfl | rfl <;> simp [hdigit, he]

/-- Reading takes away what does not count, then the sign, and then reads the rest. -/
theorem read?_eq (s : Text) : read? s =
    readUnsigned? (Numeral.takeSign (plain s)).1 (Numeral.takeSign (plain s)).2 := by
  unfold read?
  rw [← plain]
  split
  · rename_i t ht
    rw [ht]
    rfl
  · rename_i t ht
    rw [ht]
    rfl
  · rename_i hminus hplus
    rw [Numeral.takeSign_of_ne hminus hplus]

/-- **A decimal is read as the number that it writes**, unless the exponent cannot be held. -/
theorem read?_of_isDecimal {s : Text} {negative : Bool} {c k : Nat} {e : Int}
    (h : IsDecimal s negative c k e) : read? s = finite? negative c (e - k) := by
  rw [read?_eq, plain_of_solid h.isSolid]
  cases h with
  | @parts sign whole point fraction power _ _ hs hw hf hp hdigit hmark =>
    have hhead (c : Char) :
        (whole ++ (point ++ power)).head? = some c → isDecimalDigit c ∨ c = '.' :=
      head?_decimal hw hf hdigit
    have hfraction : ∀ c ∈ fraction, isDecimalDigit c := by
      cases hf with
      | absent => nofun
      | point h => exact h
    rw [Numeral.takeSign_append hs fun c hc => ne_sign_of_decimal (hhead c hc),
      readUnsigned?_of_head negative hhead, parts?_decimal hw hf hp hdigit]
    show finite? negative (Numeral.value 10 (_ ++ _)) _ = _
    rw [length_filterMap_digitValue? hfraction, ← List.filterMap_append, Numeral.value_eq_horner]
    rfl

end Scientific
end Stencil
