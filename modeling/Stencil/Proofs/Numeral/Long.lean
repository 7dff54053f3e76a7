import Mathlib.Algebra.Order.Group.Int
import Stencil.Coercion.Text
import Stencil.Numeral.Long
import Stencil.Proofs.Coercion.Integer
import Stencil.Proofs.Numeral.Index
import Stencil.Proofs.Numeral.Width

/-!
# Numerals by halves

Converting a long numeral by halves gives what converting it at once would give.  `IsCanonical` says
which text is the numeral of an integer, without saying how it is found, and there is only one
(`isCanonical_iff`).

* The halves of a number together are its numeral, if the low one is padded to the place of the cut
  (`decimal_div_mod`), so `decimalByHalves` gives the numeral (`decimalByHalves_eq`).
* The halves of a text of decimal digits are such texts again, and what they write is put together
  by the place of the cut, so `readByHalves` gives what the text writes
  (`readByHalves_of_isDigits`).  A digit without place value is in one of the halves, down to a
  single character, in front of which there is nothing that can be read
  (`readByHalves_of_placeless`).  In all it reads what `readLong` does (`readByHalves_eq`).
-/

set_option autoImplicit false

namespace Stencil

open Grammar

namespace Numeral

/-! ## The numeral of an integer

A numeral is characterised by what it writes and by not having a zero too many in front.  There is
one for each integer, so whatever has these two properties is it. -/

/-- The numeral of a natural number: a zero, or digits of which the first is not zero. -/
inductive IsUnsigned : Nat → Text → Prop where
  | zero : IsUnsigned 0 ['0']
  | digits {d : Nat} {ds : List Nat} (h0 : d ≠ 0) (h : ∀ x ∈ d :: ds, x < 10) :
    IsUnsigned (horner 10 (d :: ds)) ((d :: ds).map Nat.digitChar)

/-- The numeral of an integer: that of its magnitude, behind a minus sign if it is negative. -/
inductive IsCanonical : Int → Text → Prop where
  | natural {n : Nat} {s : Text} (h : IsUnsigned n s) : IsCanonical n s
  | negative {n : Nat} {s : Text} (hn : 0 < n) (h : IsUnsigned n s) : IsCanonical (-n) ('-' :: s)

theorem isUnsigned_decimal (n : Nat) : IsUnsigned n (decimal n) := by
  rcases Nat.eq_zero_or_pos n with rfl | hn
  · have h0 : decimal 0 = ['0'] := text_zero (by decide)
    rw [h0]
    exact .zero
  · obtain ⟨d, ds, hds, h0⟩ := exists_digits_eq_cons hn
    have hcanon := IsUnsigned.digits h0 fun x hx => lt_ten_of_mem_digits (hds ▸ hx)
    rwa [← hds, horner_digits] at hcanon

theorem IsUnsigned.eq_decimal {n : Nat} {s : Text} (h : IsUnsigned n s) : s = decimal n := by
  cases h with
  | zero => exact (text_zero (by decide)).symm
  | digits h0 h => rw [decimal, text, digits_horner h0 h]

theorem signedDecimal_natCast (n : Nat) : signedDecimal n = decimal n := by
  rw [signedDecimal, if_neg (by omega), Int.natAbs_natCast]

theorem signedDecimal_neg_natCast {n : Nat} (hn : 0 < n) :
    signedDecimal (-n) = '-' :: decimal n := by
  rw [signedDecimal, if_pos (by omega), Int.natAbs_neg, Int.natAbs_natCast]

/-- **An integer has one numeral.** -/
theorem isCanonical_iff {n : Int} {s : Text} : IsCanonical n s ↔ s = signedDecimal n := by
  constructor
  · rintro (⟨h⟩ | ⟨hn, h⟩)
    · rw [h.eq_decimal, signedDecimal_natCast]
    · rw [h.eq_decimal, signedDecimal_neg_natCast hn]
  · rintro rfl
    rcases Int.lt_or_le n 0 with hneg | hpos
    · obtain ⟨n, rfl⟩ := Int.exists_eq_neg_ofNat (Int.le_of_lt hneg)
      have hn : 0 < n := by omega
      rw [signedDecimal_neg_natCast hn]
      exact .negative hn (isUnsigned_decimal n)
    · obtain ⟨n, rfl⟩ := Int.eq_ofNat_of_zero_le hpos
      rw [signedDecimal_natCast]
      exact .natural (isUnsigned_decimal n)

/-! ## Writing

A number below the place of the cut is written at once.  Otherwise the high half is a positive
number with a numeral of its own, and the low half is one of a fixed width. -/

/-- **The numerals of both halves together**, the low one with zeros in front up to the cut. -/
theorem decimal_div_mod {n k : Nat} (hk : 0 < k) (h : 10 ^ k ≤ n) :
    decimal (n / 10 ^ k) ++ padZeros k (decimal (n % 10 ^ k)) = decimal n := by
  have hpow : 0 < 10 ^ k := Nat.pow_pos (by decide)
  obtain ⟨d, ds, hds, h0⟩ := exists_digits_eq_cons (Nat.div_pos h hpow)
  let zeros := List.replicate (k - (decimal (n % 10 ^ k)).length) 0
  let low := zeros ++ digits 10 (n % 10 ^ k)
  have hlow : padZeros k (decimal (n % 10 ^ k)) = low.map Nat.digitChar :=
    zeros_append_text 10 _ _
  have hlength : low.length = k := by
    rw [← List.length_map (f := Nat.digitChar), ← hlow]
    exact length_padZeros_decimal hk (Nat.mod_lt _ hpow)
  have hvalue : horner 10 (d :: (ds ++ low)) = n := by
    rw [← List.cons_append, ← hds, horner_append, horner_digits, hlength, horner_zeros_append,
      horner_digits, Nat.mul_comm, Nat.div_add_mod]
  have hlt : ∀ x ∈ d :: (ds ++ low), x < 10 := by
    intro x hx
    rw [← List.cons_append, ← hds, List.mem_append] at hx
    exact hx.elim lt_ten_of_mem_digits (lt_of_mem_zeros_append_digits (by decide))
  have hcanon := IsUnsigned.digits h0 hlt
  rw [hvalue] at hcanon
  rw [← hcanon.eq_decimal, hlow, decimal, text, hds, ← List.map_append, List.cons_append]

theorem eq_of_limitedText {n : Int} {s : Text} (h : limitedText n = .ok s) :
    s = signedDecimal n := by
  rw [limitedText] at h
  split at h
  · exact (Except.ok.inj h).symm
  · cases h

/-- **Writing by halves gives the numeral**, by induction along the halves. -/
theorem decimalByHalves_eq (n : Int) : decimalByHalves n = signedDecimal n := by
  fun_induction decimalByHalves n with
  | case1 n s h => exact eq_of_limitedText h
  | case2 n f h hneg ih =>
    obtain ⟨m, rfl⟩ := Int.exists_eq_neg_ofNat (Int.le_of_lt hneg)
    rw [ih, Int.neg_neg, signedDecimal_natCast, signedDecimal_neg_natCast (by omega)]
  | case3 n f h hneg k hhigh hlow =>
    obtain ⟨m, rfl⟩ := Int.eq_ofNat_of_zero_le (Int.not_lt.1 hneg)
    obtain ⟨hk, hle⟩ := halfLength_spec (le_of_limitedText h)
    rw [hhigh, hlow, ← Int.natCast_ediv, ← Int.natCast_emod, signedDecimal_natCast,
      signedDecimal_natCast, signedDecimal_natCast]
    exact decimal_div_mod hk hle

/-- A base without digits of its own is ten. -/
theorem signedText_eq_decimalByHalves {base : Int} (h2 : base ≠ 2) (h8 : base ≠ 8)
    (h16 : base ≠ 16) (n : Int) : signedText base n = decimalByHalves n := by
  rw [decimalByHalves_eq, signedText, if_neg h2, if_neg h8, if_neg h16]
  rfl

/-! ## Reading

A text is cut in the middle, counted from its end, so that the place of the cut is the length of the
low half.  Both halves are shorter than the text. -/

variable {s : Text}

theorem length_halves_snd (h : 2 ≤ s.length) : (halves s).2.length = s.length / 2 :=
  Indexing.length_split_neg (by omega) (Nat.div_le_self _ 2)

/-- A text of two characters or more has something in both halves. -/
theorem halves_ne_nil (h : 2 ≤ s.length) : (halves s).1 ≠ [] ∧ (halves s).2 ≠ [] := by
  have hback := length_halves_snd h
  have hlength := congrArg List.length (halves_append s)
  rw [List.length_append] at hlength
  exact ⟨List.length_pos_iff.1 (by omega), List.length_pos_iff.1 (by omega)⟩

theorem forall_mem_halves {p : Char → Prop} (h : ∀ c ∈ s, p c) :
    (∀ c ∈ (halves s).1, p c) ∧ ∀ c ∈ (halves s).2, p c := by
  rw [← halves_append s] at h
  exact List.forall_mem_append.1 h

/-- Both halves of digits are digits. -/
theorem isDigits_halves (h : IsDigits s) (hl : 2 ≤ s.length) :
    IsDigits (halves s).1 ∧ IsDigits (halves s).2 :=
  have hmem := forall_mem_halves h.2
  ⟨⟨(halves_ne_nil hl).1, hmem.1⟩, ⟨(halves_ne_nil hl).2, hmem.2⟩⟩

/-- Both halves of a text that looks numeric look numeric. -/
theorem looksNumeric_halves (h : LooksNumeric s) (hl : 2 ≤ s.length) :
    LooksNumeric (halves s).1 ∧ LooksNumeric (halves s).2 :=
  have hmem := forall_mem_halves h.2
  ⟨⟨(halves_ne_nil hl).1, hmem.1⟩, ⟨(halves_ne_nil hl).2, hmem.2⟩⟩

/-- **What the halves write is put together** by the place of the cut. -/
theorem digitsValue_halves (h : IsDigits s) (hl : 2 ≤ s.length) :
    (Text.digitsValue (halves s).1 * Nat.pow 10 (s.length / 2) +
      Text.digitsValue (halves s).2 : Int)
      = Text.digitsValue s := by
  have hvalue := Text.digitsValue_append (halves s).1 (isDigits_halves h hl).2.2
  rw [halves_append, length_halves_snd hl] at hvalue
  exact (congrArg Nat.cast hvalue).symm

theorem indexOf_eq_digitsValue (s : Text) : indexOf s = Text.digitsValue s := by
  rw [indexOf, value_eq_horner, Text.digitsValue]

/-- Decimal digits are read at once, or there are too many of them. -/
theorem read_cases_of_isDigits (h : IsDigits s) :
    read s = .ok (Text.digitsValue s : Int) ∨ read s = .error .numeralTooLong ∧ 2 ≤ s.length := by
  rcases Nat.lt_or_ge digitLimit s.length with hl | hl
  · exact .inr ⟨read_of_overread (.long h hl), Nat.le_trans (by decide) hl⟩
  · exact .inl (by rw [read_of_isIndex ⟨h, hl⟩, indexOf_eq_digitsValue])

/-- **Decimal digits of any number and script are read as what they write**, by induction along the
halves. -/
theorem readHalves_of_isDigits (h : IsDigits s) :
    readHalves s = .ok ⟨Text.digitsValue s, h.1⟩ := by
  fun_induction readHalves s with
  | case1 s n hread =>
    rcases read_cases_of_isDigits h with hvalue | ⟨hlong, -⟩
    · exact congrArg Except.ok (Subtype.ext (Except.ok.inj (hread.symm.trans hvalue)))
    · cases hread.symm.trans hlong
  | case2 s f hread hs ihfront ihback =>
    have hl : 2 ≤ s.length := by
      rcases read_cases_of_isDigits h with hvalue | ⟨-, hl⟩
      · cases hread.symm.trans hvalue
      · exact hl
    obtain ⟨hfront, hback⟩ := isDigits_halves h hl
    rw [ihfront hfront, ihback hfront.1 hback]
    exact congrArg Except.ok (Subtype.ext (digitsValue_halves h hl))
  | case3 s f hread hs =>
    have hlooks := looksNumeric_of_isDigits h
    exact absurd ⟨hlooks.1, List.all_eq_true.2 hlooks.2⟩ hs

theorem readHalves_of_eq_nil (h : s = []) : readHalves s = .error .malformedInteger := by
  subst h
  rw [readHalves]
  rfl

/-- **A digit without place value is found**, by induction along the halves: it is the only
character, or else it is in one of two shorter texts. -/
theorem readHalves_of_placeless (h : Overread s .malformedInteger) :
    readHalves s = .error .malformedInteger := by
  fun_induction readHalves s with
  | case1 s n hread => cases hread.symm.trans (read_of_overread h)
  | case2 s f hread hs ihfront ihback =>
    rcases Nat.lt_or_ge s.length 2 with hl | hl
    · -- One character: its first half is read first, and that is nothing at all.
      rw [readHalves_of_eq_nil (halves_fst_eq_nil hl)]
      rfl
    obtain ⟨hfront, hback⟩ := looksNumeric_halves h.looksNumeric hl
    rcases hfront.isDigits_or with hfront | hfront
    · rcases hback.isDigits_or with hback | hback
      · exact absurd (halves_append s ▸ IsDigits.append hfront.2 hback) h.not_isDigits
      · rw [readHalves_of_isDigits hfront, ihback hfront.1 hback]
        rfl
    · rw [ihfront hfront]
      rfl
  | case3 s f hread hs =>
    obtain rfl := Except.error.inj (hread.symm.trans (read_of_overread h))
    rfl

/-! ## Both ways

A sign is taken off in writing only; reading knows no sign.  So the way back is one for integers
that are not negative. -/

theorem readByHalves_of_isDigits (h : IsDigits s) :
    readByHalves s = .ok (Text.digitsValue s : Int) := by
  rw [readByHalves, readHalves_of_isDigits h]
  rfl

theorem readByHalves_of_placeless (h : Overread s .malformedInteger) :
    readByHalves s = .error .malformedInteger := by
  rw [readByHalves, readHalves_of_placeless h]
  rfl

/-- What does not look numeric is not taken apart. -/
theorem readByHalves_of_not_looksNumeric (h : ¬ LooksNumeric s) : readByHalves s = read s := by
  rw [readByHalves, readHalves]
  split
  · rename_i hread
    exact hread.symm
  · rename_i hread
    rw [dif_neg fun hs => h ⟨hs.1, List.all_eq_true.1 hs.2⟩, hread]
    rfl

/-- **Reading by halves gives what reading at once would give**, whatever the text. -/
theorem readByHalves_eq (s : Text) : readByHalves s = readLong s := by
  by_cases h : IsDigits s
  · rw [readByHalves_of_isDigits h, readLong, Text.digitRun?_eq_some h.1 h.2]
    exact congrArg Except.ok (indexOf_eq_digitsValue s).symm
  · rw [readLong, digitRun?_of_not_isDigits h]
    by_cases hlooks : LooksNumeric s
    · have hplaceless := hlooks.isDigits_or.resolve_left h
      exact (readByHalves_of_placeless hplaceless).trans (read_of_overread hplaceless).symm
    · exact readByHalves_of_not_looksNumeric hlooks

theorem readByHalves_decimalByHalves {n : Int} (hn : 0 ≤ n) :
    readByHalves (decimalByHalves n) = .ok n := by
  obtain ⟨n, rfl⟩ := Int.eq_ofNat_of_zero_le hn
  rw [decimalByHalves_eq, signedDecimal_natCast, readByHalves_of_isDigits (isDigits_decimal n),
    digitsValue_decimal]

/-- **Both conversions, whatever the length.**  Writing gives the canonical numeral; reading decimal
digits of any script gives what they write, so that it undoes writing; and reading digits of which
one has no place value is a fault. -/
theorem long_conversions :
    (∀ n : Int, IsCanonical n (decimalByHalves n)) ∧
    (∀ s : Text, IsDigits s → readByHalves s = .ok (Text.digitsValue s : Int)) ∧
    (∀ n : Int, 0 ≤ n → readByHalves (decimalByHalves n) = .ok n) ∧
    ∀ s : Text, (∀ c ∈ s, Text.isDigitLike c) → (∃ c ∈ s, Text.isDecimalDigit c = false) →
      readByHalves s = .error .malformedInteger := by
  refine ⟨fun n => isCanonical_iff.2 (decimalByHalves_eq n), fun s => readByHalves_of_isDigits,
    fun n => readByHalves_decimalByHalves, ?_⟩
  rintro s hlike ⟨c, hc, hd⟩
  exact readByHalves_of_placeless (.placeless ⟨List.ne_nil_of_mem hc, hlike⟩ hc hd)

/-- Digits of three scripts with a zero in front, a number beyond the limit, and a superscript at
the end. -/
theorem long_conversions_beyond :
    readByHalves (['٠', '१'] ++ (List.replicate 4300 '0' ++ ['7'])) = .ok (10 ^ 4301 + 7) ∧
    readByHalves (decimalByHalves (10 ^ 4301)) = .ok (10 ^ 4301) ∧
    readByHalves (List.replicate 4300 '7' ++ ['²']) = .error .malformedInteger := by
  obtain ⟨-, hread, hboth, hfault⟩ := long_conversions
  have hseven : ['7'] = decimal 7 := by decide
  have hscripts : ∀ c ∈ ['٠', '१'], Text.isDecimalDigit c := List.all_iff_forall_prop.1 (by decide)
  have hscriptsValue : Text.digitsValue ['٠', '१'] = 1 := by decide
  have hzeros (k : Nat) : IsDigits (List.replicate k '0' ++ ['7']) := by
    refine .append (fun c hc => ?_) (hseven ▸ isDigits_decimal 7)
    rw [List.eq_of_mem_replicate hc]
    decide
  have hvalue (k : Nat) :
      (Text.digitsValue (['٠', '१'] ++ (List.replicate k '0' ++ ['7'])) : Int)
        = 10 ^ (k + 1) + 7 := by
    rw [Text.digitsValue_append _ (hzeros k).2, List.length_append, List.length_replicate,
      hscriptsValue, hseven, digitsValue_zeros_append, Nat.one_mul]
    exact Int.natCast_add _ _
  refine ⟨?_, hboth _ (by positivity), hfault _ (fun c hc => ?_) ⟨'²', ?_, by decide⟩⟩
  · rw [hread _ (.append hscripts (hzeros 4300)), hvalue]
  · rcases List.mem_append.1 hc with hc | hc
    · rw [List.eq_of_mem_replicate hc]
      decide
    · rw [List.mem_singleton.1 hc]
      decide
  · exact List.mem_append_right _ List.mem_cons_self

end Numeral

/-! ## Values and texts of any length

This is what the two conversions are there for: an integer that is an argument has a text whatever
its length, and a text of digits is read as an integer. -/

theorem Value.toText_int [Nesting] (n : Int) :
    (int n).toText = .ok (.good (Numeral.decimalByHalves n)) := by
  rw [Numeral.decimalByHalves_eq, toText]

theorem Text.toInteger?_sign_append {sign ds : Text} {negative : Bool} (hs : IsSign sign negative)
    (h : IsDigits ds) :
    toInteger? (sign ++ ds) =
      (Numeral.readByHalves ds).toOption.map fun n => if negative then -n else n := by
  rw [Numeral.readByHalves_of_isDigits h]
  exact toInteger?_of_isLiteral (.digits hs h)

end Stencil
