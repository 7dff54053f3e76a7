import Mathlib.Data.List.Basic
import Mathlib.Data.List.TakeWhile
import Stencil.Proofs.Coercion.Literal
import Stencil.Proofs.Directive.Canonical
import Stencil.Proofs.Json.Grammar
import Stencil.Proofs.Number.Shortest

/-!
# Numbers of JSON

Integers and finite doubles are displayed as numbers of JSON: without superfluous zeros in front,
with at least one digit on either side of a point (`Json.isWhole_decimal`,
`Json.display_finite`).

Reading a number goes on as long as it can, so its parts are read back wherever something follows
that can end a value (`Json.Ends`): `Json.readNumber_decimal` for an integer within the digit limit
and `Json.readNumber_double` for a number with a fraction or an exponent, which is always read as
some double.

The parts of a number are characterised where they are made, by what the layouts have in common
(`Json.IsProper`), so that the three layouts of directives and the shortest one need no grammar of
their own.
-/

set_option autoImplicit false

namespace Stencil
namespace Json

/-! ## Digits

What must not begin with a zero is a numeral of a positive number, also when only the first of its
digits are taken, or when the zeros at its end are dropped. -/

/-- Digits that do not begin with a zero. -/
def IsSignificant (s : Text) : Prop := IsDigits s ∧ s.head? ≠ some '0'

theorem isDigit_digitChar {d : Nat} (h : d < 10) : (Nat.digitChar d).isDigit := by
  have hall : ∀ d < 10, (Nat.digitChar d).isDigit := by decide
  exact hall d h

/-- A digit is no other character. -/
theorem ne_of_isDigit {c d : Char} (hd : d.isDigit) (hc : c.isDigit = false) : d ≠ c := by
  rintro rfl
  rw [hd] at hc
  cases hc

theorem isDigits_decimal (n : Nat) : IsDigits (Numeral.decimal n) := by
  refine ⟨Numeral.decimal_ne_nil n, fun c hc => ?_⟩
  obtain ⟨d, hd, rfl⟩ := Numeral.exists_digit_of_mem_text (by decide) hc
  exact isDigit_digitChar hd

theorem isSignificant_decimal {n : Nat} (h : 0 < n) : IsSignificant (Numeral.decimal n) :=
  ⟨isDigits_decimal n, Numeral.head?_decimal_ne_zero h⟩

theorem isWhole_decimal (n : Nat) : IsWhole (Numeral.decimal n) := by
  rcases Nat.eq_zero_or_pos n with rfl | hn
  · have h0 : Numeral.decimal 0 = ['0'] := Numeral.text_zero (by decide)
    rw [h0]
    exact .zero
  · exact .digits (isDigits_decimal n) (Numeral.head?_decimal_ne_zero hn)

theorem IsWhole.isDigits {ds : Text} (h : IsWhole ds) : IsDigits ds := by
  cases h with
  | zero => exact ⟨nofun, by simp⟩
  | digits hd => exact hd

theorem isDigit_of_mem_fill {n : Nat} {c : Char} (h : c ∈ Text.fill '0' n) : c.isDigit := by
  rw [List.eq_of_mem_replicate h]
  decide

theorem IsDigits.padZeros {s : Text} (h : IsDigits s) (width : Nat) :
    IsDigits (Numeral.padZeros width s) := by
  refine ⟨by simp [Numeral.padZeros, h.1], fun c hc => ?_⟩
  rcases Numeral.mem_padZeros hc with rfl | hc
  · decide
  · exact h.2 c hc

theorem IsSignificant.of_prefix {s t : Text} (hs : IsSignificant s) (ht : t <+: s)
    (hne : t ≠ []) : IsSignificant t := by
  obtain ⟨u, rfl⟩ := ht
  obtain ⟨c, t, rfl⟩ := List.exists_cons_of_ne_nil hne
  exact ⟨⟨by simp, fun d hd => hs.1.2 d (List.mem_append_left u hd)⟩, hs.2⟩

/-- Significant digits with digits after them. -/
theorem IsSignificant.append {s t : Text} (hs : IsSignificant s) (ht : ∀ c ∈ t, c.isDigit) :
    IsSignificant (s ++ t) := by
  obtain ⟨c, s, rfl⟩ := List.exists_cons_of_ne_nil hs.1.1
  refine ⟨⟨by simp, fun d hd => ?_⟩, hs.2⟩
  rcases List.mem_append.1 hd with hd | hd
  · exact hs.1.2 d hd
  · exact ht d hd

/-- Zeros at the end may be dropped, for the first digit is none. -/
theorem IsSignificant.dropZeros {s : Text} (hs : IsSignificant s) :
    IsSignificant (s.reverse.dropWhile (· = '0')).reverse := by
  refine hs.of_prefix ?_ fun hnil => ?_
  · rw [← List.reverse_suffix, List.reverse_reverse]
    exact List.dropWhile_suffix _
  · obtain ⟨c, t, rfl⟩ := List.exists_cons_of_ne_nil hs.1.1
    have hzero := List.dropWhile_eq_nil_iff.1 (List.reverse_eq_nil_iff.1 hnil) c (by simp)
    exact hs.2 (congrArg some (of_decide_eq_true hzero))

/-! ## Layouts

A layout puts the digits of one integer on both sides of a point.  That the whole part is proper
depends on where the point is put: in front of the digits it is a zero, and otherwise it begins with
the first digit of the integer. -/

/-- The parts of a number that is laid out as JSON has it. -/
structure IsProper (f : Layout.Form) : Prop where
  whole : IsWhole f.whole
  fraction : ∀ c ∈ f.fraction, c.isDigit

/-- The shortest layout is proper in its three forms: with zeros in front of the digits, with the
point between or behind them, and with an exponent. -/
theorem isProper_shortForm {n : Nat} (hn : 0 < n) (k : Int) :
    IsProper (Layout.shortForm n k) := by
  have hds := (isSignificant_decimal hn).dropZeros
  simp only [Layout.shortForm]
  generalize ((Numeral.decimal n).reverse.dropWhile (· = '0')).reverse = ds at hds ⊢
  have htake {w : Nat} (hw : 0 < w) : IsSignificant (ds.take w) := by
    refine hds.of_prefix (List.take_prefix w ds) ?_
    simp [hds.1.1, Nat.ne_of_gt hw]
  have hdrop (w : Nat) : ∀ c ∈ ds.drop w, c.isDigit :=
    fun c hc => hds.1.2 c (List.mem_of_mem_drop hc)
  split
  · split
    · refine ⟨.zero, fun c hc => ?_⟩
      rcases List.mem_append.1 hc with hc | hc
      · exact isDigit_of_mem_fill hc
      · exact hds.1.2 c hc
    · have hpos : 0 < ((Numeral.decimal n).length + k).toNat := by omega
      have hw : IsSignificant (ds.take ((Numeral.decimal n).length + k).toNat ++
          Text.fill '0' (((Numeral.decimal n).length + k).toNat - ds.length)) :=
        (htake hpos).append fun c hc => isDigit_of_mem_fill hc
      exact ⟨.digits hw.1 hw.2, hdrop _⟩
  · have hw := htake Nat.one_pos
    exact ⟨.digits hw.1 hw.2, hdrop 1⟩

section

variable (p : Nat) (x : Rounding.Quotient)

theorem isProper_fixed : IsProper (Layout.fixed p x) := by
  refine ⟨isWhole_decimal _, fun c hc => ?_⟩
  simp only [Layout.fixed] at hc
  split at hc
  · cases hc
  · exact ((isDigits_decimal _).padZeros p).2 c hc

theorem isProper_exponential : IsProper (Layout.exponential p x) := by
  have hds := (isDigits_decimal (Layout.significant p x).1).padZeros (p + 1)
  have hwhole : (Layout.exponential p x).whole =
      (Numeral.padZeros (p + 1) (Numeral.decimal (Layout.significant p x).1)).take 1 := rfl
  have hfraction : (Layout.exponential p x).fraction =
      (Numeral.padZeros (p + 1) (Numeral.decimal (Layout.significant p x).1)).drop 1 := rfl
  generalize Numeral.padZeros (p + 1) (Numeral.decimal (Layout.significant p x).1) = ds at *
  obtain ⟨d, ds, rfl⟩ := List.exists_cons_of_ne_nil hds.1
  refine ⟨?_, fun c hc => hds.2 c (List.mem_of_mem_drop (hfraction ▸ hc))⟩
  rw [hwhole]
  by_cases hd : d = '0'
  · rw [hd]
    exact .zero
  · refine .digits ⟨nofun, fun c hc => hds.2 c (List.mem_of_mem_take hc)⟩ ?_
    simpa using hd

theorem isProper_generalFull : IsProper (Layout.generalFull p x) := by
  rw [Layout.generalFull]
  split
  · exact isProper_fixed _ x
  · exact isProper_exponential _ x

theorem IsProper.dropZeros {f : Layout.Form} (h : IsProper f) : IsProper f.dropZeros := by
  refine ⟨h.whole, fun c hc => h.fraction c ?_⟩
  exact List.mem_reverse.1 ((List.dropWhile_sublist _).subset (List.mem_reverse.1 hc))

/-- The general layout is one of the other two, with or without the zeros at its end. -/
theorem isProper_general (keepZeros : Bool) : IsProper (Layout.general keepZeros p x) := by
  rw [Layout.general]
  split
  · exact isProper_generalFull p x
  · exact (isProper_generalFull _ x).dropZeros

end

theorem isExponent_exponentText (e : Int) : IsExponent (Layout.Form.exponentText e) := by
  have hds := (isDigits_decimal e.natAbs).padZeros 2
  have hsigned {sign : Text} (hs : sign ∈ [[], ['-'], ['+']]) :
      IsExponent ('e' :: (sign ++ Numeral.padZeros 2 (Numeral.decimal e.natAbs))) :=
    .present (by decide) hs hds
  rw [Layout.Form.exponentText]
  split
  · exact hsigned (List.mem_cons_of_mem _ List.mem_cons_self)
  · exact hsigned (List.mem_cons_of_mem _ (List.mem_cons_of_mem _ List.mem_cons_self))

/-- What is rendered has the parts of a number, of which the last two are there if the form has
them. -/
theorem IsProper.render {f : Layout.Form} (h : IsProper f) :
    ∃ fraction exponent, IsFraction fraction ∧ IsExponent exponent ∧
      (f.fraction ≠ [] → fraction ≠ []) ∧ (f.exponent ≠ none → exponent ≠ []) ∧
      f.render false = f.whole ++ fraction ++ exponent := by
  obtain ⟨whole, fraction, exponent⟩ := f
  have hfraction : ∃ s, IsFraction s ∧ (fraction ≠ [] → s ≠ []) ∧
      (if fraction.isEmpty && !false then [] else '.' :: fraction) = s := by
    cases fraction with
    | nil => exact ⟨[], .absent, id, rfl⟩
    | cons d ds => exact ⟨_, .present ⟨by simp, h.fraction⟩, nofun, rfl⟩
  obtain ⟨s, hs, hne, hs'⟩ := hfraction
  cases exponent with
  | none => exact ⟨s, [], hs, .absent, hne, fun hn => absurd rfl hn, by rw [← hs']; rfl⟩
  | some e =>
    exact ⟨s, _, hs, isExponent_exponentText e, hne, nofun, by rw [← hs']; rfl⟩

/-- **A finite double is displayed as a number of JSON**, with a fraction or an exponent. -/
theorem display_finite (negative : Bool) (m : Nat) (e : Int) (hd : IsDouble m e) :
    ∃ whole fraction exponent, IsWhole whole ∧ IsFraction fraction ∧ IsExponent exponent ∧
      (fraction ≠ [] ∨ exponent ≠ []) ∧
      Layout.display true (.finite negative m e hd) =
        Layout.signText negative ++ (whole ++ fraction ++ exponent) := by
  -- zero has a layout of its own, which is proper as well
  have hform : IsProper (if m = 0 then ⟨['0'], [], none⟩ else
      Layout.shortForm (Shortest.shortest m e).1 (Shortest.shortest m e).2) := by
    split
    · exact ⟨.zero, nofun⟩
    · exact isProper_shortForm (Shortest.shortest_pos (by omega) e) _
  simp only [Layout.display]
  generalize (if m = 0 then (⟨['0'], [], none⟩ : Layout.Form) else
      Layout.shortForm (Shortest.shortest m e).1 (Shortest.shortest m e).2) = form at hform ⊢
  by_cases hplain : form.fraction = [] ∧ form.exponent = none
  · -- set off from an integer by the fraction of one zero
    have hset : IsProper { form with fraction := ['0'] } :=
      ⟨hform.whole, by simp⟩
    obtain ⟨fraction, exponent, hf, he, hne, -, hrender⟩ := hset.render
    refine ⟨form.whole, fraction, exponent, hform.whole, hf, he, .inl (hne (by simp)), ?_⟩
    rw [if_pos (by simp [hplain]), hrender]
  · obtain ⟨fraction, exponent, hf, he, hnef, hnee, hrender⟩ := hform.render
    refine ⟨form.whole, fraction, exponent, hform.whole, hf, he, ?_, ?_⟩
    · by_cases hfn : form.fraction = []
      · exact .inr (hnee fun hn => hplain ⟨hfn, hn⟩)
      · exact .inl (hnef hfn)
    · have hcond : (true && form.fraction.isEmpty && form.exponent.isNone) = false := by
        rw [Bool.true_and, Bool.and_eq_false_iff, Option.isNone_eq_false_iff]
        by_cases hfn : form.fraction = []
        · exact .inr (Option.ne_none_iff_isSome.1 fun hn => hplain ⟨hfn, hn⟩)
        · exact .inl (by simpa using hfn)
      rw [hcond, if_neg Bool.false_ne_true, hrender]

/-! ## Reading

The parts are read from left to right.  Each reader takes what it can, so its part is read back if
the part behind does not begin with a character of it; and the last one, if what follows ends a
value. -/

/-- What may follow a value without white space: the end, a comma or a closing bracket. -/
def Ends (rest : Text) : Prop := ∀ c, rest.head? = some c → c ∈ [',', ']', '\x7d']

/-- No part of a number goes on with what ends a value. -/
theorem Ends.head {rest : Text} (h : Ends rest) :
    ∀ c, rest.head? = some c → c.isDigit = false ∧ c ≠ '.' ∧ c ≠ 'e' ∧ c ≠ 'E' := by
  have hall : ∀ c ∈ [',', ']', '\x7d'], c.isDigit = false ∧ c ≠ '.' ∧ c ≠ 'e' ∧ c ≠ 'E' :=
    List.all_iff_forall_prop.1 (by decide)
  exact fun c hc => hall c (h c hc)

theorem asciiDigits_append {ds t : Text} (hd : ∀ c ∈ ds, c.isDigit)
    (ht : ∀ c, t.head? = some c → c.isDigit = false) : asciiDigits (ds ++ t) = (ds, t) :=
  Text.run_append_of_forall hd ht

theorem whole?_append {whole t : Text} (h : IsWhole whole)
    (ht : ∀ c, t.head? = some c → c.isDigit = false) : whole? (whole ++ t) = some (whole, t) := by
  cases h with
  | zero => rfl
  | digits hd h0 =>
    obtain ⟨d, ds, rfl⟩ := List.exists_cons_of_ne_nil hd.1
    have hrun := asciiDigits_append hd.2 ht
    rw [List.cons_append] at hrun ⊢
    rw [whole?]
    · rw [hrun]
    · rintro rest ⟨⟩
      exact h0 rfl

/-- A fraction is read back before anything that is no digit.  Where there is none, what follows
must not begin with a point either. -/
theorem fraction_append {s t : Text} (h : IsFraction s)
    (ht : ∀ c, t.head? = some c → c.isDigit = false ∧ c ≠ '.') : fraction (s ++ t) = (s, t) := by
  cases h with
  | absent =>
    rw [List.nil_append]
    unfold fraction
    split
    · exact absurd rfl (ht '.' rfl).2
    · rfl
  | present hd =>
    obtain ⟨d, ds, rfl⟩ := List.exists_cons_of_ne_nil hd.1
    have hrun := asciiDigits_append hd.2 fun c hc => (ht c hc).1
    rw [List.cons_append, fraction, hrun]

theorem exponentSign_append {sign ds t : Text} (hs : sign ∈ [[], ['-'], ['+']])
    (hd : IsDigits ds) : exponentSign (sign ++ (ds ++ t)) = (sign, ds ++ t) := by
  simp only [List.mem_cons, List.not_mem_nil, or_false] at hs
  rcases hs with rfl | rfl | rfl
  · obtain ⟨d, ds, rfl⟩ := List.exists_cons_of_ne_nil hd.1
    have hdigit : d.isDigit := hd.2 d List.mem_cons_self
    rw [List.nil_append, List.cons_append, exponentSign]
    · rintro s ⟨⟩
      exact absurd hdigit (by decide)
    · rintro s ⟨⟩
      exact absurd hdigit (by decide)
  · rfl
  · rfl

/-- An exponent is read back before anything that is no digit.  Where there is none, what follows
must not begin with its letter either. -/
theorem exponent_append {s t : Text} (h : IsExponent s)
    (ht : ∀ c, t.head? = some c → c.isDigit = false ∧ c ≠ 'e' ∧ c ≠ 'E') :
    exponent (s ++ t) = (s, t) := by
  cases h with
  | absent =>
    rw [List.nil_append]
    cases t with
    | nil => rfl
    | cons c t =>
      have hc := ht c rfl
      rw [exponent, if_neg (not_or.2 hc.2)]
  | @present e sign ds he hs hd =>
    have hrun := asciiDigits_append hd.2 fun c hc => (ht c hc).1
    have he : e = 'e' ∨ e = 'E' := by simpa using he
    obtain ⟨d, ds, rfl⟩ := List.exists_cons_of_ne_nil hd.1
    rw [List.cons_append, List.append_assoc, exponent, if_pos he, exponentSign_append hs hd, hrun]

/-- What follows a fraction goes on neither with a digit nor with a point. -/
theorem head?_exponent_append {exponent rest : Text} (he : IsExponent exponent)
    (hrest : Ends rest) :
    ∀ c, (exponent ++ rest).head? = some c → c.isDigit = false ∧ c ≠ '.' := by
  cases he with
  | absent => exact fun c hc => ⟨(hrest.head c hc).1, (hrest.head c hc).2.1⟩
  | present hc hs hd =>
    rintro c ⟨⟩
    have hall : ∀ c ∈ ['e', 'E'], c.isDigit = false ∧ c ≠ '.' :=
      List.all_iff_forall_prop.1 (by decide)
    exact hall _ hc

/-- What follows the whole part does not begin with a digit. -/
theorem head?_fraction_append {fraction exponent rest : Text} (hf : IsFraction fraction)
    (he : IsExponent exponent) (hrest : Ends rest) :
    ∀ c, (fraction ++ exponent ++ rest).head? = some c → c.isDigit = false := by
  cases hf with
  | absent => exact fun c hc => (head?_exponent_append he hrest c hc).1
  | present hd =>
    rintro c ⟨⟩
    decide

variable {whole fr ex rest : Text}

/-- The parts of a number are read one after the other. -/
theorem readNumber_append (hw : IsWhole whole) (hf : IsFraction fr)
    (he : IsExponent ex) (hrest : Ends rest) :
    whole? (whole ++ (fr ++ ex ++ rest)) = some (whole, fr ++ ex ++ rest) ∧
      fraction (fr ++ ex ++ rest) = (fr, ex ++ rest) ∧ exponent (ex ++ rest) = (ex, rest) := by
  refine ⟨whole?_append hw (head?_fraction_append hf he hrest), ?_, ?_⟩
  · rw [List.append_assoc]
    exact fraction_append hf (head?_exponent_append he hrest)
  · exact exponent_append he fun c hc => ⟨(hrest.head c hc).1, (hrest.head c hc).2.2⟩

/-- **A number with a fraction or an exponent is read as a double.** -/
theorem readNumber_double (negative : Bool) (hw : IsWhole whole) (hf : IsFraction fr)
    (he : IsExponent ex) (hne : fr ≠ [] ∨ ex ≠ []) (hrest : Ends rest) :
    readNumber negative (whole ++ fr ++ ex ++ rest) =
      .ok (.float ((Binary64.readUnsigned? negative (whole ++ fr ++ ex)).getD .nan), rest) := by
  obtain ⟨h1, h2, h3⟩ := readNumber_append hw hf he hrest
  have hcond : (fr.isEmpty && ex.isEmpty) = false := by
    rw [Bool.and_eq_false_iff]
    simpa using hne
  rw [List.append_assoc, List.append_assoc, ← List.append_assoc fr, readNumber, h1]
  simp only [h2, h3, hcond]
  rfl

/-- **An integer within the digit limit is read as this integer.** -/
theorem readNumber_decimal (negative : Bool) {n : Nat}
    (hn : Numeral.decimalLength n ≤ Numeral.digitLimit) (hrest : Ends rest) :
    readNumber negative (Numeral.decimal n ++ rest) =
      .ok (.int (Numeral.signed negative n), rest) := by
  obtain ⟨h1, h2, h3⟩ :=
    readNumber_append (isWhole_decimal n) .absent .absent hrest
  have hdigits : (Numeral.decimal n).filterMap (Numeral.baseDigit? 10) = Numeral.digits 10 n := by
    have hread : ∀ d < 10, Numeral.baseDigit? 10 (Nat.digitChar d) = some d := by decide
    calc (Numeral.decimal n).filterMap (Numeral.baseDigit? 10)
        = (Numeral.digits 10 n).filterMap fun d => Numeral.baseDigit? 10 (Nat.digitChar d) :=
          List.filterMap_map
      _ = (Numeral.digits 10 n).filterMap some :=
          List.filterMap_congr fun d hd => hread d (Numeral.lt_ten_of_mem_digits hd)
      _ = Numeral.digits 10 n := List.filterMap_some
  have hlimited : Numeral.limited (Numeral.digits 10 n) = .ok n := by
    rw [Numeral.decimalLength] at hn
    rw [Numeral.limited, if_pos hn, Numeral.value_digits]
  simp only [List.nil_append] at h1 h2 h3
  rw [readNumber, h1]
  simp only [h2, h3, hdigits, hlimited]
  rfl

/-- A text that begins as a number is not one of the names. -/
theorem readScalar_number (negative : Bool) {s : Text} {d : Char} (hd : d.isDigit) :
    readScalar (Layout.signText negative ++ d :: s) = readNumber negative (d :: s) := by
  have hne : ∀ c ∈ ['n', 't', 'f', 'N', 'I', '-'], c ≠ d := by
    have hall : ∀ c ∈ ['n', 't', 'f', 'N', 'I', '-'], c.isDigit = false :=
      List.all_iff_forall_prop.1 (by decide)
    exact fun c hc => (ne_of_isDigit hd (hall c hc)).symm
  simp only [List.forall_mem_cons, List.not_mem_nil, false_implies, implies_true, and_true] at hne
  obtain ⟨hn, ht, hf, hN, hI, hminus⟩ := hne
  cases negative with
  | true =>
    simp [readScalar, names, Layout.signText, Text.after?, hI]
  | false =>
    simp [readScalar, names, Layout.signText, Text.after?, hn, ht, hf, hN, hI, hminus,
      Ne.symm hminus]

end Json
end Stencil
