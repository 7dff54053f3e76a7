import Stencil.Proofs.Format.Fixed
import Stencil.Proofs.Number.EnoughDigits

/-!
# Output in the shorter form

The general conversion chooses between the other two.  Which one it takes depends on the exponent
that the exponential conversion prints, which is the exponent after rounding, and in the alternate
form it prints just what that one prints.  In the plain form it drops the zeros at the end of the
fraction, and the point if nothing is left behind it (`Text.trimFraction`).

`Directive.format_general` says all of this of the texts alone: the exponent is read from the
output of the exponential conversion (`Text.exponent?`), and the zeros are dropped from the output
of the alternate form.
-/

set_option autoImplicit false

namespace Stencil

/-! ## The parts of a printed number

These are read from a text, with no form behind it.  A number ends where its exponent begins, which
is at the first letter, and its fraction begins at the point. -/

namespace Text

/-- The letter in front of an exponent. -/
def isExponentLetter (c : Char) : Bool := c = 'e' || c = 'E'

/-- A printed number apart from its exponent, and the exponent with its letter. -/
def splitExponent (s : Text) : Text × Text := run (fun c => !isExponentLetter c) s

/-- The exponent of a printed number. -/
def exponent? (s : Text) : Option Int :=
  match (splitExponent s).2 with
  | [] => none
  | _ :: power => Numeral.literal? power

/-- A printed number without the zeros at the end of its fraction, and without the point if it then
stands at the end of the mantissa. -/
def trimFraction (s : Text) : Text :=
  let (mantissa, power) := splitExponent s
  let (whole, fraction) := run (· ≠ '.') mantissa
  let fraction := (fraction.reverse.dropWhile (· = '0')).reverse
  whole ++ (if fraction = ['.'] then [] else fraction) ++ power

variable {front fraction power : Text} {letter : Char}

/-- What stands behind the letter is read as the exponent. -/
theorem exponent?_append (hf : ∀ c ∈ front, isExponentLetter c = false)
    (hl : isExponentLetter letter) :
    exponent? (front ++ letter :: power) = Numeral.literal? power := by
  have hsplit : splitExponent (front ++ letter :: power) = (front, letter :: power) :=
    run_append_of_forall (fun c hc => by simp [hf c hc]) (by rintro c ⟨⟩; simp [hl])
  rw [exponent?, hsplit]

/-- The fraction is trimmed between the point and the exponent, and the point goes with its last
digit. -/
theorem trimFraction_append (hf : ∀ c ∈ front, isExponentLetter c = false ∧ c ≠ '.')
    (hd : ∀ c ∈ fraction, isExponentLetter c = false)
    (hp : ∀ c, power.head? = some c → isExponentLetter c) :
    trimFraction (front ++ '.' :: fraction ++ power) =
      let digits := (fraction.reverse.dropWhile (· = '0')).reverse
      front ++ (if digits = [] then [] else '.' :: digits) ++ power := by
  have hsplit : splitExponent (front ++ '.' :: fraction ++ power) =
      (front ++ '.' :: fraction, power) := by
    refine run_append_of_forall (fun c hc => ?_) fun c hc => by simp [hp c hc]
    rcases List.mem_append.1 hc with hc | hc
    · simp [(hf c hc).1]
    · rcases List.mem_cons.1 hc with rfl | hc
      · rfl
      · simp [hd c hc]
  have hpoint : run (· ≠ '.') (front ++ '.' :: fraction) = (front, '.' :: fraction) :=
    run_append_of_forall (fun c hc => by simp [(hf c hc).2]) (by rintro c ⟨⟩; rfl)
  -- the zeros are dropped from the end, and never reach the point
  have hzeros : (('.' :: fraction).reverse.dropWhile (· = '0')).reverse =
      '.' :: (fraction.reverse.dropWhile (· = '0')).reverse := by
    rw [List.reverse_cons, List.dropWhile_append]
    split
    · rename_i hnil
      rw [List.isEmpty_iff.1 hnil]
      rfl
    · rw [List.reverse_append]
      rfl
  simp only [trimFraction, hsplit, hpoint, hzeros, List.cons.injEq, true_and]

end Text

/-! ## Output

What is read from a printed number is what the form had that was printed. -/

namespace Directive

variable {d : Directive} {o : Operands} {f : Layout.Form} {sign : Text}

/-! ### Texts of forms

Signs, digits and the point are no letters of an exponent, in either case.  So the exponent of a
form is found where it was put. -/

theorem not_isExponentLetter_of_isDigit {c : Char} (h : c.isDigit) :
    Text.isExponentLetter c = false ∧ c ≠ '.' := by
  have he : c ≠ 'e' := Json.ne_of_isDigit h rfl
  have hE : c ≠ 'E' := Json.ne_of_isDigit h rfl
  exact ⟨by simp [Text.isExponentLetter, he, hE], Json.ne_of_isDigit h rfl⟩

/-- No letter of an exponent stands in front of the point, and no other point. -/
theorem not_isExponentLetter_of_mem_front (hs : sign ∈ signs) (hf : Json.IsProper f) :
    ∀ c ∈ sign ++ f.whole, Text.isExponentLetter c = false ∧ c ≠ '.' := by
  have hsigns : ∀ s ∈ signs, s.all fun c => !Text.isExponentLetter c && c ≠ '.' := by decide
  intro c hc
  rcases List.mem_append.1 hc with hc | hc
  · simpa using List.all_eq_true.1 (hsigns sign hs) c hc
  · exact not_isExponentLetter_of_isDigit (hf.whole.isDigits.2 c hc)

/-- An exponent is a letter, and behind it a number that is read as the exponent. -/
theorem exists_inCase_exponentText (d : Directive) (X : ℤ) :
    ∃ letter power, d.inCase (Layout.Form.exponentText X) = letter :: power ∧
      Text.isExponentLetter letter ∧ Numeral.literal? power = some X := by
  have hsame (s : Text) (hs : s ∈ [['-'], ['+']]) :
      d.inCase (s ++ Numeral.padZeros 2 (Numeral.decimal X.natAbs)) =
        s ++ Numeral.padZeros 2 (Numeral.decimal X.natAbs) := by
    have hsigns : ∀ s ∈ [['-'], ['+']], s.all fun c => c.toUpper = c := by decide
    refine inCase_eq_self fun c hc => ?_
    rcases List.mem_append.1 hc with hc | hc
    · simpa using List.all_eq_true.1 (hsigns s hs) c hc
    · exact toUpper_of_isDigit (((Json.isDigits_decimal _).padZeros 2).2 c hc)
  have hletter : ∃ letter, d.inCase ['e'] = [letter] ∧ Text.isExponentLetter letter := by
    rw [inCase]
    split
    · exact ⟨'E', rfl, rfl⟩
    · exact ⟨'e', rfl, rfl⟩
  obtain ⟨letter, hcase, hl⟩ := hletter
  refine ⟨letter, (if X < 0 then ['-'] else ['+']) ++
    Numeral.padZeros 2 (Numeral.decimal X.natAbs), ?_, hl, ?_⟩
  · rw [← hsame _ (by split <;> simp), ← List.singleton_append (x := letter), ← hcase,
      ← inCase_append]
    congr 1
    rw [Layout.Form.exponentText]
    split <;> rfl
  · have hminus : decide ((if X < 0 then ['-'] else ['+']) = ['-']) = decide (X < 0) := by
      split <;> simp [*]
    rw [Numeral.padZeros, Numeral.decimal, Numeral.literal?_sign (by split <;> simp), hminus,
      Numeral.signed_natAbs]

theorem exponent?_render (hs : sign ∈ signs) (hf : Json.IsProper f) {X : ℤ}
    (hX : f.exponent = some X) (keepPoint : Bool) :
    Text.exponent? (sign ++ d.inCase (f.render keepPoint)) = some X := by
  obtain ⟨letter, power, hcase, hl, hread⟩ := exists_inCase_exponentText d X
  have hfront := not_isExponentLetter_of_mem_front hs hf
  rw [inCase_render hf, hX, Option.elim_some, hcase, ← List.append_assoc, ← List.append_assoc,
    Text.exponent?_append ?_ hl, hread]
  intro c hc
  rcases List.mem_append.1 hc with hc | hc
  · exact (hfront c hc).1
  · split at hc
    · cases hc
    · rcases List.mem_cons.1 hc with rfl | hc
      · rfl
      · exact (not_isExponentLetter_of_isDigit (hf.fraction c hc)).1

theorem trimFraction_render (hs : sign ∈ signs) (hf : Json.IsProper f) :
    Text.trimFraction (sign ++ d.inCase (f.render true)) =
      sign ++ d.inCase (f.dropZeros.render false) := by
  have hfront := not_isExponentLetter_of_mem_front hs hf
  have hpower : ∀ c, (f.exponent.elim [] fun X =>
      d.inCase (Layout.Form.exponentText X)).head? = some c → Text.isExponentLetter c := by
    intro c hc
    cases hX : f.exponent with
    | none =>
      rw [hX] at hc
      cases hc
    | some X =>
      obtain ⟨letter, power, hcase, hl, -⟩ := exists_inCase_exponentText d X
      rw [hX, Option.elim_some, hcase] at hc
      cases hc
      exact hl
  have htrim := Text.trimFraction_append hfront
    (fun c hc => (not_isExponentLetter_of_isDigit (hf.fraction c hc)).1) hpower
  rw [inCase_render hf, inCase_render hf.dropZeros]
  simp only [Bool.not_true, Bool.and_false, Bool.false_eq_true, if_false, Bool.not_false,
    Bool.and_true, List.isEmpty_iff]
  simp only [List.append_assoc, List.cons_append] at htrim ⊢
  rw [htrim]
  rfl

/-! ### The choice

The three conversions agree on everything but the style, so it is enough to compare the layouts.
They agree on the precision too, once a precision of zero counts as one. -/

/-- The general conversion, and the fixed and the exponential one that it chooses from. -/
def generalTriples : List (Conversion × Conversion × Conversion) :=
  [(.shortest, .fixed, .exponent), (.shortestUpper, .fixedUpper, .exponentUpper)]

/-- The directive with another conversion, in the plain form or in the alternate one. -/
def converting (d : Directive) (sharp : Bool) (c : Conversion) : Directive :=
  { d with conversion := c, flags := if sharp then .alternate :: d.flags else d.flags }

/-- The operands with another precision. -/
def withPrecision (o : Operands) (p : ℤ) : Operands := { o with precision := some (.literal p) }

variable {negative : Bool} {m : ℕ} {e : ℤ} {h : IsDouble m e} {g c c' : Conversion}

theorem format_converting [Nesting] {style : Layout.Style} (hc : c.family = .float style)
    (hu : c.isUpper = g.isUpper) (ha : .alternate ∉ d.flags) (hw : widthOf o = none)
    (hx : o.value = .float (.finite negative m e h)) {p : ℕ}
    (hp : (precisionOf o).elim 6 Int.toNat = p) (hmax : p ≤ 2 ^ 31 - 1) (sharp : Bool) :
    (d.converting sharp c).format o = .ok (d.sign negative ++
      (d.converting false g).inCase (Layout.text style sharp p (Binary64.magnitude m e))) := by
  have halternate : (d.converting sharp c).alternate = sharp := by
    cases sharp <;> simp [alternate, converting, ha]
  have hsign : (d.converting sharp c).sign negative = d.sign negative := by
    cases sharp <;> simp [sign, converting]
  have hcase (s : Text) : (d.converting sharp c).inCase s = (d.converting false g).inCase s := by
    unfold inCase converting
    rw [hu]
  rw [format_float hc hw hx hp hmax, halternate, hsign, hcase]

/-- With a precision of its own, a form is the layout with so many digits. -/
theorem format_withPrecision [Nesting] {style : Layout.Style} (hc : c.family = .float style)
    (hu : c.isUpper = g.isUpper) (ha : .alternate ∉ d.flags) (hw : widthOf o = none)
    (hx : o.value = .float (.finite negative m e h)) {q : ℤ} {p : ℕ} (hq : q = p)
    (hmax : p ≤ 2 ^ 31 - 1) (sharp : Bool) :
    (d.converting sharp c).format (withPrecision o q) = .ok (d.sign negative ++
      (d.converting false g).inCase (Layout.text style sharp p (Binary64.magnitude m e))) := by
  subst hq
  have hprecision : precisionOf (withPrecision o p) = some (p : ℤ) :=
    Option.filter_eq_some_iff.2 ⟨rfl, decide_eq_true (Int.natCast_nonneg p)⟩
  refine format_converting (o := withPrecision o p) hc hu ha hw hx ?_ hmax sharp
  rw [hprecision]
  rfl

/-- **The general conversion takes one of the other two forms**, as the exponent that the
exponential conversion prints says: in the alternate form as it is, and in the plain form without
the zeros at the end of its fraction. -/
theorem format_general [Nesting] (d : Directive) (o : Operands) (hc : (g, c, c') ∈ generalTriples)
    (ha : .alternate ∉ d.flags) (hw : widthOf o = none)
    (hx : o.value = .float (.finite negative m e h)) {p : ℕ}
    (hp : max 1 ((precisionOf o).elim 6 Int.toNat) = p) (hmax : p ≤ 2 ^ 30) :
    ∃ s X t,
      (d.converting false c').format (withPrecision o (p - 1)) = .ok s ∧
      Text.exponent? s = some X ∧
      (d.converting true g).format o = .ok t ∧
      (if -4 ≤ X ∧ X < p then (d.converting true c).format (withPrecision o (p - 1 - X))
        else (d.converting true c').format (withPrecision o (p - 1))) = .ok t ∧
      (d.converting false g).format o = .ok (Text.trimFraction t) := by
  -- what the three letters of a triple have in common
  have htriple : g.family = .float .general ∧ c.family = .float .fixed ∧
      c'.family = .float .exponential ∧ c.isUpper = g.isUpper ∧ c'.isUpper = g.isUpper := by
    simp only [generalTriples, List.mem_cons, List.not_mem_nil, or_false, Prod.mk.injEq] at hc
    rcases hc with ⟨rfl, rfl, rfl⟩ | ⟨rfl, rfl, rfl⟩ <;> decide
  obtain ⟨hg, hfixed, hexponential, hu, hu'⟩ := htriple
  -- the magnitude is named, so that rewriting does not look into it
  obtain ⟨x, hmagnitude⟩ : ∃ x, x = Binary64.magnitude m e := ⟨_, rfl⟩
  obtain ⟨X, hX⟩ : ∃ X, X = (Layout.significant (p - 1) x).2 := ⟨_, rfl⟩
  have hsign := d.sign_mem_signs negative
  have hproper := Json.isProper_generalFull p x
  have hfull : Layout.generalFull ((precisionOf o).elim 6 Int.toNat) x =
      Layout.generalFull p x := by
    rw [Layout.generalFull, Layout.generalFull,
      show (precisionOf o).elim 6 Int.toNat - 1 = p - 1 by omega]
  -- the general output and the one with an exponent, with and without the mark
  have hgeneral (sharp : Bool) : (d.converting sharp g).format o = .ok (d.sign negative ++
      (d.converting false g).inCase ((Layout.general sharp _ x).render sharp)) :=
    hmagnitude ▸ format_converting hg rfl ha hw hx rfl (by omega) sharp
  have hexp (sharp : Bool) : (d.converting sharp c').format (withPrecision o (p - 1)) =
      .ok (d.sign negative ++
        (d.converting false g).inCase ((Layout.exponential (p - 1) x).render sharp)) :=
    hmagnitude ▸ format_withPrecision hexponential hu' ha hw hx (by omega) (by omega) sharp
  refine ⟨_, X, _, hexp false, ?_, hgeneral true, ?_, ?_⟩
  · exact exponent?_render hsign (Json.isProper_exponential (p - 1) x) (hX ▸ rfl) false
  · show _ = Except.ok (_ ++ inCase _ ((Layout.generalFull _ x).render true))
    rw [hfull, Layout.generalFull]
    simp only [← hX]
    -- the exponent in range is exactly the condition on which the layout is chosen
    by_cases hrange : -4 ≤ X ∧ X < p
    · rw [if_pos hrange, if_pos (by omega), format_withPrecision hfixed hu ha hw hx
        (p := ((p - 1 : ℕ) - X).toNat) (by omega) (by omega), hmagnitude]
      rfl
    · rw [if_neg hrange, if_neg (by omega), hexp true]
  · have htrim := trimFraction_render (d := d.converting false g) hsign hproper
    rw [hgeneral false, hmagnitude, Layout.general_eq_dropZeros h, ← hmagnitude, hfull, ← htrim,
      ← hfull]
    rfl

/-- Nine and a half has one digit before the point.  Rounded to one digit it is ten, which has two,
and so the exponent is printed. -/
theorem format_general_carry :
    let d : Directive := ⟨"%.0g".toList, .shortest, none, [], none, some (.literal 0), none⟩
    let o : Operands :=
      ⟨none, some (.literal 0), .float (.finite false 0x13000000000000 (-49) (by decide))⟩
    (d.converting false .exponent).format (withPrecision o 0) = .ok "1e+01".toList ∧
      (d.converting true .shortest).format o = .ok "1.e+01".toList ∧
      (d.converting true .exponent).format (withPrecision o 0) = .ok "1.e+01".toList ∧
      (d.converting false .shortest).format o = .ok "1e+01".toList := by
  intro d o
  have hexp : (d.converting false .exponent).format (withPrecision o 0) = .ok "1e+01".toList := by
    decide +kernel
  have hsharp : (d.converting true .shortest).format o = .ok "1.e+01".toList := by decide +kernel
  have hc : (Conversion.shortest, Conversion.fixed, Conversion.exponent) ∈ generalTriples := by
    decide
  obtain ⟨s, X, t, hs, hX, ht, hchoice, htrim⟩ :=
    format_general d o hc nofun rfl rfl (p := 1) rfl (by decide)
  obtain rfl : "1e+01".toList = s := Except.ok.inj (hexp.symm.trans hs)
  obtain rfl : "1.e+01".toList = t := Except.ok.inj (hsharp.symm.trans ht)
  have hone : Text.exponent? "1e+01".toList = some 1 := by decide +kernel
  obtain rfl : 1 = X := Option.some.inj (hone.symm.trans hX)
  rw [if_neg (by decide)] at hchoice
  exact ⟨hexp, hsharp, hchoice, htrim⟩

end Directive
end Stencil
