import Stencil.Proofs.Directive.Grammar

/-!
# The numbers of a directive

A directive is understood unless one of its numbers has more digits than can be read.  The numbers
that are read are its position and those of its sizes, but not a number that only stands before a
dollar sign (`Spec.numbers`).

For each part that has a number there is one statement with two cases (`digitsNumber_cases`,
`SizeSpec.decode_cases`, `Spec.decode_cases`): it is understood and its numbers are short enough, or
there is a fault and one of them is too long.  The two cases exclude each other, so both directions
are in it.
-/

set_option autoImplicit false

namespace Stencil

open Grammar

/-! ## Runs of digits

The limit is on the number of digits, zeros in front included, whatever script they are from. -/

/-- Each digit has a value. -/
theorem length_filterMap_digitValue? {ds : Text} (h : ∀ c ∈ ds, Text.isDecimalDigit c) :
    (ds.filterMap Text.digitValue?).length = ds.length := by
  induction ds with
  | nil => rfl
  | cons d ds ih =>
    obtain ⟨n, hn⟩ := Option.isSome_iff_exists.1 (h d List.mem_cons_self)
    rw [List.filterMap_cons_some hn, List.length_cons, List.length_cons,
      ih fun c hc => h c (List.mem_cons_of_mem d hc)]

theorem digitsNumber_eq_ok {ds : Text} (h : IsDigits ds) (hl : ds.length ≤ Numeral.digitLimit) :
    digitsNumber ds = .ok (Numeral.value 10 (ds.filterMap Text.digitValue?)) := by
  rw [digitsNumber, Numeral.limited, length_filterMap_digitValue? h.2, if_pos hl]

theorem digitsNumber_eq_error {ds : Text} (h : IsDigits ds) (hl : Numeral.digitLimit < ds.length) :
    digitsNumber ds = .error .numeralTooLong := by
  rw [digitsNumber, Numeral.limited, length_filterMap_digitValue? h.2, if_neg (Nat.not_le.2 hl)]

/-- A run of digits is read as a number unless it is too long. -/
theorem digitsNumber_cases {ds : Text} (h : IsDigits ds) :
    (∃ n, digitsNumber ds = .ok n ∧ ds.length ≤ Numeral.digitLimit) ∨
      (digitsNumber ds = .error .numeralTooLong ∧ Numeral.digitLimit < ds.length) := by
  rcases Nat.lt_or_ge Numeral.digitLimit ds.length with hl | hl
  · exact .inr ⟨digitsNumber_eq_error h hl, hl⟩
  · exact .inl ⟨_, digitsNumber_eq_ok h hl, hl⟩

/-! ## Sizes

A star takes its size from the arguments and has no number, and the number of an ignored size is
never read. -/

namespace SizeSpec

/-- The number of a size that is read, if there is one. -/
def numbers : SizeSpec → List Text
  | next | ignored _ => []
  | argument ds | literal ds => [ds]

theorem decode_cases {z : SizeSpec} (h : z.Written) :
    (∃ r, z.decode = .ok r ∧ ∀ ds ∈ z.numbers, ds.length ≤ Numeral.digitLimit) ∨
      (z.decode = .error .numeralTooLong ∧ ∃ ds ∈ z.numbers, Numeral.digitLimit < ds.length) := by
  cases z with
  | next => exact .inl ⟨_, rfl, by simp [numbers]⟩
  | ignored ds => exact .inl ⟨_, rfl, by simp [numbers]⟩
  | argument ds =>
    rcases digitsNumber_cases h with ⟨n, hn, hl⟩ | ⟨hn, hl⟩
    · exact .inl ⟨_, by rw [decode, hn]; rfl, by simpa [numbers] using hl⟩
    · exact .inr ⟨by rw [decode, hn]; rfl, ds, List.mem_cons_self, hl⟩
  | literal ds =>
    rcases digitsNumber_cases h with ⟨n, hn, hl⟩ | ⟨hn, hl⟩
    · exact .inl ⟨_, by rw [decode, hn]; rfl, by simpa [numbers] using hl⟩
    · exact .inr ⟨by rw [decode, hn]; rfl, ds, List.mem_cons_self, hl⟩

/-- The number of an optional size that is read, if there is one. -/
def numbers? (z : Option SizeSpec) : List Text := z.elim [] numbers

theorem decode?_cases {z : Option SizeSpec} (h : ∀ y, z = some y → y.Written) :
    (∃ r, decode? z = .ok r ∧ ∀ ds ∈ numbers? z, ds.length ≤ Numeral.digitLimit) ∨
      (decode? z = .error .numeralTooLong ∧
        ∃ ds ∈ numbers? z, Numeral.digitLimit < ds.length) := by
  rcases z with _ | z
  · exact .inl ⟨none, rfl, by simp [numbers?]⟩
  · exact decode_cases (h z rfl)

end SizeSpec

/-! ## Directives

The numbers are read from left to right, and the first that is too long ends the reading.  As all of
them fail in the same way it does not matter which one this is. -/

namespace Spec

/-- The numbers of a directive that are read. -/
def numbers (s : Spec) : List Text :=
  s.position.toList ++ SizeSpec.numbers? s.width ++ SizeSpec.numbers? s.precision

/-- A number of the directive has more digits than can be read. -/
def HasLongNumber (s : Spec) : Prop := ∃ ds ∈ s.numbers, Numeral.digitLimit < ds.length

theorem position_cases {p : Option Text} (h : ∀ ds, p = some ds → IsDigits ds) :
    (∃ r, p.mapM digitsNumber = .ok r ∧ ∀ ds ∈ p.toList, ds.length ≤ Numeral.digitLimit) ∨
      (p.mapM digitsNumber = .error .numeralTooLong ∧
        ∃ ds ∈ p.toList, Numeral.digitLimit < ds.length) := by
  rcases p with _ | ds
  · exact .inl ⟨none, rfl, by simp⟩
  · rw [Option.mapM_some]
    rcases digitsNumber_cases (h ds rfl) with ⟨n, hn, hl⟩ | ⟨hn, hl⟩
    · exact .inl ⟨some n, by rw [hn]; rfl, by simpa using hl⟩
    · exact .inr ⟨by rw [hn]; rfl, ds, by simp, hl⟩

/-- **A directive is understood exactly when none of its numbers is too long.** -/
theorem decode_cases {s : Spec} (h : s.Written) :
    (∃ d, s.decode = .ok d ∧ d.source = s.source ∧ ¬ s.HasLongNumber) ∨
      (s.decode = .error .numeralTooLong ∧ s.HasLongNumber) := by
  have hlong {ds : Text} (hm : ds ∈ s.position.toList ∨ ds ∈ SizeSpec.numbers? s.width ∨
      ds ∈ SizeSpec.numbers? s.precision) (hl : Numeral.digitLimit < ds.length) :
      s.HasLongNumber := ⟨ds, by simpa [numbers] using hm, hl⟩
  rcases position_cases h.position with ⟨p, hp, hps⟩ | ⟨hp, ds, hm, hl⟩
  · rcases SizeSpec.decode?_cases h.width with ⟨w, hw, hws⟩ | ⟨hw, ds, hm, hl⟩
    · rcases SizeSpec.decode?_cases h.precision with ⟨r, hr, hrs⟩ | ⟨hr, ds, hm, hl⟩
      · refine .inl ⟨_, by rw [decode, hp, hw, hr]; rfl, rfl, ?_⟩
        rintro ⟨ds, hm, hl⟩
        simp only [numbers, List.mem_append] at hm
        rcases hm with (hm | hm) | hm
        · exact absurd (hps ds hm) (Nat.not_le.2 hl)
        · exact absurd (hws ds hm) (Nat.not_le.2 hl)
        · exact absurd (hrs ds hm) (Nat.not_le.2 hl)
      · exact .inr ⟨by rw [decode, hp, hw, hr]; rfl, hlong (.inr (.inr hm)) hl⟩
    · exact .inr ⟨by rw [decode, hp, hw]; rfl, hlong (.inr (.inl hm)) hl⟩
  · exact .inr ⟨by rw [decode, hp]; rfl, hlong (.inl hm) hl⟩

end Spec
end Stencil
