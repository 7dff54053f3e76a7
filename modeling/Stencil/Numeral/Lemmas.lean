import Mathlib.Algebra.Group.Nat.Defs
import Stencil.Numeral.Positional

/-!
# Laws of positional numerals

The value of digits is what Horner's rule gives (`value_eq_horner`), although it is worked out by
joining pairs.  The digits of a number have that number as their value (`horner_digits`), each is
below the base (`lt_of_mem_digits`), and the first is zero only for the number zero
(`head_digits_ne_zero`): together these say that `digits b n` is **the** numeral of `n`.
-/

set_option autoImplicit false

namespace Stencil
namespace Numeral

/-- Horner's rule: the value of digits, most significant first. -/
def horner (b : Nat) (ds : List Nat) : Nat := ds.foldl (fun n d => n * b + d) 0

theorem foldl_horner (b n : Nat) (ds : List Nat) :
    ds.foldl (fun n d => n * b + d) n = n * b ^ ds.length + horner b ds := by
  induction ds generalizing n with
  | nil => simp [horner]
  | cons d ds ih =>
    have h0 : horner b (d :: ds) = d * b ^ ds.length + horner b ds := by
      show ds.foldl _ (0 * b + d) = _
      rw [Nat.zero_mul, Nat.zero_add, ih]
    rw [List.foldl_cons, ih, h0, List.length_cons, Nat.pow_succ, Nat.add_mul, Nat.mul_assoc,
      Nat.mul_comm b, Nat.add_assoc]

theorem horner_append (b : Nat) (ds es : List Nat) :
    horner b (ds ++ es) = horner b ds * b ^ es.length + horner b es := by
  rw [horner, List.foldl_append, foldl_horner]
  rfl

theorem horner_cons (b d : Nat) (ds : List Nat) :
    horner b (d :: ds) = d * b ^ ds.length + horner b ds := by
  rw [horner, List.foldl_cons, Nat.zero_mul, Nat.zero_add, foldl_horner]

/-! ## Joining pairs -/

/-- The value of digits, least significant first. -/
def hornerUp (b : Nat) : List Nat → Nat
  | [] => 0
  | d :: ds => d + b * hornerUp b ds

theorem hornerUp_append (b : Nat) (ds es : List Nat) :
    hornerUp b (ds ++ es) = hornerUp b ds + b ^ ds.length * hornerUp b es := by
  induction ds with
  | nil => simp [hornerUp]
  | cons d ds ih =>
    rw [List.cons_append, hornerUp, ih, hornerUp, List.length_cons, Nat.pow_succ, Nat.mul_add,
      ← Nat.add_assoc, Nat.mul_comm (b ^ _) b, Nat.mul_assoc]

theorem hornerUp_reverse (b : Nat) (ds : List Nat) : hornerUp b ds.reverse = horner b ds := by
  induction ds with
  | nil => rfl
  | cons d ds ih =>
    rw [List.reverse_cons, hornerUp_append, ih, horner_cons, hornerUp, hornerUp,
      List.length_reverse, Nat.mul_zero, Nat.add_zero, Nat.mul_comm, Nat.add_comm]

theorem hornerUp_joinPairs (b : Nat) (ds : List Nat) :
    hornerUp (b * b) (joinPairs b ds) = hornerUp b ds := by
  fun_induction joinPairs b ds with
  | case1 low high ds ih =>
    rw [hornerUp, ih, hornerUp, hornerUp, Nat.mul_add, Nat.add_assoc, Nat.mul_comm high,
      Nat.mul_assoc]
  | case2 ds h =>
    match ds, h with
    | [], _ => rfl
    | [d], _ => simp [hornerUp]
    | a :: c :: es, h => exact absurd rfl (h a c es)

@[simp] theorem length_joinPairs (b : Nat) (ds : List Nat) :
    (joinPairs b ds).length = (ds.length + 1) / 2 := by
  fun_induction joinPairs b ds with
  | case1 low high ds ih => simp only [List.length_cons, ih]; omega
  | case2 ds h =>
    match ds, h with
    | [], _ => rfl
    | [d], _ => simp
    | a :: c :: es, h => exact absurd rfl (h a c es)

theorem joinAll_eq_hornerUp (rounds b : Nat) (ds : List Nat) (h : ds.length ≤ 2 ^ rounds) :
    joinAll rounds b ds = hornerUp b ds := by
  induction rounds generalizing b ds with
  | zero =>
    match ds, h with
    | [], _ => rfl
    | [d], _ => simp [joinAll, hornerUp]
    | a :: c :: es, h => simp at h
  | succ n ih =>
    rw [joinAll, ih _ _ (by rw [length_joinPairs]; rw [Nat.pow_succ] at h; omega),
      hornerUp_joinPairs]

/-- **The value of digits is Horner's.** -/
theorem value_eq_horner (b : Nat) (ds : List Nat) : value b ds = horner b ds := by
  rw [value, joinAll_eq_hornerUp, hornerUp_reverse]
  rw [List.length_reverse]
  exact Nat.le_of_lt Nat.lt_log2_self

/-! ## Digits -/

theorem halfWeight_eq (b k : Nat) : halfWeight b k = b ^ 2 ^ k := rfl

@[simp] theorem length_lowDigits (b k n : Nat) : (lowDigits b k n).length = 2 ^ k := by
  induction k generalizing n with
  | zero => rfl
  | succ k ih => rw [lowDigits, List.length_append, ih, ih, Nat.pow_succ]; omega

theorem horner_lowDigits (b k n : Nat) : horner b (lowDigits b k n) = n := by
  induction k generalizing n with
  | zero => simp [lowDigits, horner]
  | succ k ih =>
    rw [lowDigits, horner_append, ih, ih, length_lowDigits, halfWeight_eq, Nat.mul_comm,
      Nat.div_add_mod]

theorem horner_digitsBelow (b k n : Nat) : horner b (digitsBelow b k n) = n := by
  induction k generalizing n with
  | zero => simp [digitsBelow, horner]
  | succ k ih =>
    unfold digitsBelow
    split
    · exact ih n
    · rw [horner_append, ih, horner_lowDigits, length_lowDigits, halfWeight_eq, Nat.mul_comm,
        Nat.div_add_mod]

/-- **The digits of a number have it as their value.** -/
@[simp] theorem horner_digits (b n : Nat) : horner b (digits b n) = n := horner_digitsBelow ..

@[simp] theorem value_digits (b n : Nat) : value b (digits b n) = n := by
  rw [value_eq_horner, horner_digits]

theorem halfWeight_succ (b k : Nat) :
    halfWeight b (k + 1) = halfWeight b k * halfWeight b k := by
  simp only [halfWeight_eq]
  rw [← Nat.pow_add, Nat.pow_succ, Nat.mul_two]

theorem halfWeight_pos {b k n : Nat} (h : n < halfWeight b (k + 1)) : 0 < halfWeight b k := by
  refine Nat.pos_of_ne_zero fun h0 => ?_
  rw [halfWeight_succ, h0] at h
  simp at h

theorem div_halfWeight_lt {b k n : Nat} (h : n < halfWeight b (k + 1)) :
    n / halfWeight b k < halfWeight b k := by
  refine Nat.div_lt_of_lt_mul ?_
  rwa [← halfWeight_succ]

theorem lt_of_mem_lowDigits {b k n d : Nat} (hn : n < halfWeight b k)
    (h : d ∈ lowDigits b k n) : d < b := by
  induction k generalizing n with
  | zero => simp_all [lowDigits, halfWeight_eq]
  | succ k ih =>
    rw [lowDigits, List.mem_append] at h
    rcases h with h | h
    · exact ih (div_halfWeight_lt hn) h
    · exact ih (Nat.mod_lt _ (halfWeight_pos hn)) h

theorem lt_of_mem_digitsBelow {b k n d : Nat} (hn : n < halfWeight b k)
    (h : d ∈ digitsBelow b k n) : d < b := by
  induction k generalizing n with
  | zero => simp_all [digitsBelow, halfWeight_eq]
  | succ k ih =>
    unfold digitsBelow at h
    split at h
    · rename_i hlt
      exact ih hlt h
    · rw [List.mem_append] at h
      rcases h with h | h
      · exact ih (div_halfWeight_lt hn) h
      · exact lt_of_mem_lowDigits (Nat.mod_lt _ (halfWeight_pos hn)) h

/-- The exponent that `digits` starts from is large enough. -/
theorem lt_halfWeight_log2 {b : Nat} (hb : 2 ≤ b) (n : Nat) :
    n < halfWeight b (n.log2.log2 + 1) :=
  calc
    n < 2 ^ (n.log2 + 1) := Nat.lt_log2_self
    _ ≤ 2 ^ 2 ^ (n.log2.log2 + 1) := Nat.pow_le_pow_right (by decide) Nat.lt_log2_self
    _ ≤ b ^ 2 ^ (n.log2.log2 + 1) := Nat.pow_le_pow_left hb _

/-- Every digit is below the base. -/
theorem lt_of_mem_digits {b n d : Nat} (hb : 2 ≤ b) (h : d ∈ digits b n) : d < b :=
  lt_of_mem_digitsBelow (lt_halfWeight_log2 hb n) h

theorem digitsBelow_ne_nil (b k n : Nat) : digitsBelow b k n ≠ [] := by
  induction k generalizing n with
  | zero => simp [digitsBelow]
  | succ k ih =>
    unfold digitsBelow
    split
    · exact ih n
    · simp [ih]

theorem digits_ne_nil (b n : Nat) : digits b n ≠ [] := digitsBelow_ne_nil _ _ _

theorem head_digitsBelow_ne_zero {b k n : Nat} (hn : 0 < n) (h : n < halfWeight b k) :
    (digitsBelow b k n).head (digitsBelow_ne_nil _ _ _) ≠ 0 := by
  induction k generalizing n with
  | zero => simpa [digitsBelow] using Nat.ne_of_gt hn
  | succ k ih =>
    by_cases hlt : n < halfWeight b k
    · have he : digitsBelow b (k + 1) n = digitsBelow b k n := by rw [digitsBelow, if_pos hlt]
      simp only [he]
      exact ih hn hlt
    · have he : digitsBelow b (k + 1) n =
          digitsBelow b k (n / halfWeight b k) ++ lowDigits b k (n % halfWeight b k) := by
        rw [digitsBelow, if_neg hlt]
      simp only [he, List.head_append_of_ne_nil (digitsBelow_ne_nil _ _ _)]
      exact ih (Nat.div_pos (Nat.le_of_not_lt hlt) (halfWeight_pos h)) (div_halfWeight_lt h)

/-- Only zero has a numeral that begins with a zero. -/
theorem head_digits_ne_zero {b n : Nat} (hb : 2 ≤ b) (hn : 0 < n) :
    (digits b n).head (digits_ne_nil _ _) ≠ 0 :=
  head_digitsBelow_ne_zero hn (lt_halfWeight_log2 hb n)

end Numeral
end Stencil
