import Stencil.Indexing
import Stencil.Numeral.Literal

/-!
# Long numerals by halves

Up to `digitLimit` digits, a number is written and read at once (`limitedText`, `read`).  A longer
one is taken apart: a number at a power of ten with about half of its digits, a text in its middle.
Each half is converted in the same way, and the two results are joined.

That this comes to an end rests on two facts.

* The place where a number is cut is estimated from its binary digits, and the estimate leaves
  something on both sides (`halfLength_spec`).
* One character has no middle: nothing is in front of it, and the second half is the character
  again.  It is never read, because the first half is read before it and nothing at all is no
  number.
  So a reading comes with the fact that there was something to read.
-/

set_option autoImplicit false

namespace Stencil
namespace Numeral

/-! ## Writing -/

/-- The number of binary digits of `n`; zero has none. -/
def bitLength (n : Nat) : Nat := if n = 0 then 0 else n.log2 + 1

/-- About half the number of decimal digits of `n`, estimated from the binary ones. -/
def halfLength (n : Nat) : Nat := bitLength n * 3 / 20

/-- A number with at least seven binary digits is cut inside. -/
theorem halfLength_spec {n : Nat} (h : 64 ≤ n) :
    0 < halfLength n ∧ Nat.pow 10 (halfLength n) ≤ n := by
  have hne : n ≠ 0 := by omega
  have hlog : 6 ≤ n.log2 := (Nat.le_log2 hne).2 h
  have hhalf : halfLength n = (n.log2 + 1) * 3 / 20 := by rw [halfLength, bitLength, if_neg hne]
  refine ⟨by omega, ?_⟩
  calc
    10 ^ halfLength n ≤ (2 ^ 4) ^ halfLength n := Nat.pow_le_pow_left (by decide) _
    _ = 2 ^ (4 * halfLength n) := (Nat.pow_mul 2 4 _).symm
    _ ≤ 2 ^ n.log2 := Nat.pow_le_pow_right (by decide) (by omega)
    _ ≤ n := Nat.log2_self_le hne

/-- What cannot be written at once is large enough. -/
theorem le_of_limitedText {n : Int} {f : Fault} (h : limitedText n = .error f) :
    64 ≤ n.natAbs := by
  have hall : ∀ m < 64, decimalLength m ≤ digitLimit := by decide
  refine Nat.le_of_not_lt fun hlt => ?_
  rw [limitedText, if_pos (hall _ hlt)] at h
  cases h

/-- Both halves of a number are numbers again, and smaller. -/
theorem halves_lt {n : Int} (h : 64 ≤ n.natAbs) (hn : 0 ≤ n) :
    (0 ≤ n / Nat.pow 10 (halfLength n.natAbs) ∧ n / Nat.pow 10 (halfLength n.natAbs) < n) ∧
      0 ≤ n % Nat.pow 10 (halfLength n.natAbs) ∧ n % Nat.pow 10 (halfLength n.natAbs) < n := by
  obtain ⟨n, rfl⟩ := Int.eq_ofNat_of_zero_le hn
  rw [Int.natAbs_natCast] at h ⊢
  obtain ⟨hk, hle⟩ := halfLength_spec h
  have hpow : 0 < Nat.pow 10 (halfLength n) := Nat.pow_pos (by decide)
  have hpos : 0 < n := Nat.lt_of_lt_of_le hpow hle
  have hhigh : n / Nat.pow 10 (halfLength n) < n :=
    Nat.div_lt_self hpos (Nat.one_lt_pow (Nat.ne_of_gt hk) (by decide))
  have hlow : n % Nat.pow 10 (halfLength n) < n := Nat.lt_of_lt_of_le (Nat.mod_lt _ hpow) hle
  rw [← Int.natCast_ediv, ← Int.natCast_emod]
  exact ⟨⟨Int.natCast_nonneg _, Int.ofNat_lt.2 hhigh⟩, Int.natCast_nonneg _, Int.ofNat_lt.2 hlow⟩

/-- The decimal numeral of an integer of any length.  The second half keeps its zeros in front. -/
def decimalByHalves (n : Int) : Text :=
  match _hlong : limitedText n with
  | .ok s => s
  | .error _ =>
    if n < 0 then '-' :: decimalByHalves (-n)
    else
      let k := halfLength n.natAbs
      decimalByHalves (n / Nat.pow 10 k) ++ padZeros k (decimalByHalves (n % Nat.pow 10 k))
termination_by n.natAbs + if n < 0 then 1 else 0
decreasing_by
  · rename_i hneg
    rw [if_neg (by omega), if_pos hneg]
    omega
  · have hhalves := halves_lt (le_of_limitedText _hlong) (by omega)
    rw [if_neg (by omega), if_neg (by omega)]
    omega
  · have hhalves := halves_lt (le_of_limitedText _hlong) (by omega)
    rw [if_neg (by omega), if_neg (by omega)]
    omega

/-! ## Reading -/

/-- A text cut in its middle, or in front of it if the middle is a character. -/
def halves (s : Text) : Text × Text := Indexing.split (-(s.length / 2 : Nat)) s

@[simp] theorem halves_append (s : Text) : (halves s).1 ++ (halves s).2 = s :=
  Indexing.split_append _ s

/-- Nothing is in front of the middle of one character. -/
theorem halves_fst_eq_nil {s : Text} (h : s.length < 2) : (halves s).1 = [] := by
  rw [halves, Nat.div_eq_of_lt h, Indexing.split_neg_zero]

theorem ne_nil_of_read {s : Text} {n : Int} (h : read s = .ok n) : s ≠ [] := by
  rintro rfl
  cases h

/-- Reads a plain integer, or a bare run of decimal digits of any length, which is not empty.  Only
what consists of digits, of whatever kind, is taken apart when it cannot be read at once. -/
def readHalves (s : Text) : Except Fault { _n : Int // s ≠ [] } :=
  match h : read s with
  | .ok n => .ok ⟨n, ne_nil_of_read h⟩
  | .error f =>
    if hs : s ≠ [] ∧ s.all Text.isDigitLike then do
      let ⟨high, _hfront⟩ ← readHalves (halves s).1
      let ⟨low, _⟩ ← readHalves (halves s).2
      return ⟨high * Nat.pow 10 (s.length / 2) + low, hs.1⟩
    else .error f
termination_by s.length
decreasing_by
  · exact Indexing.length_split_neg_fst_lt _ hs.1
  · exact Indexing.length_split_snd_lt _hfront

/-- Reads a plain integer, or a bare run of decimal digits of any length. -/
def readByHalves (s : Text) : Except Fault Int := (readHalves s).map (·.1)

end Numeral
end Stencil
