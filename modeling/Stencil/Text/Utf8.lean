import Stencil.Text.Basic

/-!
# Reading UTF-8 bytes

Byte strings are read as UTF-8.  Bytes that are not well formed do not fail: every longest piece
that begins a character without completing it, and every byte that begins none, becomes one
replacement character U+FFFD.
-/

set_option autoImplicit false

namespace Stencil
namespace Utf8

/-- What stands for a malformed piece. -/
def replacement : Char := '\uFFFD'

/-- What the first byte of a character announces: its own bits, how many bytes follow, and the
bounds of the byte after it.  The bounds rule out overlong forms, surrogates and code points
beyond U+10FFFF. -/
structure Lead where
  bits : Nat
  more : Nat
  low : Nat
  high : Nat
  deriving DecidableEq, Repr

/-- The announcement of a byte that begins a character of two or more bytes. -/
def lead? (b : Nat) : Option Lead :=
  if 0xC2 ≤ b ∧ b ≤ 0xDF then some ⟨b % 32, 1, 0x80, 0xBF⟩
  else if b = 0xE0 then some ⟨0, 2, 0xA0, 0xBF⟩
  else if b = 0xED then some ⟨0xD, 2, 0x80, 0x9F⟩
  else if 0xE1 ≤ b ∧ b ≤ 0xEF then some ⟨b % 16, 2, 0x80, 0xBF⟩
  else if b = 0xF0 then some ⟨0, 3, 0x90, 0xBF⟩
  else if b = 0xF4 then some ⟨4, 3, 0x80, 0x8F⟩
  else if 0xF1 ≤ b ∧ b ≤ 0xF3 then some ⟨b % 8, 3, 0x80, 0xBF⟩
  else none

/-- Reads `more` following bytes, the first of them between `low` and `high`, onto the bits read
so far.  Gives the character, or the replacement where a byte does not fit, and the bytes left. -/
def follow : (more low high bits : Nat) → List Nat → Char × List Nat
  | 0, _, _, bits, bs => (Char.ofNat bits, bs)
  | _ + 1, _, _, _, [] => (replacement, [])
  | more + 1, low, high, bits, b :: bs =>
    if low ≤ b ∧ b ≤ high then follow more 0x80 0xBF (bits * 64 + b % 64) bs
    else (replacement, b :: bs)

theorem length_follow_le (more low high bits : Nat) (bs : List Nat) :
    (follow more low high bits bs).2.length ≤ bs.length := by
  induction more generalizing low high bits bs with
  | zero => simp [follow]
  | succ n ih =>
    cases bs with
    | nil => simp [follow]
    | cons b bs =>
      simp only [follow]
      split
      · exact Nat.le_succ_of_le (ih _ _ _ bs)
      · simp

/-- The first character of a byte string that begins with `b`, and the bytes left. -/
def first (b : Nat) (bs : List Nat) : Char × List Nat :=
  if b < 0x80 then (Char.ofNat b, bs)
  else match lead? b with
    | some l => follow l.more l.low l.high l.bits bs
    | none => (replacement, bs)

theorem length_first_le (b : Nat) (bs : List Nat) : (first b bs).2.length ≤ bs.length := by
  unfold first
  split
  · exact Nat.le_refl _
  · split
    · exact length_follow_le ..
    · exact Nat.le_refl _

/-- The text of a byte string, with replacements for what is malformed. -/
def decodeCodes : List Nat → Text
  | [] => []
  | b :: bs => (first b bs).1 :: decodeCodes (first b bs).2
termination_by bs => bs.length
decreasing_by exact Nat.lt_succ_of_le (length_first_le b bs)

/-- The text of a byte string, with replacements for what is malformed. -/
def decode (bs : List UInt8) : Text := decodeCodes (bs.map UInt8.toNat)

end Utf8
end Stencil
