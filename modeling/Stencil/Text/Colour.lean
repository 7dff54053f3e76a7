import Stencil.Text.Basic

/-!
# Terminal control sequences

A control sequence is an escape character, a bracket, parameter characters and a final letter.
Two kinds are removed from output.  A **colour code** has digits and semicolons as parameters and
ends in `m`.  A **control sequence** of any kind allows the question mark as well and ends in any
ASCII letter.  Both removals are one pass from left to right.
-/

set_option autoImplicit false

namespace Stencil
namespace Colour

/-- The escape character. -/
def escape : Char := '\x1B'

/-- A parameter character of a colour code. -/
def isParameter (c : Char) : Bool := c.isDigit || c = ';'

/-- A parameter character of any control sequence. -/
def isAnyParameter (c : Char) : Bool := isParameter c || c = '?'

/-- What follows the sequence that `s` begins with, when it begins with one whose parameters and
final character pass. -/
def sequence? (parameter final : Char → Bool) (s : Text) : Option Text :=
  match s with
  | c :: '[' :: s =>
    if c = escape then
      match s.dropWhile parameter with
      | f :: rest => if final f then some rest else none
      | [] => none
    else none
  | _ => none

theorem length_lt_of_sequence? {parameter final : Char → Bool} {s rest : Text}
    (h : sequence? parameter final s = some rest) : rest.length < s.length := by
  unfold sequence? at h
  split at h
  · rename_i c t
    split at h
    · have hl : (t.dropWhile parameter).length ≤ t.length :=
        (List.dropWhile_sublist parameter).length_le
      split at h
      · rename_i f r hd
        split at h
        · cases h
          rw [hd] at hl
          simp only [List.length_cons] at hl ⊢
          omega
        · cases h
      · cases h
    · cases h
  · cases h

/-- A text without the sequences whose parameters and final character pass. -/
def removeWhere (parameter final : Char → Bool) (s : Text) : Text :=
  match _h : sequence? parameter final s with
  | some rest => removeWhere parameter final rest
  | none =>
    match s with
    | [] => []
    | c :: s => c :: removeWhere parameter final s
termination_by s.length
decreasing_by
  · exact length_lt_of_sequence? ‹_›
  · simp

/-- A text without its colour codes. -/
def strip (s : Text) : Text := removeWhere isParameter (· = 'm') s

/-- A text without its control sequences. -/
def stripAll (s : Text) : Text := removeWhere isAnyParameter Char.isAlpha s

end Colour
end Stencil
