/-!
# Texts

A text is the list of its characters.  Every rule of the formatter that counts, cuts or fills
works by character, and a list is what recursion and proofs want, so lists are used throughout
and `String` appears only where a program reads or prints.

This module holds the few list operations that the readers share: splitting off a known lead,
splitting at the first occurrence of a character, ASCII case, and the code point order.
-/

set_option autoImplicit false

namespace Stencil

/-- A text: its characters in order. -/
abbrev Text := List Char

namespace Text

/-- What is left of `s` after the characters of `lead`, when it starts with them. -/
def after? : (lead s : Text) → Option Text
  | [], s => some s
  | _ :: _, [] => none
  | l :: lead, c :: s => if l = c then after? lead s else none

theorem after?_eq_some_iff {lead s rest : Text} : after? lead s = some rest ↔ s = lead ++ rest := by
  induction lead generalizing s with
  | nil => simp [after?, eq_comm]
  | cons l lead ih =>
    cases s with
    | nil => simp [after?]
    | cons c s =>
      by_cases h : l = c
      · subst h; simp [after?, ih]
      · simp [after?, h, Ne.symm h]

/-- `part` stands somewhere in a text. -/
def contains (part : Text) : Text → Bool
  | [] => part.isEmpty
  | c :: s => (after? part (c :: s)).isSome || contains part s

/-- The parts of `s` before and after the first `mark`, when it has one. -/
def splitAt? (mark : Char) : Text → Option (Text × Text)
  | [] => none
  | c :: s =>
    if c = mark then some ([], s) else (splitAt? mark s).map fun (front, back) => (c :: front, back)

theorem eq_of_splitAt?_eq_some {mark : Char} {s front back : Text}
    (h : splitAt? mark s = some (front, back)) : s = front ++ mark :: back ∧ mark ∉ front := by
  induction s generalizing front with
  | nil => simp [splitAt?] at h
  | cons c s ih =>
    by_cases hc : c = mark
    · simp [splitAt?, hc] at h
      obtain ⟨rfl, rfl⟩ := h
      simp [hc]
    · simp only [splitAt?, hc, if_false, Option.map_eq_some_iff, Prod.mk.injEq, Prod.exists] at h
      obtain ⟨f, b, hs, rfl, rfl⟩ := h
      obtain ⟨rfl, hm⟩ := ih hs
      simp [Ne.symm hc, hm]

/-- ASCII letters in upper case, all else as it is. -/
def upper (s : Text) : Text := s.map Char.toUpper

/-- ASCII letters in lower case, all else as it is. -/
def lower (s : Text) : Text := s.map Char.toLower

/-- The order by code points, a beginning before all that it begins. -/
def atMost : Text → Text → Bool
  | [], _ => true
  | _ :: _, [] => false
  | c :: s, d :: t => if c = d then atMost s t else c.toNat < d.toNat

/-- The longest beginning of `s` whose characters all pass, and the rest. -/
def run (p : Char → Bool) (s : Text) : Text × Text := (s.takeWhile p, s.dropWhile p)

theorem run_append (p : Char → Bool) (s : Text) : (run p s).1 ++ (run p s).2 = s :=
  List.takeWhile_append_dropWhile

/-- A text taken apart after its sign: a minus, a plus or a space, or nothing. -/
def splitSign : Text → Text × Text
  | c :: s => if c = '-' ∨ c = '+' ∨ c = ' ' then ([c], s) else ([], c :: s)
  | [] => ([], [])

/-- `n` copies of a character. -/
def fill (c : Char) (n : Nat) : Text := List.replicate n c

end Text
end Stencil
