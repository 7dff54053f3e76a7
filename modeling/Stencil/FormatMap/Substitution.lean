import Stencil.FormatMap.Placeholder

/-!
# Substitution of names

A map of pairs is compiled by substitution alone: for one pair after the other, wherever the name
occurs in the text so far, with any lead before it, it is replaced by the index.  What is replaced
need not be a placeholder, and the digits that come in may form an occurrence of a later name.

A lead is matched as long as possible, also when the name itself begins with characters that a
lead may have.  The empty name occurs everywhere: at the end of each lead, and once more where no
lead begins, at the end of the text as well.
-/

set_option autoImplicit false

namespace Stencil
namespace FormatMap

/-- A character that is passed over in front of a name. -/
def isOpening (c : Char) : Bool := c = '%' || Placeholder.isLead c

/-- The longest lead of `s` with the name after it, and what follows the name. -/
def occurrence? (name : Text) : Text → Option (Text × Text)
  | [] => (Text.after? name []).map fun rest => ([], rest)
  | c :: s =>
    match if isOpening c then occurrence? name s else none with
    | some (lead, rest) => some (c :: lead, rest)
    | none => (Text.after? name (c :: s)).map fun rest => ([], rest)

theorem eq_of_occurrence? {name s lead rest : Text}
    (h : occurrence? name s = some (lead, rest)) : s = lead ++ name ++ rest := by
  induction s generalizing lead with
  | nil =>
    obtain ⟨r, hr, he⟩ := Option.map_eq_some_iff.1 h
    cases he
    simpa using Text.after?_eq_some_iff.1 hr
  | cons c s ih =>
    unfold occurrence? at h
    split at h
    · rename_i l r hl
      split at hl
      · cases h
        simp [ih hl]
      · cases hl
    · obtain ⟨r, hr, he⟩ := Option.map_eq_some_iff.1 h
      cases he
      simpa using Text.after?_eq_some_iff.1 hr

/-- A text with the occurrences of a name replaced, from left to right and without overlap.  After
an occurrence of nothing at all, the next character is passed over. -/
def substitute (name index : Text) (s : Text) : Text :=
  match _h : occurrence? name s with
  | some (lead, rest) =>
    if lead = [] ∧ name = [] then
      match s with
      | [] => index
      | c :: s => index ++ c :: substitute name index s
    else lead ++ index ++ substitute name index rest
  | none =>
    match s with
    | [] => []
    | c :: s => c :: substitute name index s
termination_by s.length
decreasing_by
  · simp
  · rename_i hn
    have hs := congrArg List.length (eq_of_occurrence? ‹_›)
    have hp : lead.length + name.length ≠ 0 := fun h0 =>
      hn ⟨List.eq_nil_of_length_eq_zero (by omega), List.eq_nil_of_length_eq_zero (by omega)⟩
    simp only [List.length_append] at hs
    omega
  · simp

/-- A text with the occurrences of a name replaced by an index.  The index is written out only when
there is an occurrence. -/
def substituteIndex (s : Text) (p : Text × Int) : Except Fault Text :=
  if Text.contains p.1 s then (Numeral.limitedText p.2).map fun index => substitute p.1 index s
  else .ok s

/-- A template with the names of all pairs replaced by their indices, one pair after the other. -/
def compilePairs (pairs : List (Text × Int)) (template : Text) : Except Fault Text :=
  pairs.foldlM substituteIndex template

end FormatMap
end Stencil
