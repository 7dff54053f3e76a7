import Stencil.Directive.Basic
import Stencil.FormatMap.Basic

/-!
# Named placeholders

A placeholder is a percent sign, a lead of flags and sizes, a name, a dollar sign and a conversion
letter.  The name is an ASCII identifier, and no character of a lead can begin one, so a
placeholder is read in only one way.

`compileNames` replaces each name by its position in a list of names.  The template is divided once
from left to right; a percent sign that begins no placeholder is left alone.
-/

set_option autoImplicit false

namespace Stencil

/-- A named placeholder. -/
structure Placeholder where
  lead : Text
  name : Text
  conversion : Conversion
  deriving DecidableEq, Repr

namespace Placeholder

/-- A character of a lead: a flag, a digit, a star or a point. -/
def isLead (c : Char) : Bool := c.isDigit || "-+ #'*.".toList.contains c

/-- A character that can begin a name. -/
def isNameStart (c : Char) : Bool := c.isAlpha || c = '_'

/-- A character of a name. -/
def isName (c : Char) : Bool := c.isAlphanum || c = '_'

/-- The text of a placeholder with `name` in the place of its name. -/
def sourceWith (p : Placeholder) (name : Text) : Text :=
  '%' :: (p.lead ++ name ++ ['$', p.conversion.letter])

/-- The text a placeholder is written as. -/
def source (p : Placeholder) : Text := p.sourceWith p.name

/-- Reads the name, the dollar sign and the letter of a placeholder with the given lead. -/
def readName? (lead : Text) : Text → Option (Placeholder × Text)
  | [] => none
  | c :: s =>
    if isNameStart c then
      match Text.run isName s with
      | (name, '$' :: v :: rest) =>
        (Conversion.ofLetter? v).map fun v => (⟨lead, c :: name, v⟩, rest)
      | _ => none
    else none

/-- Reads what follows the percent sign of a placeholder. -/
def readBody? (s : Text) : Option (Placeholder × Text) :=
  readName? (Text.run isLead s).1 (Text.run isLead s).2

/-- **What is read is what was written**: the text is the source of the placeholder and the rest. -/
theorem eq_of_readBody? {s rest : Text} {p : Placeholder} (h : readBody? s = some (p, rest)) :
    '%' :: s = p.source ++ rest := by
  have hl := Text.run_append isLead s
  unfold readBody? readName? at h
  split at h
  · cases h
  · rename_i c t hc
    split at h
    · have hn := Text.run_append isName t
      split at h
      · rename_i hr
        obtain ⟨v, hv, he⟩ := Option.map_eq_some_iff.1 h
        cases he
        rw [hr] at hn
        rw [hc, ← hn] at hl
        refine (congrArg (List.cons '%') hl.symm).trans ?_
        simp [source, sourceWith, Conversion.letter_of_ofLetter? hv]
      · cases h
    · cases h

theorem length_lt_of_readBody? {s rest : Text} {p : Placeholder}
    (h : readBody? s = some (p, rest)) : rest.length < s.length := by
  have := congrArg List.length (eq_of_readBody? h)
  simp only [source, sourceWith, List.length_append, List.length_cons, List.length_nil] at this
  omega

end Placeholder

/-- A piece of a template in which only named placeholders count. -/
inductive Fragment where
  | char (c : Char)
  | placeholder (p : Placeholder)
  deriving DecidableEq, Repr

namespace Fragment

/-- The text a fragment is written as. -/
def source : Fragment → Text
  | char c => [c]
  | placeholder p => p.source

/-- Divides a template at its placeholders, from left to right. -/
def ofTemplate (s : Text) : List Fragment :=
  match s with
  | [] => []
  | '%' :: s =>
    match _h : Placeholder.readBody? s with
    | some (p, rest) => placeholder p :: ofTemplate rest
    | none => char '%' :: ofTemplate s
  | c :: s => char c :: ofTemplate s
termination_by s.length
decreasing_by
  · have := Placeholder.length_lt_of_readBody? ‹_›
    simp only [List.length_cons]; omega
  · simp
  · simp

/-- The fragments of a template are the template. -/
@[simp] theorem flatMap_source_ofTemplate (s : Text) : (ofTemplate s).flatMap source = s := by
  fun_induction ofTemplate s with
  | case1 => rfl
  | case2 s p rest h ih =>
    rw [List.flatMap_cons, ih]
    exact (Placeholder.eq_of_readBody? h).symm
  | case3 s h ih => rw [List.flatMap_cons, ih]; rfl
  | case4 c s h ih => rw [List.flatMap_cons, ih]; rfl

/-- A fragment with the position of its name in a list of names, if it has one. -/
def compile (names : List Text) (template : Text) : Fragment → Except Fault Text
  | char c => .ok [c]
  | placeholder p =>
    match FormatMap.positionFrom? p.name 1 names with
    | some i => .ok (p.sourceWith (Numeral.decimal i))
    | none => .error (.undeclared p.name template)

end Fragment

namespace FormatMap

/-- A template with the names of its placeholders replaced by positions in a list of names.  The
first placeholder of another name makes this fail. -/
def compileNames (names : List Text) (template : Text) : Except Fault Text := do
  let parts ← (Fragment.ofTemplate template).mapM (Fragment.compile names template)
  return parts.flatten

end FormatMap
end Stencil
