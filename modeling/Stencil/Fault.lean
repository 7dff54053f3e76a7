import Stencil.Text.Basic

/-!
# Faults

Everything that can go wrong, by cause.  Coercions of arguments fall back to a default instead of
failing, so most faults come from the template (a number with too many digits, a size beyond what
can be filled), from the format map, from a value that is nested too deep, or from an argument that
raises an exception of its own where it is asked for something.

Those who handle faults do not look at the cause but at its class.  `Fault.errorClass` gives the
class of each cause, `Fault.catching` is a handler for some of the classes, and the tests that name
the handlers of the library stand with `ErrorClass`.
-/

set_option autoImplicit false

namespace Stencil

/-! ## Classes

A class stands for its subclasses as well.  The classes that no handler here tells apart are known
by their names only.
-/

/-- The classes of exceptions that handlers tell apart. -/
inductive ErrorClass where
  /-- A value is of the wrong type. -/
  | wrongType
  /-- A value of the right type cannot be worked with. -/
  | wrongValue
  /-- A number is too large for what it is needed for. -/
  | tooLarge
  /-- A nesting is too deep to be followed. -/
  | tooDeep
  /-- Any other exception. -/
  | other (name : Text)
  /-- A request to end the program.  It is raised like an exception and is none. -/
  | exit (name : Text)
  deriving DecidableEq, Repr

namespace ErrorClass

/-- All exceptions: what is caught where a value is asked for its text or its truth. -/
def isException : ErrorClass → Bool
  | exit _ => false
  | _ => true

/-- What is caught where an object is asked for its integer. -/
def isNoInteger : ErrorClass → Bool
  | wrongType => true
  | _ => false

/-- What is caught where a value is asked for its double. -/
def isNoNumber : ErrorClass → Bool
  | wrongType | wrongValue | tooLarge => true
  | _ => false

/-- What is caught where a value is written as JSON. -/
def isNoJson : ErrorClass → Bool
  | wrongType | wrongValue | tooDeep => true
  | _ => false

end ErrorClass

/-! ## Causes -/

/-- Why an operation gave no answer. -/
inductive Fault where
  /-- A numeral has more digits than may be read or written. -/
  | numeralTooLong
  /-- A text is not an integer. -/
  | malformedInteger
  /-- An undefined number has no integer value. -/
  | undefinedNumber
  /-- An infinite number has no integer value. -/
  | infiniteNumber
  /-- A value of this kind has no integer value. -/
  | notInteger
  /-- A value of this kind has no double. -/
  | notNumber
  /-- An integer is too large for a double. -/
  | numberTooLarge
  /-- An object raised an exception where it was asked for something. -/
  | raised (c : ErrorClass)
  /-- A value or a text is nested deeper than can be followed. -/
  | tooDeep
  /-- A value has no form in JSON. -/
  | notJson
  /-- A number that is not finite cannot be a key in JSON. -/
  | keyNotFinite
  /-- A value cannot be gone through item by item. -/
  | notIterable
  /-- A fill or a list is longer than any that can be addressed. -/
  | sizeTooLarge
  /-- A floating point conversion was asked for more digits than it supports. -/
  | precisionTooLarge
  /-- A format map was expected where `typeName` was given. -/
  | unsupportedMap (typeName : Text)
  /-- An argument source was expected where `typeName` was given. -/
  | unsupportedSource (typeName : Text)
  /-- Arguments by name were asked for without a format map, or of a value that has no names. -/
  | notNamed
  /-- No formatter or cache has that name. -/
  | unknownName (name : Text)
  /-- A placeholder of the template names nothing in the format map. -/
  | undeclared (name template : Text)
  deriving DecidableEq, Repr

namespace Fault

/-- The class of a fault. -/
def errorClass : Fault → ErrorClass
  | numeralTooLong | malformedInteger | undefinedNumber | keyNotFinite | precisionTooLarge =>
    .wrongValue
  | notInteger | notNumber | notJson | notIterable | unsupportedMap _ | unsupportedSource _ =>
    .wrongType
  | infiniteNumber | numberTooLarge | sizeTooLarge => .tooLarge
  | tooDeep => .tooDeep
  | notNamed => .other "AttributeError".toList
  | unknownName _ => .other "KeyError".toList
  | undeclared .. => .other "FormatNameError".toList
  | raised c => c

/-- The wording of a fault, for those that have one. -/
def message? : Fault → Option Text
  | unsupportedMap t => some ("Unsupported format map ".toList ++ t ++ ['.'])
  | unsupportedSource t => some ("Unsupported argument source ".toList ++ t ++ ['.'])
  | undeclared name _ =>
    some ("Placeholder `".toList ++ name ++ "` is not declared in the format map.".toList)
  | _ => none

/-! ## Handlers -/

variable {α : Type}

/-- What an object answers, its exceptions as faults. -/
def ofAnswer (r : Except ErrorClass α) : Except Fault α := r.mapError raised

/-- An attempt, and what is done instead where it fails in one of the classes that are caught. -/
def catching (caught : ErrorClass → Bool) (attempt handler : Except Fault α) : Except Fault α :=
  match attempt with
  | .ok a => .ok a
  | .error f => if caught f.errorClass then handler else .error f

@[simp] theorem catching_ok (caught : ErrorClass → Bool) (a : α) (handler : Except Fault α) :
    catching caught (.ok a) handler = .ok a := rfl

/-- A fault gets past a handler if it is not caught, or if the handler fails itself. -/
theorem catching_eq_error_iff {caught : ErrorClass → Bool} {attempt handler : Except Fault α}
    {f : Fault} :
    catching caught attempt handler = .error f ↔
      (attempt = .error f ∧ caught f.errorClass = false) ∨
        (∃ g, attempt = .error g ∧ caught g.errorClass) ∧ handler = .error f := by
  cases attempt with
  | ok a => exact iff_of_false nofun (by rintro (⟨⟨⟩, -⟩ | ⟨⟨_, ⟨⟩, -⟩, -⟩))
  | error g =>
    rw [catching]
    cases hg : caught g.errorClass with
    | true =>
      rw [if_pos rfl]
      refine ⟨fun h => .inr ⟨⟨g, rfl, hg⟩, h⟩, ?_⟩
      rintro (⟨⟨⟩, hf⟩ | ⟨-, h⟩)
      · cases hf.symm.trans hg
      · exact h
    | false =>
      rw [if_neg nofun]
      refine ⟨fun h => .inl ⟨h, Except.error.inj h ▸ hg⟩, ?_⟩
      rintro (⟨h, -⟩ | ⟨⟨_, ⟨⟩, hc⟩, -⟩)
      · exact h
      · cases hc.symm.trans hg

end Fault
end Stencil
