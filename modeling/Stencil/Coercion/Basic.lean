import Stencil.Fault

/-!
# Coerced values

A conversion does not lack a value to print where an argument cannot be read as what is needed: a
default takes its place, and `ok` records that it did.

An argument may also raise an exception where it is asked for something.  Each reading names the
classes of exceptions that its default stands for (`guarded`); those of any other class are not
held back (`guarded_eq_error_iff`).
-/

set_option autoImplicit false

namespace Stencil

/-- What an argument is taken for, and whether it could be read as that. -/
structure Coerced (α : Type) where
  ok : Bool
  value : α
  deriving DecidableEq, Repr

namespace Coerced

variable {α β : Type}

/-- A value that was read from the argument. -/
def good (value : α) : Coerced α := ⟨true, value⟩

/-- A default in the place of an argument that could not be read. -/
def fallback (value : α) : Coerced α := ⟨false, value⟩

/-- A reading with a default. -/
def ofOption (default : α) : Option α → Coerced α
  | some a => good a
  | none => fallback default

/-- A reading whose default stands for the faults of some classes. -/
def guarded (caught : ErrorClass → Bool) (default : α) (r : Except Fault α) :
    Except Fault (Coerced α) :=
  Fault.catching caught (r.map good) (.ok (fallback default))

@[simp] theorem guarded_ok (caught : ErrorClass → Bool) (default value : α) :
    guarded caught default (.ok value) = .ok (good value) := rfl

/-- **A reading fails with the faults that its default does not stand for.** -/
theorem guarded_eq_error_iff {caught : ErrorClass → Bool} {default : α} {r : Except Fault α}
    {f : Fault} :
    guarded caught default r = .error f ↔ r = .error f ∧ caught f.errorClass = false := by
  rw [guarded, Fault.catching_eq_error_iff, or_iff_left (by rintro ⟨-, ⟨⟩⟩)]
  cases r with
  | ok a => exact iff_of_false (by rintro ⟨⟨⟩, -⟩) (by rintro ⟨⟨⟩, -⟩)
  | error g =>
    show Except.error g = Except.error f ∧ _ ↔ Except.error g = Except.error f ∧ _
    simp only [Except.error.injEq]

/-- A reading gives what was read, or the default in the place of a fault that it stands for. -/
theorem guarded_eq_ok_iff {caught : ErrorClass → Bool} {default : α} {r : Except Fault α}
    {c : Coerced α} :
    guarded caught default r = .ok c ↔
      (∃ a, r = .ok a ∧ c = good a) ∨
        ∃ f, r = .error f ∧ caught f.errorClass ∧ c = fallback default := by
  cases r with
  | ok a =>
    rw [guarded_ok]
    refine ⟨fun h => .inl ⟨a, rfl, (Except.ok.inj h).symm⟩, ?_⟩
    rintro (⟨_, ⟨⟩, rfl⟩ | ⟨_, ⟨⟩, -⟩)
    rfl
  | error f =>
    show (if caught f.errorClass then .ok (fallback default) else .error f) = Except.ok c ↔ _
    refine ⟨fun h => ?_, ?_⟩
    · split at h
      · exact .inr ⟨f, rfl, ‹_›, (Except.ok.inj h).symm⟩
      · cases h
    · rintro (⟨_, ⟨⟩, -⟩ | ⟨_, ⟨⟩, hf, rfl⟩)
      rw [if_pos hf]

/-- Only what was read counts as read. -/
theorem guarded_eq_ok_good_iff {caught : ErrorClass → Bool} {default value : α}
    {r : Except Fault α} : guarded caught default r = .ok (good value) ↔ r = .ok value := by
  rw [guarded_eq_ok_iff]
  constructor
  · rintro (⟨a, hr, h⟩ | ⟨_, -, -, ⟨⟩⟩)
    rw [hr, (Coerced.mk.inj h).2]
  · exact fun h => .inl ⟨value, h, rfl⟩

end Coerced

/-- The kinds of reading an argument can be asked for. -/
inductive Kind where
  | integer
  | float
  | size
  | text
  | char
  | truth
  | json
  deriving DecidableEq, Repr

end Stencil
