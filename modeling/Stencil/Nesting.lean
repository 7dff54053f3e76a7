/-!
# Limits of nesting

A value is displayed, written or read by recursion, and the machine follows a recursion only so far.
How far is not for the library to say: it depends on the machine, on what is being done and on who
asks.  What can be said is that the levels of containers count, one inside the other, and that
nothing that is nested deeper than a limit is followed to its end.

`Nesting` is a limit for each of the three things that follow a nesting: displaying, writing and
reading.  They take more or less for a level, so the limits differ.  Everything that follows a
nesting takes its limit from there, and nothing that is proved depends on the values.
-/

set_option autoImplicit false

namespace Stencil

/-- How many levels of containers can be followed. -/
class Nesting where
  /-- The levels of a value that is displayed. -/
  displayLimit : Nat
  /-- The levels of a value that is written. -/
  limit : Nat
  /-- The levels of a text that is read. -/
  readLimit : Nat
  /-- Reading takes less than writing for a level, so that what could be written can be read. -/
  limit_le_readLimit : limit ≤ readLimit

namespace Nesting

/-- The limits of a machine that follows a thousand calls, of which writing takes two for a level,
displaying and reading one. -/
instance : Nesting := ⟨980, 490, 980, by decide⟩

variable {ε α : Type} {e : ε} {levels : Nat} {f : Nat → Except ε α} {a : α}

/-- Goes one level down with the levels that are left then, and fails where there are none. -/
def enter (e : ε) (levels : Nat) (f : Nat → Except ε α) : Except ε α :=
  match levels with
  | 0 => .error e
  | n + 1 => f n

@[simp] theorem enter_zero (e : ε) (f : Nat → Except ε α) : enter e 0 f = .error e := rfl

@[simp] theorem enter_succ (e : ε) (n : Nat) (f : Nat → Except ε α) : enter e (n + 1) f = f n := rfl

theorem enter_eq_ok_iff : enter e levels f = .ok a ↔ ∃ n, levels = n + 1 ∧ f n = .ok a := by
  cases levels with
  | zero => exact iff_of_false nofun (by rintro ⟨_, ⟨⟩, -⟩)
  | succ n => exact ⟨fun h => ⟨n, rfl, h⟩, by rintro ⟨_, ⟨⟩, h⟩; exact h⟩

end Nesting
end Stencil
