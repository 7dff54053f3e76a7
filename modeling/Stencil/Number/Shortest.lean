import Stencil.Number.Binary64

/-!
# The shortest decimal of a double

Every real number near enough to a double is read as that double.  Among the decimals in this
interval, `shortest` finds one with the fewest digits, and of several with that many the nearest.
It tests the grids of 1, 2, … 17 digits in turn: if a grid has a point in the interval, then one
of the two grid points next to the double lies in it.
-/

set_option autoImplicit false

namespace Stencil
namespace Shortest

open Rounding Rounding.Quotient

/-- The interval of the numbers that are read as `m · 2 ^ e`.  Its ends are halfway to the
neighbouring doubles, and belong to it when `m` is even.  Below a power of two the neighbour is
only half as far away. -/
structure Interval where
  low : Quotient
  high : Quotient
  closed : Bool
  deriving Repr

/-- The interval around `m · 2 ^ e`. -/
def interval (m : Nat) (e : Int) : Interval where
  low := scale 2 (e - 2) ⟨4 * m - (if m = 0x10000000000000 ∧ e ≠ -1074 then 1 else 2), 1⟩
  high := scale 2 (e - 2) ⟨4 * m + 2, 1⟩
  closed := m % 2 = 0

/-- A number lies in an interval. -/
def Interval.contains (i : Interval) (x : Quotient) : Bool :=
  le i.low x && le x i.high && (i.closed || (!le x i.low && !le i.high x))

/-- The point of the grid of multiples of `10 ^ k` that lies in the interval of the double, the
nearer of two, and the even one of two that are equally near. -/
def gridPoint? (i : Interval) (x : Quotient) (k : Int) : Option Nat :=
  let scaled := scale 10 (-k) x
  let below := scaled.floor
  let inside (n : Nat) : Bool := i.contains (scale 10 k ⟨n, 1⟩)
  if inside below && inside (below + 1) then some scaled.round
  else if inside below then some below
  else if inside (below + 1) then some (below + 1)
  else none

/-- Searches the grids from `10 ^ k` on down, `more` further grids at most. -/
def search (i : Interval) (x : Quotient) : (more : Nat) → (k : Int) → Nat × Int
  | 0, k => ((scale 10 (-k) x).round, k)
  | more + 1, k =>
    match gridPoint? i x k with
    | some n => (n, k)
    | none => search i x more (k - 1)

/-- The shortest decimal `n · 10 ^ k` that is read as `m · 2 ^ e`, for `m > 0`. -/
def shortest (m : Nat) (e : Int) : Nat × Int :=
  let x := Binary64.magnitude m e
  search (interval m e) x 16 x.decimalPlace

end Shortest
end Stencil
