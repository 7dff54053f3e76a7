import Stencil.Fault
import Stencil.Indexing
import Stencil.Sorting

/-!
# Format maps

A format map says at which position of the arguments each named placeholder is found.  It is
either a list of names, numbered from one in order, or a list of names with indices of their own,
which may be sparse, reused and out of order.

`indexOf?` is the direction from name to position, where the **first** entry of a name counts.
`slots` is the direction from position to name, used when arguments are given by name; there the
**last** entry of an index counts.
-/

set_option autoImplicit false

namespace Stencil

/-- The positions of named placeholders. -/
inductive FormatMap where
  /-- Names with the positions 1, 2, … in order. -/
  | names (names : List Text)
  /-- Names with positions of their own. -/
  | pairs (pairs : List (Text × Int))
  deriving DecidableEq, Repr

namespace FormatMap

/-- The map that is used where none is given. -/
def standard : FormatMap :=
  names ["date".toList, "type".toList, "level".toList, "message".toList]

/-- The first position of a name, counted from `i`, in a list of names. -/
def positionFrom? (name : Text) : (i : Nat) → List Text → Option Nat
  | _, [] => none
  | i, n :: ns => if n = name then some i else positionFrom? name (i + 1) ns

/-- The position of a name: that of its first entry. -/
def indexOf? (name : Text) : FormatMap → Option Int
  | names ns => (positionFrom? name 1 ns).map Int.ofNat
  | pairs ps => (ps.find? fun p => p.1 = name).map (·.2)

/-- The largest index of a list of pairs, and zero when there is none. -/
def largestIndex : List (Text × Int) → Int
  | [] => 0
  | [p] => p.2
  | p :: ps => max p.2 (largestIndex ps)

/-- More entries than a list can have. -/
def maxSlots : Int := 0x8000000000000000

/-! ## Slots

Slots are made empty and then written to, one pair after the other.  Writing has no result where an
index has no slot; there are as many slots as the largest index says, so this does not happen
(`enterAll?_eq_some`).
-/

/-- Writes the name of a pair into the slot of its index; indices below one have none. -/
def enter? (slots : List (Option Text)) (p : Text × Int) : Option (List (Option Text)) :=
  if 1 ≤ p.2 then Indexing.write? (p.2 - 1) (some p.1) slots else some slots

/-- The slots after all pairs are entered.  This is done by increasing index and in order of
declaration, so the last pair of an index gives its name. -/
def enterAll? (ps : List (Text × Int)) : Option (List (Option Text)) :=
  (Sorting.sortBy (fun p q => p.2 ≤ q.2) ps).foldlM enter?
    (List.replicate (largestIndex ps).toNat none)

/-- Writes the names of the pairs into the slots that there are. -/
def fillSlots (ps : List (Text × Int)) (slots : List (Option Text)) : List (Option Text) :=
  ps.foldl (fun slots p => if 1 ≤ p.2 then slots.set (p.2.toNat - 1) (some p.1) else slots) slots

@[simp] theorem length_fillSlots (ps : List (Text × Int)) (slots : List (Option Text)) :
    (fillSlots ps slots).length = slots.length := by
  induction ps generalizing slots with
  | nil => rfl
  | cons p ps ih =>
    show (fillSlots ps (if 1 ≤ p.2 then slots.set (p.2.toNat - 1) (some p.1) else slots)).length = _
    rw [ih]
    split
    · exact List.length_set
    · rfl

theorem enter?_eq_some {slots : List (Option Text)} {p : Text × Int} (h : p.2 ≤ slots.length) :
    enter? slots p = some (fillSlots [p] slots) := by
  show _ = some (if 1 ≤ p.2 then slots.set (p.2.toNat - 1) (some p.1) else slots)
  rw [enter?]
  split
  · have hplace : (p.2 - 1).toNat = p.2.toNat - 1 := by omega
    rw [Indexing.write?_eq_some (by omega) (by omega), hplace]
  · rfl

/-- Writing has a result where there is a slot for every index. -/
theorem foldlM_enter?_eq_some {ps : List (Text × Int)} {slots : List (Option Text)}
    (h : ∀ p ∈ ps, p.2 ≤ slots.length) : ps.foldlM enter? slots = some (fillSlots ps slots) := by
  induction ps generalizing slots with
  | nil => rfl
  | cons p ps ih =>
    rw [List.foldlM_cons, enter?_eq_some (h p List.mem_cons_self)]
    refine ih fun q hq => ?_
    rw [length_fillSlots]
    exact h q (List.mem_cons_of_mem p hq)

theorem le_largestIndex {p : Text × Int} {ps : List (Text × Int)} (h : p ∈ ps) :
    p.2 ≤ largestIndex ps := by
  induction ps with
  | nil => cases h
  | cons q ps ih =>
    cases ps with
    | nil =>
      obtain rfl := List.mem_singleton.1 h
      exact Int.le_refl _
    | cons r ps =>
      rw [largestIndex]
      rcases List.mem_cons.1 h with rfl | h
      · exact Int.le_max_left _ _
      · exact Int.le_trans (ih h) (Int.le_max_right _ _)
      · simp

/-- **Every index has a slot**, so entering the pairs has a result. -/
theorem enterAll?_eq_some (ps : List (Text × Int)) :
    enterAll? ps = some (fillSlots (Sorting.sortBy (fun p q => p.2 ≤ q.2) ps)
      (List.replicate (largestIndex ps).toNat none)) := by
  refine foldlM_enter?_eq_some fun p hp => ?_
  rw [List.length_replicate]
  exact Int.le_trans (le_largestIndex ((Sorting.sortBy_perm _ ps).mem_iff.1 hp))
    (Int.self_le_toNat _)

/-- The name of each position from one to the largest index. -/
def slots : FormatMap → Except Fault (List (Option Text))
  | names ns => .ok (ns.map some)
  | pairs ps =>
    if maxSlots ≤ largestIndex ps then .error .sizeTooLarge
    else .ok ((enterAll? ps).get (Option.isSome_of_eq_some (enterAll?_eq_some ps)))

theorem slots_pairs_eq {ps : List (Text × Int)} (h : largestIndex ps < maxSlots) :
    (pairs ps).slots = .ok (fillSlots (Sorting.sortBy (fun p q => p.2 ≤ q.2) ps)
      (List.replicate (largestIndex ps).toNat none)) := by
  rw [slots, if_neg (Int.not_le.2 h), Option.get_of_eq_some _ (enterAll?_eq_some ps)]

end FormatMap
end Stencil
