/-!
# Items by index

An index counts the items of a list from zero on.  A **negative** index counts them from the end,
so that `-1` stands for the last one.  `split` cuts a list in front of an index, or at an end of the
list where it has no such item; `write?` puts another item at an index, and has no result where
there is none.

There is no index from the end for the end itself: it would be `-0`, which is the beginning
(`split_neg_zero`).
-/

set_option autoImplicit false

namespace Stencil
namespace Indexing

variable {α : Type}

/-- The place among `n` items that an index stands for. -/
def place (n : Nat) (i : Int) : Int := if i < 0 then n + i else i

theorem place_of_nonneg {n : Nat} {i : Int} (h : 0 ≤ i) : place n i = i := if_neg (Int.not_lt.2 h)

/-! ## Cutting -/

/-- The items in front of an index, and the items from it on. -/
def split (i : Int) (as : List α) : List α × List α := as.splitAt (place as.length i).toNat

@[simp] theorem split_append (i : Int) (as : List α) : (split i as).1 ++ (split i as).2 = as := by
  rw [split, List.splitAt_eq]
  exact List.take_append_drop _ as

theorem length_split_neg {k : Nat} {as : List α} (hk : 0 < k) (h : k ≤ as.length) :
    (split (-k) as).2.length = k := by
  have hplace : (place as.length (-k)).toNat = as.length - k := by
    rw [place, if_pos (by omega)]
    omega
  rw [split, List.splitAt_eq, hplace, List.length_drop]
  omega

/-- Something stands behind an index from the end, and nothing in front of `-0`. -/
theorem length_split_neg_fst_lt (k : Nat) {as : List α} (h : as ≠ []) :
    (split (-k) as).1.length < as.length := by
  have hpos := List.length_pos_iff.2 h
  rw [split, List.splitAt_eq, List.length_take, place]
  split <;> omega

/-- Where something stands in front of an index, there is less behind it. -/
theorem length_split_snd_lt {i : Int} {as : List α} (h : (split i as).1 ≠ []) :
    (split i as).2.length < as.length := by
  have hpos := List.length_pos_iff.2 h
  have hlength := congrArg List.length (split_append i as)
  rw [List.length_append] at hlength
  omega

theorem split_neg_zero (as : List α) : split (-(0 : Nat)) as = ([], as) := by
  rw [split, place, if_neg (by decide), List.splitAt_eq]
  rfl

/-! ## Writing -/

/-- A list with another item at an index. -/
def write? (i : Int) (a : α) (as : List α) : Option (List α) :=
  if 0 ≤ place as.length i ∧ place as.length i < as.length then
    some (as.set (place as.length i).toNat a)
  else none

theorem write?_eq_some {i : Int} {as : List α} (h0 : 0 ≤ i) (h : i < as.length) (a : α) :
    write? i a as = some (as.set i.toNat a) := by
  rw [write?, place_of_nonneg h0, if_pos ⟨h0, h⟩]

end Indexing
end Stencil
