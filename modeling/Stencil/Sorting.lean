/-!
# Stable sorting

Sets are written in the order of their elements' texts, and the slots of a format map are filled in
the order of their indices.  Both want a **stable** sort: elements of which neither is before the
other keep their order.  `sortBy` inserts one element after the other, which is all that such short
lists need.

It rearranges its list (`sortBy_perm`), its result is ordered when the comparison is total and
transitive (`pairwise_sortBy`), and it looks at nothing but the comparison (`map_sortBy`).
-/

set_option autoImplicit false

namespace Stencil
namespace Sorting

variable {α : Type}

/-- Puts an element in front of the first one that it is not after. -/
def insertBy (le : α → α → Bool) (a : α) : List α → List α
  | [] => [a]
  | b :: bs => if le a b then a :: b :: bs else b :: insertBy le a bs

/-- A list in the order of `le`. -/
def sortBy (le : α → α → Bool) (as : List α) : List α := as.foldr (insertBy le) []

theorem insertBy_perm (le : α → α → Bool) (a : α) (bs : List α) :
    (insertBy le a bs).Perm (a :: bs) := by
  induction bs with
  | nil => exact .refl _
  | cons b bs ih =>
    unfold insertBy
    split
    · exact .refl _
    · exact (ih.cons b).trans (.swap a b bs)

/-- A sorted list has the elements of the list. -/
theorem sortBy_perm (le : α → α → Bool) (as : List α) : (sortBy le as).Perm as := by
  induction as with
  | nil => exact .refl _
  | cons a as ih => exact (insertBy_perm le a _).trans (ih.cons a)

theorem pairwise_insertBy {le : α → α → Bool} (total : ∀ a b, le a b || le b a)
    (trans : ∀ a b c, le a b → le b c → le a c) {a : α} {bs : List α}
    (h : bs.Pairwise fun x y => le x y) : (insertBy le a bs).Pairwise fun x y => le x y := by
  induction bs with
  | nil => simp [insertBy]
  | cons b bs ih =>
    obtain ⟨hb, hbs⟩ := List.pairwise_cons.1 h
    unfold insertBy
    split
    · rename_i hab
      refine List.pairwise_cons.2 ⟨fun x hx => ?_, h⟩
      rcases List.mem_cons.1 hx with rfl | hx
      · exact hab
      · exact trans _ _ _ hab (hb x hx)
    · rename_i hab
      refine List.pairwise_cons.2 ⟨fun x hx => ?_, ih hbs⟩
      rcases List.mem_cons.1 ((insertBy_perm le a bs).mem_iff.1 hx) with rfl | hx
      · simpa [hab] using total x b
      · exact hb x hx

/-- A sorted list is ordered. -/
theorem pairwise_sortBy {le : α → α → Bool} (total : ∀ a b, le a b || le b a)
    (trans : ∀ a b c, le a b → le b c → le a c) (as : List α) :
    (sortBy le as).Pairwise fun x y => le x y := by
  induction as with
  | nil => exact .nil
  | cons a as ih => exact pairwise_insertBy total trans ih

variable {β : Type} {le : α → α → Bool} {le' : β → β → Bool} {f : α → β}

theorem map_insertBy (h : ∀ a b, le' (f a) (f b) = le a b) (a : α) (bs : List α) :
    (insertBy le a bs).map f = insertBy le' (f a) (bs.map f) := by
  induction bs with
  | nil => rfl
  | cons b bs ih =>
    rw [insertBy, List.map_cons, insertBy, h]
    split
    · rfl
    · rw [List.map_cons, ih]

/-- What the comparison does not see may be changed before sorting or after it. -/
theorem map_sortBy (h : ∀ a b, le' (f a) (f b) = le a b) (as : List α) :
    (sortBy le as).map f = sortBy le' (as.map f) := by
  induction as with
  | nil => rfl
  | cons a as ih =>
    show (insertBy le a (sortBy le as)).map f = insertBy le' (f a) (sortBy le' (as.map f))
    rw [map_insertBy h, ih]

end Sorting
end Stencil
