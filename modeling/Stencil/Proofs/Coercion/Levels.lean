import Stencil.Proofs.Coercion.Raised

/-!
# Fewer levels

Values are displayed and written with a number of levels for the containers in them.  How many there
are makes no difference to what comes out, only to whether it comes out: with fewer levels there is
the same text, the same fault, or the fault of a nesting that is too deep.

`Fault.Cut` is this relation between two attempts.  It is kept by whatever is put together from
attempts, so one induction on the parts of a value is enough for displaying
(`Value.quotedWithin_cut`) and one for writing (`Json.writeWithin_cut`).

This is what it means that a depth is enough: where a value can be displayed with some number of
levels, it is displayed in the same way with all larger numbers, and with all smaller ones that
suffice (`Value.quotedWithin_of_eq_ok`).
-/

set_option autoImplicit false

namespace Stencil

open Fallible Nesting

variable {α β : Type} {m n : Nat}

namespace Fault

/-! ## Attempts that are cut short

Two attempts that are continued in the same way are still related, since the one that was cut short
is not continued at all. -/

/-- The attempt `x` has the outcome of `y`, unless it was cut short by a nesting that is too
deep. -/
def Cut (x y : Except Fault α) : Prop := x = .error .tooDeep ∨ x = y

namespace Cut

/-- Nothing was cut short. -/
theorem refl (x : Except Fault α) : Cut x x := .inr rfl

/-- What goes on from two attempts goes on from both, or the first one was cut short. -/
theorem bind {x y : Except Fault α} {f g : α → Except Fault β} (h : Cut x y)
    (hfg : ∀ a, Cut (f a) (g a)) : Cut (x >>= f) (y >>= g) := by
  rcases h with rfl | rfl
  · exact .inl rfl
  · cases x with
    | error e => exact .inr rfl
    | ok a => exact hfg a

theorem bind_pure {x y : Except Fault α} (h : Cut x y) (f : α → β) :
    Cut (x >>= fun a => pure (f a)) (y >>= fun a => pure (f a)) :=
  h.bind fun a => refl (pure (f a))

/-- The first item at which the lists differ is one where the first attempt was cut short. -/
theorem mapM {f g : α → Except Fault β} {as : List α} (h : ∀ a ∈ as, Cut (f a) (g a)) :
    Cut (as.mapM f) (as.mapM g) := by
  induction as with
  | nil => exact refl _
  | cons a as ih =>
    rw [List.mapM_cons, List.mapM_cons]
    obtain ⟨ha, has⟩ := List.forall_mem_cons.1 h
    exact ha.bind fun b => (ih has).bind_pure _

/-- One level down, fewer levels are still fewer. -/
theorem enter {f : Nat → Except Fault α} (hmn : m ≤ n) (h : ∀ k l, k ≤ l → Cut (f k) (f l)) :
    Cut (enter .tooDeep m f) (enter .tooDeep n f) := by
  cases m with
  | zero => exact .inl rfl
  | succ k =>
    obtain ⟨l, rfl⟩ : ∃ l, n = l + 1 := ⟨n - 1, by omega⟩
    exact h k l (Nat.le_of_succ_le_succ hmn)

/-- Items that are one level further down, and take no other. -/
theorem mapM_enter (hmn : m ≤ n) (f : α → Except Fault β) (as : List α) :
    Cut (as.mapM fun a => Nesting.enter .tooDeep m fun _ => f a)
      (as.mapM fun a => Nesting.enter .tooDeep n fun _ => f a) :=
  .mapM fun a _ => .enter hmn fun _ _ _ => .refl (f a)

/-- A depth that is more than there are levels is more than fewer of them. -/
theorem ite (hmn : m ≤ n) (depth : Nat) (x : Except Fault α) :
    Cut (if m < depth then .error .tooDeep else x) (if n < depth then .error .tooDeep else x) := by
  split
  · exact .inl rfl
  · rw [if_neg (by omega)]
    exact refl x

end Cut
end Fault

open Fault

/-! ## Displaying

A container displays its parts with one level less.  If there is none left it is cut short, and
otherwise its parts are related by induction. -/

namespace Value

theorem formatMapText_cut (hmn : m ≤ n) (fm : FormatMap) :
    Cut (formatMapText m fm) (formatMapText n fm) := by
  cases fm with
  | names ns => exact .enter hmn fun _ _ h => .enter h fun _ _ _ => .refl _
  | pairs ps =>
    exact .enter hmn fun _ _ h => .enter h fun _ _ h => (Cut.mapM_enter h _ ps).bind_pure _

/-- With fewer levels, a value is displayed in the same way or not at all. -/
def IsCut (v : Value) : Prop := ∀ m n, m ≤ n → Cut (v.quotedWithin m) (v.quotedWithin n)

theorem quotedItems_cut {vs : List Value} (h : ∀ v ∈ vs, v.IsCut) (hmn : m ≤ n) :
    Cut (quotedItems m vs) (quotedItems n vs) := by
  rw [quotedItems_eq_mapM, quotedItems_eq_mapM]
  exact .mapM fun v hv => h v hv m n hmn

theorem quotedEntries_cut {es : List (Value × Value)}
    (h : ∀ p ∈ es.flatMap fun e => [e.1, e.2], p.IsCut) (hmn : m ≤ n) :
    Cut (quotedEntries m es) (quotedEntries n es) := by
  induction es with
  | nil => exact .refl _
  | cons e es ih =>
    obtain ⟨k, v⟩ := e
    rw [List.flatMap_cons, List.forall_mem_append] at h
    obtain ⟨hkv, hes⟩ := h
    exact (hkv k (by simp) m n hmn).bind fun _ => (hkv v (by simp) m n hmn).bind fun _ =>
      (ih hes).bind_pure _

theorem quotedFields_cut {fs : List (Text × Value)} (h : ∀ p ∈ fs.map (·.2), p.IsCut)
    (hmn : m ≤ n) : Cut (quotedFields m fs) (quotedFields n fs) := by
  induction fs with
  | nil => exact .refl _
  | cons f fs ih =>
    obtain ⟨name, v⟩ := f
    obtain ⟨hv, hfs⟩ := List.forall_mem_cons.1 h
    exact (hv m n hmn).bind fun _ => (ih hfs).bind_pure _

/-- **With fewer levels, a value is displayed in the same way**, or it is too deep. -/
theorem quotedWithin_cut (v : Value) (hmn : m ≤ n) :
    Cut (v.quotedWithin m) (v.quotedWithin n) := by
  refine induction_parts (P := IsCut) (fun v h m n hmn => ?_) v m n hmn
  cases v with
  | list vs | tuple vs | set frozen vs =>
    exact .enter hmn fun _ _ hkl => (quotedItems_cut h hkl).bind_pure _
  | dict es => exact .enter hmn fun _ _ hkl => (quotedEntries_cut h hkl).bind_pure _
  | record type fs => exact .enter hmn fun _ _ hkl => (quotedFields_cut h hkl).bind_pure _
  | formatMap fm => exact formatMapText_cut hmn fm
  | _ => exact .refl _

/-- A value that has a text has no other one, whatever the number of levels. -/
theorem quotedWithin_of_eq_ok {v : Value} {s : Text} (h : v.quotedWithin m = .ok s) (n : Nat) :
    v.quotedWithin n = .error .tooDeep ∨ v.quotedWithin n = .ok s := by
  rcases Nat.le_total n m with hle | hle
  · exact (quotedWithin_cut v hle).imp_right (·.trans h)
  · rcases quotedWithin_cut v hle with hcut | hsame
    · cases h.symm.trans hcut
    · exact .inr (hsame.symm.trans h)

end Value

/-! ## Writing

A set is the only container for which this takes more than its parts: before they are written they
are displayed, and are put in an order that depends on how.  Either all displayed forms are the
same, or one of them was cut short, and then the whole set was. -/

namespace Json

theorem ofFormatMap_cut (hmn : m ≤ n) (fm : FormatMap) :
    Cut (ofFormatMap m fm) (ofFormatMap n fm) := by
  cases fm with
  | names ns => exact .enter hmn fun _ _ h => .enter h fun _ _ _ => .refl _
  | pairs ps =>
    exact .enter hmn fun _ _ h => .enter h fun _ _ h => (Cut.mapM_enter h _ ps).bind_pure _

/-- With fewer levels, a value is written in the same way or not at all. -/
def IsCut (v : Value) : Prop := ∀ m n, m ≤ n → Cut (writeWithin m v) (writeWithin n v)

theorem writeItems_cut {vs : List Value} (h : ∀ v ∈ vs, IsCut v) (hmn : m ≤ n) :
    Cut (vs.mapM (writeWithin m)) (vs.mapM (writeWithin n)) :=
  .mapM fun v hv => h v hv m n hmn

theorem writeEntries_cut {es : List (Value × Value)}
    (h : ∀ p ∈ es.flatMap fun e => [e.1, e.2], IsCut p) (hmn : m ≤ n) :
    Cut (writeEntries m es) (writeEntries n es) := by
  induction es with
  | nil => exact .refl _
  | cons e es ih =>
    obtain ⟨k, v⟩ := e
    rw [List.flatMap_cons, List.forall_mem_append] at h
    obtain ⟨hkv, hes⟩ := h
    exact (Cut.refl (key k)).bind fun _ => (hkv v (by simp) m n hmn).bind fun _ =>
      (ih hes).bind_pure _

theorem writeFields_cut {fs : List (Text × Value)} (h : ∀ p ∈ fs.map (·.2), IsCut p)
    (hmn : m ≤ n) : Cut (writeFields m fs) (writeFields n fs) := by
  induction fs with
  | nil => exact .refl _
  | cons f fs ih =>
    obtain ⟨name, v⟩ := f
    obtain ⟨hv, hfs⟩ := List.forall_mem_cons.1 h
    exact (hv m n hmn).bind fun _ => (ih hfs).bind_pure _

/-- **With fewer levels, a value is written in the same way**, or it is too deep. -/
theorem writeWithin_cut (v : Value) (hmn : m ≤ n) : Cut (writeWithin m v) (writeWithin n v) := by
  refine Value.induction_parts (P := IsCut) (fun v h m n hmn => ?_) v m n hmn
  cases v with
  | list vs | tuple vs =>
    rw [writeWithin, writeWithin]
    refine .enter hmn fun k l hkl => ?_
    rw [writeItems_eq_mapM, writeItems_eq_mapM]
    exact (writeItems_cut h hkl).bind_pure _
  | set frozen vs =>
    rw [writeWithin, writeWithin]
    refine .enter hmn fun k l hkl => ?_
    have hkeys : Cut (Value.quotedItems k vs) (Value.quotedItems l vs) :=
      Value.quotedItems_cut (fun v _ _ _ => Value.quotedWithin_cut v) hkl
    have hlook : Cut (lookThrough k vs) (lookThrough l vs) := Cut.ite hkl _ _
    refine hkeys.bind fun keys => hlook.bind fun _ => ?_
    rw [mapM_sortedByKey_attempts, mapM_sortedByKey_attempts]
    exact (writeItems_cut (fun v hv => h v (mem_of_mem_sortedByKey hv)) hkl).bind_pure _
  | dict es => exact .enter hmn fun _ _ hkl => (writeEntries_cut h hkl).bind_pure _
  | record type fs =>
    refine .enter hmn fun k l hkl => ?_
    have hlook : Cut (takeApart k fs) (takeApart l fs) := Cut.ite hkl _ _
    exact hlook.bind fun _ => (writeFields_cut h hkl).bind_pure _
  | formatMap fm => exact ofFormatMap_cut hmn fm
  | _ => exact .refl _

end Json
end Stencil
