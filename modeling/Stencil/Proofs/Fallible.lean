/-!
# Steps that may fail

Going through a list with a step that may fail gives all results or the first fault.  Where the step
goes through the parts of a value in turn, this is the first fault that is reached anywhere in it
(`eq_error_iff_failsAt`).

Two computations are `Alike` when they fail in the same way, or both succeed with results that are
related.  Computations that are alike can be continued in ways that are alike (`Alike.bind`).

A computation that `FailsOnly` in certain ways has no other faults.  What it is put together from
may not have others either, and this is enough (`FailsOnly.bind`).

All of this is about `Except` alone and knows nothing of templates or values.  The lemmas with
`eq_error_iff` say exactly when a composite fails, those about `FailsOnly` only bound how it does,
and are what is needed where it does not matter in which part it happens.
-/

set_option autoImplicit false

namespace Stencil
namespace Fallible

variable {α β γ ε : Type} {f : α → Except ε β}

/-! ## One step after another

A failure goes through everything that follows it, so a composite fails with the first fault and
succeeds only where all its steps do. -/

theorem ok_bind (a : α) (g : α → Except ε β) : Except.ok a >>= g = g a := rfl

theorem exists_of_bind {x : Except ε α} {g : α → Except ε β} {b : β} (h : x >>= g = .ok b) :
    ∃ a, x = .ok a ∧ g a = .ok b := by
  cases x with
  | error e => cases h
  | ok a => exact ⟨a, rfl, h⟩

theorem bind_eq_error_iff {x : Except ε α} {g : α → Except ε β} {e : ε} :
    x >>= g = .error e ↔ x = .error e ∨ ∃ a, x = .ok a ∧ g a = .error e := by
  cases x with
  | error e' =>
    constructor
    · intro h
      cases h
      exact .inl rfl
    · rintro (h | ⟨a, h, -⟩) <;> cases h
      rfl
  | ok a =>
    constructor
    · exact fun h => .inr ⟨a, rfl, h⟩
    · rintro (h | ⟨b, h, hb⟩) <;> cases h
      exact hb

theorem not_pure_eq_error {a : α} {e : ε} : ¬ (pure a : Except ε α) = .error e := nofun

/-- What never fails adds no fault. -/
theorem bind_pure_eq_error_iff {x : Except ε α} {g : α → β} {e : ε} :
    (x >>= fun a => pure (g a)) = .error e ↔ x = .error e := by
  rw [bind_eq_error_iff]
  exact ⟨fun h => h.resolve_right nofun, .inl⟩

theorem exists_bind_pure_eq_ok_iff {x : Except ε α} {g : α → β} :
    (∃ b, (x >>= fun a => pure (g a)) = .ok b) ↔ ∃ a, x = .ok a := by
  cases x with
  | error e => exact ⟨nofun, nofun⟩
  | ok a => exact iff_of_true ⟨g a, rfl⟩ ⟨a, rfl⟩

theorem map_eq_error_iff {x : Except ε α} {g : α → β} {e : ε} :
    x.map g = .error e ↔ x = .error e := bind_pure_eq_error_iff

theorem exists_map_eq_ok_iff {x : Except ε α} {g : α → β} :
    (∃ b, x.map g = .ok b) ↔ ∃ a, x = .ok a := exists_bind_pure_eq_ok_iff

theorem exists_ite_eq_ok_iff {c : Prop} [Decidable c] {a : α} {e : ε} :
    (∃ b, (if c then .error e else .ok a : Except ε α) = .ok b) ↔ ¬ c := by
  split
  · exact iff_of_false nofun (not_not_intro ‹c›)
  · exact iff_of_true ⟨a, rfl⟩ ‹¬ c›

/-! ## Lists of steps

The results are those of the steps, in order; and the fault is that of the first step which has one,
since no later one is tried. -/

theorem mapM_cons_ok {a : α} {as : List α} {b : β} {bs : List β} (ha : f a = .ok b)
    (has : as.mapM f = .ok bs) : (a :: as).mapM f = .ok (b :: bs) := by
  rw [List.mapM_cons, ha, has]
  rfl

theorem mapM_cons_error {a : α} {e : ε} (ha : f a = .error e) (as : List α) :
    (a :: as).mapM f = .error e := by
  rw [List.mapM_cons, ha]
  rfl

theorem mapM_cons_ok_error {a : α} {as : List α} {b : β} {e : ε} (ha : f a = .ok b)
    (has : as.mapM f = .error e) : (a :: as).mapM f = .error e := by
  rw [List.mapM_cons, ha, has]
  rfl

/-- A list that succeeds has succeeded with its head and with its tail. -/
theorem exists_of_mapM_cons {a : α} {as : List α} {bs : List β}
    (h : (a :: as).mapM f = .ok bs) :
    ∃ b bs', f a = .ok b ∧ as.mapM f = .ok bs' ∧ bs = b :: bs' := by
  cases ha : f a with
  | error e =>
    rw [mapM_cons_error ha] at h
    cases h
  | ok b =>
    cases has : as.mapM f with
    | error e =>
      rw [mapM_cons_ok_error ha has] at h
      cases h
    | ok bs' =>
      rw [mapM_cons_ok ha has] at h
      cases h
      exact ⟨b, bs', rfl, rfl, rfl⟩

/-- A list fails with its head, or after it with its tail. -/
theorem mapM_cons_eq_error_iff {a : α} {as : List α} {e : ε} :
    (a :: as).mapM f = .error e ↔
      f a = .error e ∨ ∃ b, f a = .ok b ∧ as.mapM f = .error e := by
  rw [List.mapM_cons, bind_eq_error_iff]
  simp only [bind_pure_eq_error_iff]

/-- A step that never fails gives the results one by one. -/
theorem mapM_eq_ok {g : α → β} {as : List α} (h : ∀ a ∈ as, f a = .ok (g a)) :
    as.mapM f = .ok (as.map g) := by
  induction as with
  | nil => rfl
  | cons a as ih =>
    exact mapM_cons_ok (h a List.mem_cons_self) (ih fun x hx => h x (List.mem_cons_of_mem a hx))

theorem exists_mapM_eq_ok {as : List α} (h : ∀ a ∈ as, ∃ b, f a = .ok b) :
    ∃ bs, as.mapM f = .ok bs := by
  induction as with
  | nil => exact ⟨[], rfl⟩
  | cons a as ih =>
    obtain ⟨b, hb⟩ := h a List.mem_cons_self
    obtain ⟨bs, hbs⟩ := ih fun x hx => h x (List.mem_cons_of_mem a hx)
    exact ⟨b :: bs, mapM_cons_ok hb hbs⟩

/-- Where only one fault is possible, a single failing step gives it. -/
theorem mapM_eq_error {as : List α} {e : ε} (h : ∀ a ∈ as, f a = .error e ∨ ∃ b, f a = .ok b)
    {a : α} (ha : a ∈ as) (hf : f a = .error e) : as.mapM f = .error e := by
  induction as with
  | nil => cases ha
  | cons x as ih =>
    rcases h x List.mem_cons_self with hx | ⟨b, hx⟩
    · exact mapM_cons_error hx as
    · have hm : a ∈ as := by
        refine (List.mem_cons.1 ha).resolve_left ?_
        rintro rfl
        rw [hx] at hf
        cases hf
      exact mapM_cons_ok_error hx (ih (fun y hy => h y (List.mem_cons_of_mem x hy)) hm)

theorem map_eq_of_mapM_eq_ok {g : α → γ} {g' : β → γ} {as : List α} {bs : List β}
    (hg : ∀ a ∈ as, ∀ b, f a = .ok b → g' b = g a) (h : as.mapM f = .ok bs) :
    bs.map g' = as.map g := by
  induction as generalizing bs with
  | nil =>
    cases h
    rfl
  | cons a as ih =>
    obtain ⟨b, bs', hb, hbs, rfl⟩ := exists_of_mapM_cons h
    rw [List.map_cons, List.map_cons, hg a List.mem_cons_self b hb,
      ih (fun x hx => hg x (List.mem_cons_of_mem a hx)) hbs]

/-- Every result is that of some item. -/
theorem exists_mem_of_mapM_eq_ok {as : List α} {bs : List β} (h : as.mapM f = .ok bs) {b : β}
    (hb : b ∈ bs) : ∃ a ∈ as, f a = .ok b := by
  induction as generalizing bs with
  | nil =>
    cases h
    cases hb
  | cons a as ih =>
    obtain ⟨b', bs', hb', hbs, rfl⟩ := exists_of_mapM_cons h
    rcases List.mem_cons.1 hb with rfl | hm
    · exact ⟨a, List.mem_cons_self, hb'⟩
    · obtain ⟨x, hx, hxb⟩ := ih hbs hm
      exact ⟨x, List.mem_cons_of_mem a hx, hxb⟩

/-- Every item has a result. -/
theorem exists_of_mem_of_mapM_eq_ok {as : List α} {bs : List β} (h : as.mapM f = .ok bs) {a : α}
    (ha : a ∈ as) : ∃ b, f a = .ok b := by
  induction as generalizing bs with
  | nil => cases ha
  | cons x as ih =>
    obtain ⟨b, bs', hb, hbs, rfl⟩ := exists_of_mapM_cons h
    rcases List.mem_cons.1 ha with rfl | hm
    · exact ⟨b, hb⟩
    · exact ih hbs hm

/-- **Going through a list fails at the first step that fails**, and with its fault. -/
theorem mapM_eq_error_iff {as : List α} {e : ε} :
    as.mapM f = .error e ↔ ∃ before a after, as = before ++ a :: after ∧
      (∀ b ∈ before, ∃ r, f b = .ok r) ∧ f a = .error e := by
  constructor
  · intro h
    induction as with
    | nil => cases h
    | cons a as ih =>
      cases ha : f a with
      | error e' =>
        rw [mapM_cons_error ha] at h
        cases h
        exact ⟨[], a, as, rfl, by simp, ha⟩
      | ok r =>
        cases has : as.mapM f with
        | ok rs =>
          rw [mapM_cons_ok ha has] at h
          cases h
        | error e' =>
          rw [mapM_cons_ok_error ha has] at h
          cases h
          obtain ⟨before, b, after, rfl, hb, hf⟩ := ih has
          exact ⟨a :: before, b, after, rfl, List.forall_mem_cons.2 ⟨⟨r, ha⟩, hb⟩, hf⟩
  · rintro ⟨before, a, after, rfl, hb, hf⟩
    induction before with
    | nil => exact mapM_cons_error hf after
    | cons b before ih =>
      obtain ⟨⟨r, hr⟩, hb⟩ := List.forall_mem_cons.1 hb
      exact mapM_cons_ok_error hr (ih hb)

/-- A list that is changed first and then gone through fails as the list itself. -/
theorem mapM_map_eq_error_iff {α' : Type} {g : α → α'} {h : α' → Except ε γ} {k : β → γ}
    (hf : ∀ a, h (g a) = (f a).map k) {as : List α} {e : ε} :
    (as.map g).mapM h = .error e ↔ as.mapM f = .error e := by
  induction as with
  | nil => exact iff_of_false nofun nofun
  | cons a as ih =>
    rw [List.map_cons, mapM_cons_eq_error_iff, mapM_cons_eq_error_iff, hf, map_eq_error_iff, ih,
      exists_and_right, exists_and_right, exists_map_eq_ok_iff]

/-- Computations with the same faults succeed together. -/
theorem exists_eq_ok_congr {x : Except ε α} {y : Except ε β}
    (h : ∀ e, x = .error e ↔ y = .error e) : (∃ a, x = .ok a) ↔ ∃ b, y = .ok b := by
  cases x with
  | ok a =>
    cases y with
    | ok b => exact iff_of_true ⟨a, rfl⟩ ⟨b, rfl⟩
    | error e => cases (h e).2 rfl
  | error e =>
    rw [(h e).1 rfl]
    exact iff_of_false nofun nofun

/-- The second list is only reached where the first one succeeds. -/
theorem mapM_append_eq_error_iff {as bs : List α} {e : ε} :
    (as ++ bs).mapM f = .error e ↔
      as.mapM f = .error e ∨ (∃ rs, as.mapM f = .ok rs) ∧ bs.mapM f = .error e := by
  rw [List.mapM_append, bind_eq_error_iff, ← exists_and_right]
  simp only [bind_pure_eq_error_iff]

/-! ## Failing in a part

Values are nested, and what is done to one is done to its parts.  `FailsAt` says where in such a
nest the first failure is, without going through it step by step. -/

/-- A value fails by itself, or in one of its parts after parts that do not fail. -/
inductive FailsAt (base : α → Prop) (parts : α → List α) (f : α → Except ε β) : α → Prop where
  | self {a : α} (h : base a) : FailsAt base parts f a
  | part {a p : α} {before after : List α} (ha : parts a = before ++ p :: after)
      (hbefore : ∀ b ∈ before, ∃ r, f b = .ok r) (h : FailsAt base parts f p) :
      FailsAt base parts f a

/-- What has no parts and does not fail by itself does not fail. -/
theorem eq_error_iff_of_leaf {x : Except ε γ} {e : ε} {base : Prop} {ps : List α}
    (hx : x ≠ .error e) (hb : ¬ base) (hp : ps = []) :
    x = .error e ↔ base ∨ ps.mapM f = .error e := by
  subst hp
  exact iff_of_false hx (not_or.2 ⟨hb, nofun⟩)

/-- **A step that fails by itself or in a part fails where the first failure is reached.** -/
theorem eq_error_iff_failsAt [SizeOf α] {base : α → Prop} {parts : α → List α} {e : ε}
    (hsize : ∀ a, ∀ p ∈ parts a, sizeOf p < sizeOf a)
    (hstep : ∀ a, f a = .error e ↔ base a ∨ (parts a).mapM f = .error e) (a : α) :
    f a = .error e ↔ FailsAt base parts f a := by
  constructor
  · intro h
    rcases (hstep a).1 h with h | h
    · exact .self h
    · obtain ⟨before, p, after, ha, hbefore, hp⟩ := mapM_eq_error_iff.1 h
      have hlt : sizeOf p < sizeOf a := hsize a p (by simp [ha])
      exact .part ha hbefore ((eq_error_iff_failsAt hsize hstep p).1 hp)
  · intro h
    induction h with
    | self h => exact (hstep _).2 (.inl h)
    | part ha hbefore _ ih =>
      exact (hstep _).2 (.inr (mapM_eq_error_iff.2 ⟨_, _, _, ha, hbefore, ih⟩))
termination_by sizeOf a

/-! ## Computations that are alike

Two ways of doing the same thing are compared at each step.  Their results need not be equal, only
related in such a way that the next steps are alike again. -/

/-- Both fail with the same fault, or both succeed with related results. -/
def Alike (R : α → β → Prop) : Except ε α → Except ε β → Prop
  | .ok a, .ok b => R a b
  | .error e, .error e' => e = e'
  | _, _ => False

namespace Alike

variable {α' β' : Type} {R : α → β → Prop} {S : α' → β' → Prop}
  {x : Except ε α} {y : Except ε β}

theorem bind {g : α → Except ε α'} {g' : β → Except ε β'} (h : Alike R x y)
    (hg : ∀ a b, R a b → Alike S (g a) (g' b)) : Alike S (x >>= g) (y >>= g') := by
  cases x with
  | ok a =>
    cases y with
    | ok b => exact hg a b h
    | error e => exact h.elim
  | error e =>
    cases y with
    | ok b => exact h.elim
    | error e' => exact h

theorem cases (h : Alike R x y) :
    (∃ a b, x = .ok a ∧ y = .ok b ∧ R a b) ∨ ∃ e, x = .error e ∧ y = .error e := by
  cases x with
  | ok a =>
    cases y with
    | ok b => exact .inl ⟨a, b, rfl, rfl, h⟩
    | error e => exact h.elim
  | error e =>
    cases y with
    | ok b => exact h.elim
    | error e' =>
      cases h
      exact .inr ⟨e, rfl, rfl⟩

/-- A computation is like itself where its results are related to themselves. -/
theorem self {R : α → α → Prop} {x : Except ε α} (h : ∀ a, x = .ok a → R a a) : Alike R x x := by
  cases x with
  | ok a => exact h a rfl
  | error e => exact rfl

end Alike

/-! ## Faults that are possible

Which faults a computation has follows from those of its steps, whatever their order and whatever
they are given. -/

/-- All faults of a computation satisfy `P`. -/
def FailsOnly (P : ε → Prop) (x : Except ε α) : Prop := ∀ e, x = .error e → P e

namespace FailsOnly

variable {P Q : ε → Prop} {x : Except ε α}

theorem ok (a : α) : FailsOnly P (.ok a) := nofun

theorem error {e : ε} (h : P e) : FailsOnly P (.error e : Except ε α) := by
  rintro e' ⟨⟩
  exact h

theorem mono (h : FailsOnly P x) (hPQ : ∀ e, P e → Q e) : FailsOnly Q x :=
  fun e he => hPQ e (h e he)

theorem bind {g : α → Except ε β} (h : FailsOnly P x) (hg : ∀ a, x = .ok a → FailsOnly P (g a)) :
    FailsOnly P (x >>= g) := by
  intro e he
  rcases bind_eq_error_iff.1 he with hx | ⟨a, hx, ha⟩
  · exact h e hx
  · exact hg a hx e ha

/-- What never fails adds no fault. -/
theorem bind_pure (h : FailsOnly P x) (g : α → β) : FailsOnly P (x >>= fun a => pure (g a)) :=
  h.bind fun a _ => ok (g a)

theorem map (h : FailsOnly P x) (g : α → β) : FailsOnly P (x.map g) := h.bind_pure g

theorem mapM {as : List α} (h : ∀ a ∈ as, FailsOnly P (f a)) : FailsOnly P (as.mapM f) := by
  intro e he
  obtain ⟨before, a, after, rfl, -, ha⟩ := mapM_eq_error_iff.1 he
  exact h a (by simp) e ha

theorem foldlM {step : β → α → Except ε β} (h : ∀ b a, FailsOnly P (step b a)) (as : List α)
    (b : β) : FailsOnly P (as.foldlM step b) := by
  induction as generalizing b with
  | nil => exact ok b
  | cons a as ih =>
    rw [List.foldlM_cons]
    exact (h b a).bind fun b' _ => ih b'

end FailsOnly
end Fallible
end Stencil
