import Stencil.Json.Writer
import Stencil.Proofs.Fallible

/-!
# Exceptions that objects raise

An object may raise an exception instead of giving its text.  Containers ask their parts one after
the other, so it is raised out of a container exactly if the object is reached before anything else
fails.  What is reached depends on the levels that are left as well: where there are none, a
container fails without a look at its parts.

`Value.parts` and `Json.reached` list what is asked, in order, and `below` the same with the levels
that are left there.  With them one step is enough for all kinds of containers.  A value is asked
for the texts of its parts when it is displayed (`Value.quotedWithin_eq_raised_iff`), and as JSON
for those of the elements of its sets, which are written in the order of these texts
(`Json.write_eq_raised_iff`).
-/

set_option autoImplicit false

namespace Stencil

open Fallible Nesting

variable {e : ErrorClass} {levels : Nat}

/-! ## Levels

An exception of an object is never the fault of a level that is missing, so it comes from what is
inside.
-/

/-- What is inside a value, with the levels that are left there. -/
def below (inside : Nat → Value → List Value) : Nat × Value → List (Nat × Value)
  | (0, _) => []
  | (n + 1, v) => (inside n v).map fun p => (n, p)

theorem enter_eq_raised_iff {inside : Nat → Value → List Value}
    {f : Nat → Value → Except Fault Text} {g : Nat → Except Fault Text} {v : Value}
    (h : ∀ n, g n = .error (.raised e) ↔ (inside n v).mapM (f n) = .error (.raised e)) :
    enter .tooDeep levels g = .error (.raised e) ↔
      (below inside (levels, v)).mapM (fun p => f p.1 p.2) = .error (.raised e) := by
  cases levels with
  | zero => exact iff_of_false nofun nofun
  | succ n =>
    rw [enter_succ, h, below, List.mapM_map]
    rfl

theorem below_eq_nil {inside : Nat → Value → List Value} {v : Value} (h : ∀ n, inside n v = []) :
    below inside (levels, v) = [] := by
  cases levels with
  | zero => rfl
  | succ n => rw [below, h, List.map_nil]

theorem sizeOf_lt_of_mem_below {inside : Nat → Value → List Value}
    (h : ∀ n v, ∀ p ∈ inside n v, sizeOf p < sizeOf v) (a p : Nat × Value)
    (hp : p ∈ below inside a) : sizeOf p < sizeOf a := by
  obtain ⟨_ | n, v⟩ := a
  · cases hp
  · obtain ⟨q, hq, rfl⟩ := List.mem_map.1 hp
    have := h n v q hq
    simp only [Prod.mk.sizeOf_spec, sizeOf_nat]
    omega

/-! ## Faults of numerals and format maps

Numerals and format maps ask no objects.  What goes wrong with them is their length or their depth.
-/

theorem Numeral.limitedText_ne_raised (n : Int) : limitedText n ≠ .error (.raised e) := by
  rw [limitedText]
  split <;> nofun

/-- A missing level raises nothing. -/
theorem enter_ne_raised {α : Type} {f : Nat → Except Fault α} (h : ∀ n, f n ≠ .error (.raised e)) :
    enter .tooDeep levels f ≠ .error (.raised e) := by
  cases levels with
  | zero => nofun
  | succ n => exact h n

/-- A format map is made of texts and integers, which raise nothing. -/
theorem mapM_enter_limitedText_ne_raised {α β : Type} (n : α → Int) (g : α → Text → β)
    (as : List α) :
    (as.mapM fun a => enter .tooDeep levels fun _ => do return g a (← Numeral.limitedText (n a))) ≠
      .error (.raised e) := by
  intro h
  obtain ⟨-, a, -, -, -, ha⟩ := mapM_eq_error_iff.1 h
  refine enter_ne_raised (fun _ => ?_) ha
  exact mt bind_pure_eq_error_iff.1 (Numeral.limitedText_ne_raised (n a))

/-! ## The form of a value inside a container

Each container displays its parts in turn, so by itself it adds no exception.  Only an object can
raise one, and all values between it and the outside hand it on. -/

namespace Value

/-- The values that a value is made of, in the order in which they are displayed. -/
def parts : Value → List Value
  | list vs | tuple vs | set _ vs => vs
  | dict es => es.flatMap fun e => [e.1, e.2]
  | record _ fs => fs.map (·.2)
  | _ => []

/-- A part is smaller than the whole. -/
theorem sizeOf_lt_of_mem_parts {v p : Value} (h : p ∈ v.parts) : sizeOf p < sizeOf v := by
  cases v with
  | list vs | tuple vs | set frozen vs =>
    have : sizeOf p < sizeOf vs := List.sizeOf_lt_of_mem h
    simp only [list.sizeOf_spec, tuple.sizeOf_spec, set.sizeOf_spec]
    omega
  | dict es =>
    obtain ⟨⟨k, v⟩, he, hp⟩ := List.mem_flatMap.1 h
    have := List.sizeOf_lt_of_mem he
    simp only [List.mem_cons, List.not_mem_nil, or_false] at hp
    simp only [dict.sizeOf_spec, Prod.mk.sizeOf_spec] at this ⊢
    rcases hp with rfl | rfl <;> omega
  | record type fs =>
    obtain ⟨⟨name, v⟩, hf, rfl⟩ := List.mem_map.1 h
    have := List.sizeOf_lt_of_mem hf
    simp only [record.sizeOf_spec, Prod.mk.sizeOf_spec] at this ⊢
    omega
  | _ => cases h

/-- What holds of a value when it holds of its parts holds of every value. -/
theorem induction_parts {P : Value → Prop} (h : ∀ v, (∀ p ∈ v.parts, P p) → P v) (v : Value) :
    P v :=
  h v fun p _ => induction_parts h p
termination_by sizeOf v
decreasing_by exact sizeOf_lt_of_mem_parts ‹_›

/-- The items of a list are displayed one after the other. -/
theorem quotedItems_eq_mapM (levels : Nat) (vs : List Value) :
    quotedItems levels vs = vs.mapM (quotedWithin levels) := by
  induction vs with
  | nil => rfl
  | cons v vs ih => rw [quotedItems, List.mapM_cons, ih]

theorem quotedEntries_eq_error_iff {es : List (Value × Value)} {f : Fault} :
    quotedEntries levels es = .error f ↔
      (es.flatMap fun e => [e.1, e.2]).mapM (quotedWithin levels) = .error f := by
  induction es with
  | nil => exact ⟨nofun, nofun⟩
  | cons entry es ih =>
    obtain ⟨k, v⟩ := entry
    simp only [quotedEntries, List.flatMap_cons, List.cons_append, List.nil_append,
      mapM_cons_eq_error_iff, bind_eq_error_iff, not_pure_eq_error, and_false, exists_false,
      or_false, ih]

theorem quotedFields_eq_error_iff {fs : List (Text × Value)} {f : Fault} :
    quotedFields levels fs = .error f ↔
      (fs.map (·.2)).mapM (quotedWithin levels) = .error f := by
  induction fs with
  | nil => exact ⟨nofun, nofun⟩
  | cons field fs ih =>
    obtain ⟨name, v⟩ := field
    simp only [quotedFields, List.map_cons, mapM_cons_eq_error_iff, bind_eq_error_iff,
      not_pure_eq_error, and_false, exists_false, or_false, ih]

theorem formatMapText_ne_raised (levels : Nat) (m : FormatMap) :
    formatMapText levels m ≠ .error (.raised e) := by
  cases m with
  | names ns => exact enter_ne_raised fun _ => enter_ne_raised nofun
  | pairs ps =>
    exact enter_ne_raised fun _ => enter_ne_raised fun _ =>
      mt bind_pure_eq_error_iff.1 (mapM_enter_limitedText_ne_raised Prod.snd _ ps)

theorem quotedWithin_fraction_ne_raised (levels : Nat) (x : Rat) :
    (fraction x).quotedWithin levels ≠ .error (.raised e) := by
  simp only [quotedWithin, ne_eq, bind_eq_error_iff, not_pure_eq_error, and_false, exists_false,
    or_false, Numeral.limitedText_ne_raised, not_false_eq_true]

/-- The value is an object that raises an exception instead of giving its text. -/
def RaisesOwnForm (e : ErrorClass) (v : Value) : Prop := ∃ o, v = object o ∧ o.form = .error e

/-- One step: an object raises an exception by itself, and all else in its parts. -/
theorem quotedWithin_eq_raised_iff_below (levels : Nat) (v : Value) :
    v.quotedWithin levels = .error (.raised e) ↔ v.RaisesOwnForm e ∨
      (below (fun _ => parts) (levels, v)).mapM (fun p => p.2.quotedWithin p.1) =
        .error (.raised e) := by
  -- only an object raises by itself, and only a container has something below it
  have hno (hv : ∀ o, v ≠ object o) : ¬ v.RaisesOwnForm e := fun ⟨o, ho, _⟩ => hv o ho
  -- what is left for everything else: it raises nothing of its own
  have hleaf (hv : ∀ o, v ≠ object o) (hp : v.parts = [])
      (h : v.quotedWithin levels ≠ .error (.raised e)) :
      v.quotedWithin levels = .error (.raised e) ↔ v.RaisesOwnForm e ∨
        (below (fun _ => parts) (levels, v)).mapM (fun p => p.2.quotedWithin p.1) =
          .error (.raised e) :=
    eq_error_iff_of_leaf h (hno hv) (below_eq_nil fun _ => hp)
  cases v with
  -- the one case where the left disjunct holds
  | object o =>
    rw [below_eq_nil fun _ => rfl, or_iff_left nofun, quotedWithin, Fault.ofAnswer]
    constructor
    · intro h
      refine ⟨o, rfl, ?_⟩
      cases ho : o.form with
      | ok s =>
        rw [ho] at h
        cases h
      | error e' =>
        rw [ho] at h
        cases h
        rfl
    · rintro ⟨_, ⟨⟩, ho⟩
      rw [ho]
      rfl
  -- a container raises what its parts raise, if its level can be entered
  | list vs | tuple vs | set frozen vs =>
    rw [or_iff_right (hno fun _ => nofun), quotedWithin]
    refine enter_eq_raised_iff fun n => ?_
    rw [bind_pure_eq_error_iff, quotedItems_eq_mapM]
    rfl
  | dict es =>
    rw [or_iff_right (hno fun _ => nofun), quotedWithin]
    refine enter_eq_raised_iff fun n => ?_
    rw [bind_pure_eq_error_iff, quotedEntries_eq_error_iff]
    rfl
  | record type fs =>
    rw [or_iff_right (hno fun _ => nofun), quotedWithin]
    refine enter_eq_raised_iff fun n => ?_
    rw [bind_pure_eq_error_iff, quotedFields_eq_error_iff]
    rfl
  | int n => exact hleaf (fun _ => nofun) rfl (Numeral.limitedText_ne_raised n)
  | fraction x => exact hleaf (fun _ => nofun) rfl (quotedWithin_fraction_ne_raised levels x)
  | formatMap m => exact hleaf (fun _ => nofun) rfl (formatMapText_ne_raised levels m)
  | _ => exact hleaf (fun _ => nofun) rfl nofun

/-- An exception is raised while the value is displayed: by the value itself, or by an object that
is reached in its parts before anything else fails. -/
def RaisesWithin (e : ErrorClass) (levels : Nat) (v : Value) : Prop :=
  FailsAt (fun p : Nat × Value => p.2.RaisesOwnForm e) (below fun _ => parts)
    (fun p => p.2.quotedWithin p.1) (levels, v)

/-- **An exception is raised out of a value exactly if an object is reached that raises it.** -/
theorem quotedWithin_eq_raised_iff {v : Value} :
    v.quotedWithin levels = .error (.raised e) ↔ v.RaisesWithin e levels :=
  eq_error_iff_failsAt
    (sizeOf_lt_of_mem_below fun _ _ _ => sizeOf_lt_of_mem_parts)
    (fun p => quotedWithin_eq_raised_iff_below p.1 p.2) (levels, v)

end Value

/-! ## JSON

Writing asks no object for anything, except for the texts of the elements of a set.
-/

namespace Json

/-- A key is written without asking anybody, or it is refused for its type. -/
theorem key_ne_raised (v : Value) : key v ≠ .error (.raised e) := by
  cases v with
  | int n => exact Numeral.limitedText_ne_raised n
  | float x =>
    rw [key]
    split <;> nofun
  | _ => nofun

theorem writeItems_eq_mapM (levels : Nat) (vs : List Value) :
    writeItems levels vs = vs.mapM (writeWithin levels) := by
  induction vs with
  | nil => rfl
  | cons v vs ih => rw [writeItems, List.mapM_cons, ih]

theorem attempts_eq_map (levels : Nat) (vs : List Value) :
    attempts levels vs = vs.map (writeWithin levels) := by
  induction vs with
  | nil => rfl
  | cons v vs ih => rw [attempts, List.map_cons, ih]

/-- The attempts to write items are the items, sorted and then written. -/
theorem mapM_sortedByKey_attempts (levels : Nat) (keys : List Text) (vs : List Value) :
    (sortedByKey keys (attempts levels vs)).mapM id =
      (sortedByKey keys vs).mapM (writeWithin levels) := by
  have hzip : keys.zip (vs.map (writeWithin levels)) =
      (keys.zip vs).map fun p => (p.1, writeWithin levels p.2) := by
    rw [List.zip_map_right]
    rfl
  have hsort : sortedByKey keys (attempts levels vs) =
      (sortedByKey keys vs).map (writeWithin levels) := by
    rw [attempts_eq_map, sortedByKey, sortedByKey, hzip, ← Sorting.map_sortBy fun _ _ => rfl,
      List.map_map, List.map_map]
    rfl
  rw [hsort, List.mapM_map]
  rfl

/-- The values that are written inside a value, in order: those of a dictionary up to the first key
that has no text, the elements of a set in the order of their texts, if all of them have one and can
be gone through, and the fields of a record that can be taken apart. -/
def reached (levels : Nat) : Value → List Value
  | .list vs | .tuple vs => vs
  | .set _ vs =>
    match Value.quotedItems levels vs, lookThrough levels vs with
    | .ok keys, .ok _ => sortedByKey keys vs
    | _, _ => []
  | .dict es => (es.takeWhile fun e => (key e.1).isOk).map (·.2)
  | .record _ fs => if (takeApart levels fs).isOk then fs.map (·.2) else []
  | _ => []

theorem mem_of_mem_sortedByKey {keys : List Text} {vs : List Value} {v : Value}
    (h : v ∈ sortedByKey keys vs) : v ∈ vs := by
  obtain ⟨p, hp, rfl⟩ := List.mem_map.1 h
  exact (List.of_mem_zip ((Sorting.sortBy_perm _ _).mem_iff.1 hp)).2

/-- What is reached is a part. -/
theorem mem_parts_of_mem_reached {v p : Value} (h : p ∈ reached levels v) : p ∈ v.parts := by
  cases v with
  | list vs | tuple vs => exact h
  | set frozen vs =>
    rw [reached] at h
    split at h
    · exact mem_of_mem_sortedByKey h
    · cases h
  | dict es =>
    obtain ⟨e, he, rfl⟩ := List.mem_map.1 h
    exact List.mem_flatMap.2 ⟨e, (List.takeWhile_prefix _).subset he, by simp⟩
  | record type fs =>
    rw [reached] at h
    split at h
    · exact h
    · cases h
  | _ => cases h

theorem lookThrough_ne_raised (levels : Nat) (vs : List Value) :
    lookThrough levels vs ≠ .error (.raised e) := by
  rw [lookThrough]
  split <;> nofun

theorem takeApart_ne_raised (levels : Nat) (fs : List (Text × Value)) :
    takeApart levels fs ≠ .error (.raised e) := by
  rw [takeApart]
  split
  · nofun
  · split <;> nofun

theorem writeFields_eq_error_iff {fs : List (Text × Value)} {f : Fault} :
    writeFields levels fs = .error f ↔ (fs.map (·.2)).mapM (writeWithin levels) = .error f := by
  induction fs with
  | nil => exact ⟨nofun, nofun⟩
  | cons field fs ih =>
    obtain ⟨name, v⟩ := field
    simp only [writeFields, List.map_cons, mapM_cons_eq_error_iff, bind_eq_error_iff,
      not_pure_eq_error, and_false, exists_false, or_false, ih]

theorem writeEntries_eq_raised_iff {es : List (Value × Value)} :
    writeEntries levels es = .error (.raised e) ↔
      (reached levels (.dict es)).mapM (writeWithin levels) = .error (.raised e) := by
  rw [reached]
  induction es with
  | nil => exact ⟨nofun, nofun⟩
  | cons entry es ih =>
    obtain ⟨k, v⟩ := entry
    have hk := key_ne_raised (e := e) k
    cases h : key k with
    | error f =>
      rw [h] at hk
      rw [writeEntries, h, List.takeWhile_cons_of_neg (by simp [h, Except.isOk, Except.toBool])]
      refine iff_of_false (fun he => ?_) nofun
      rcases bind_eq_error_iff.1 he with he | ⟨_, ⟨⟩, _⟩
      exact hk he
    | ok name =>
      rw [writeEntries, h, List.takeWhile_cons_of_pos (by simp [h, Except.isOk, Except.toBool]),
        ok_bind, List.map_cons, mapM_cons_eq_error_iff, bind_eq_error_iff]
      simp only [bind_pure_eq_error_iff, ih]

theorem ofFormatMap_ne_raised (levels : Nat) (m : FormatMap) :
    ofFormatMap levels m ≠ .error (.raised e) := by
  cases m with
  | names ns => exact enter_ne_raised fun _ => enter_ne_raised nofun
  | pairs ps =>
    exact enter_ne_raised fun _ => enter_ne_raised fun _ =>
      mt bind_pure_eq_error_iff.1 (mapM_enter_limitedText_ne_raised Prod.snd _ ps)

/-- A record is written field by field once it is taken apart. -/
theorem takeApart_bind_eq_raised_iff {type : TypeName} {fs : List (Text × Value)} :
    (do takeApart levels fs; return object (← writeFields levels fs)) = .error (.raised e) ↔
      (reached levels (.record type fs)).mapM (writeWithin levels) = .error (.raised e) := by
  have hno := takeApart_ne_raised (e := e) levels fs
  rw [reached]
  cases h : takeApart levels fs with
  | error f =>
    rw [h] at hno
    exact iff_of_false (fun he => hno (Except.error.inj he ▸ rfl)) nofun
  | ok u =>
    rw [ok_bind, bind_pure_eq_error_iff]
    exact writeFields_eq_error_iff

/-- A set that cannot be put in order, because an exception is raised for the text of an element. -/
def RaisesInOrder (e : ErrorClass) (levels : Nat) (v : Value) : Prop :=
  ∃ frozen vs, v = .set frozen vs ∧ v.RaisesWithin e levels

theorem writeWithin_set_eq_raised_iff {frozen : Bool} {vs : List Value} :
    writeWithin levels (.set frozen vs) = .error (.raised e) ↔
      (Value.set frozen vs).RaisesWithin e levels ∨
        (below reached (levels, .set frozen vs)).mapM (fun p => writeWithin p.1 p.2) =
          .error (.raised e) := by
  rw [← Value.quotedWithin_eq_raised_iff, Value.quotedWithin, writeWithin]
  cases levels with
  | zero => exact iff_of_false nofun (by rintro (⟨⟨⟩⟩ | ⟨⟨⟩⟩))
  | succ n =>
    rw [enter_succ, enter_succ, bind_pure_eq_error_iff, below, List.mapM_map, reached]
    have hno := lookThrough_ne_raised (e := e) n vs
    cases Value.quotedItems n vs with
    | error f =>
      refine ⟨fun h => .inl ?_, fun h => ?_⟩
      · rcases bind_eq_error_iff.1 h with h | ⟨_, ⟨⟩, _⟩
        exact h
      · rw [h.resolve_right nofun]
        rfl
    | ok keys =>
      rw [or_iff_right nofun, ok_bind]
      cases h : lookThrough n vs with
      | error f =>
        rw [h] at hno
        exact iff_of_false (fun he => hno (Except.error.inj he ▸ rfl)) nofun
      | ok u =>
        rw [ok_bind, bind_pure_eq_error_iff, mapM_sortedByKey_attempts]
        rfl

/-- One step: a set needs the texts of its elements, and all else fails in what is reached. -/
theorem writeWithin_eq_raised_iff_below (levels : Nat) (v : Value) :
    writeWithin levels v = .error (.raised e) ↔ RaisesInOrder e levels v ∨
      (below reached (levels, v)).mapM (fun p => writeWithin p.1 p.2) = .error (.raised e) := by
  have hno (hv : ∀ frozen vs, v ≠ .set frozen vs) : ¬ RaisesInOrder e levels v :=
    fun ⟨frozen, vs, hs, _⟩ => hv frozen vs hs
  have hleaf (hv : ∀ frozen vs, v ≠ .set frozen vs) (hp : ∀ n, reached n v = [])
      (h : writeWithin levels v ≠ .error (.raised e)) :
      writeWithin levels v = .error (.raised e) ↔ RaisesInOrder e levels v ∨
        (below reached (levels, v)).mapM (fun p => writeWithin p.1 p.2) = .error (.raised e) :=
    eq_error_iff_of_leaf h (hno hv) (below_eq_nil hp)
  cases v with
  | set frozen vs =>
    rw [writeWithin_set_eq_raised_iff]
    exact or_congr_left ⟨fun h => ⟨frozen, vs, rfl, h⟩, fun ⟨_, _, _, h⟩ => h⟩
  | list vs | tuple vs =>
    rw [or_iff_right (hno nofun), writeWithin]
    refine enter_eq_raised_iff fun n => ?_
    rw [bind_pure_eq_error_iff, writeItems_eq_mapM]
    rfl
  | dict es =>
    rw [or_iff_right (hno nofun), writeWithin]
    refine enter_eq_raised_iff fun n => ?_
    rw [bind_pure_eq_error_iff, writeEntries_eq_raised_iff]
  | record type fs =>
    rw [or_iff_right (hno nofun), writeWithin]
    exact enter_eq_raised_iff fun n => takeApart_bind_eq_raised_iff
  | int n => exact hleaf nofun (fun _ => rfl) (Numeral.limitedText_ne_raised n)
  | formatMap m => exact hleaf nofun (fun _ => rfl) (ofFormatMap_ne_raised levels m)
  | _ => exact hleaf nofun (fun _ => rfl) nofun

/-- An exception is raised while the value is written with so many levels left: the value is a set
that cannot be put in order, or such a set is reached before anything else fails. -/
def RaisesWithin (e : ErrorClass) (levels : Nat) (v : Value) : Prop :=
  FailsAt (fun p : Nat × Value => RaisesInOrder e p.1 p.2) (below reached)
    (fun p => writeWithin p.1 p.2) (levels, v)

theorem writeWithin_eq_raised_iff {v : Value} :
    writeWithin levels v = .error (.raised e) ↔ RaisesWithin e levels v :=
  eq_error_iff_failsAt
    (sizeOf_lt_of_mem_below fun _ _ _ h =>
      Value.sizeOf_lt_of_mem_parts (mem_parts_of_mem_reached h))
    (fun p => writeWithin_eq_raised_iff_below p.1 p.2) (levels, v)

/-- An exception is raised while the value is written: it is not nested too deep to be gone through,
and a set is reached that cannot be put in order. -/
def Raises [Nesting] (e : ErrorClass) (v : Value) : Prop :=
  depth false v ≤ limit ∧ RaisesWithin e limit v

/-- **An exception is raised while a value is written exactly if a set is reached that cannot be put
in order.** -/
theorem write_eq_raised_iff [Nesting] {v : Value} : write v = .error (.raised e) ↔ Raises e v := by
  rw [Raises, ← writeWithin_eq_raised_iff, write, lookThrough, itemsDepth, itemsDepth,
    Nat.max_zero]
  split
  · exact iff_of_false nofun (by omega)
  · rw [and_iff_right (by omega)]
    rfl

end Json
end Stencil
