import Mathlib.Algebra.Group.Int.Defs
import Stencil.Formatter
import Stencil.Proofs.Fallible

/-!
# Slots

The slots of a map go from positions to names and are filled in the order of the indices, while
`indexOf?` goes from names to positions.  The two directions meet where each index has only one
name: the slot at the position of a name holds this name (`FormatMap.exists_slots`), and then the
arguments that are given by name hold its value there (`FormatMap.exists_arguments`).

Where an index has several names, its slot holds the last of them, since sorting by index keeps the
order of declaration (`FormatMap.filter_sortBy`).  No pair is written beside the slots, whatever the
indices are (`FormatMap.slots_pairs_spec`).
-/

set_option autoImplicit false

namespace Stencil
namespace FormatMap

/-! ## Names in order

A list of names has a slot for each of them, so the position of a name is where it stands. -/

theorem getElem?_of_positionFrom? {name : Text} {k i : Nat} {ns : List Text}
    (h : positionFrom? name k ns = some i) : ∃ n, i = k + n ∧ ns[n]? = some name := by
  induction ns generalizing k with
  | nil => cases h
  | cons m ns ih =>
    rw [positionFrom?] at h
    split at h
    · rename_i hm
      cases h
      exact ⟨0, rfl, by rw [hm]; rfl⟩
    · obtain ⟨n, rfl, hn⟩ := ih h
      exact ⟨n + 1, by omega, hn⟩

/-! ## Pairs

Entering pairs writes over slots.  What a slot holds in the end is what was written into it last,
and the order of writing is that of the sorted pairs.  Sorting is stable, so the pairs with one
index are written in the order in which they were declared. -/

/-- The name of the last pair of an index. -/
def lastOf? (i : Int) (ps : List (Text × Int)) : Option Text :=
  (ps.filter fun p => p.2 = i).getLast?.map (·.1)

/-- A pair with the index counts unless another one comes after it. -/
theorem lastOf?_cons_of_eq {i : Int} {p : Text × Int} (h : p.2 = i) (ps : List (Text × Int)) :
    lastOf? i (p :: ps) = (lastOf? i ps).or (some p.1) := by
  rw [lastOf?, lastOf?, List.filter_cons_of_pos (by simpa using h), List.getLast?_cons]
  cases (ps.filter fun p => p.2 = i).getLast? <;> rfl

/-- A pair with another index does not count. -/
theorem lastOf?_cons_of_ne {i : Int} {p : Text × Int} (h : p.2 ≠ i) (ps : List (Text × Int)) :
    lastOf? i (p :: ps) = lastOf? i ps := by
  rw [lastOf?, lastOf?, List.filter_cons_of_neg (by simpa using h)]

/-- Of all pairs with an index, the last one is left in its slot. -/
theorem getElem?_fillSlots (ps : List (Text × Int)) (slots : List (Option Text)) (j : Nat) :
    (fillSlots ps slots)[j]? = slots[j]?.map fun old => (lastOf? (j + 1) ps).or old := by
  induction ps generalizing slots with
  | nil => cases h : slots[j]? <;> simp [fillSlots, lastOf?, h]
  | cons p ps ih =>
    show (fillSlots ps (if 1 ≤ p.2 then slots.set (p.2.toNat - 1) (some p.1) else slots))[j]? = _
    rw [ih]
    by_cases hp : p.2 = (j : Int) + 1
    · have hj : p.2.toNat - 1 = j := by omega
      rw [if_pos (by omega), lastOf?_cons_of_eq hp, hj]
      rcases Nat.lt_or_ge j slots.length with hlt | hge
      · rw [List.getElem?_set_self hlt, List.getElem?_eq_getElem hlt, Option.map_some,
          Option.map_some, Option.or_assoc]
        rfl
      · rw [List.getElem?_eq_none hge, List.getElem?_eq_none (by simpa using hge)]
        rfl
    · rw [lastOf?_cons_of_ne hp]
      split
      · rw [List.getElem?_set_ne (by omega)]
      · rfl

/-- A pair is put in front of those with the same index, which were declared after it. -/
theorem filter_insertBy (i : Int) (p : Text × Int) (ps : List (Text × Int)) :
    (Sorting.insertBy (fun p q => p.2 ≤ q.2) p ps).filter (fun q => q.2 = i) =
      (p :: ps).filter fun q => q.2 = i := by
  induction ps with
  | nil => rfl
  | cons q ps ih =>
    rw [Sorting.insertBy]
    split
    · rfl
    · rename_i hle
      have hlt : q.2 < p.2 := by simpa using hle
      -- the two indices differ, so at most one of the pairs passes
      rw [List.filter_cons, ih]
      by_cases hp : p.2 = i
      · have hq : q.2 ≠ i := by omega
        simp [hp, hq]
      · simp [hp, List.filter_cons]

/-- Sorting keeps the order of the pairs with the same index. -/
theorem filter_sortBy (i : Int) (ps : List (Text × Int)) :
    (Sorting.sortBy (fun p q => p.2 ≤ q.2) ps).filter (fun q => q.2 = i) =
      ps.filter fun q => q.2 = i := by
  induction ps with
  | nil => rfl
  | cons p ps ih =>
    show (Sorting.insertBy _ p (Sorting.sortBy _ ps)).filter _ = _
    rw [filter_insertBy, List.filter_cons, List.filter_cons, ih]

theorem largestIndex_le {n : Int} (hn : 0 ≤ n) {ps : List (Text × Int)}
    (h : ∀ p ∈ ps, p.2 ≤ n) : largestIndex ps ≤ n := by
  induction ps with
  | nil => exact hn
  | cons q ps ih =>
    cases ps with
    | nil => exact h q List.mem_cons_self
    | cons r ps =>
      rw [largestIndex]
      · exact Int.max_le.2 ⟨h q List.mem_cons_self, ih fun p hp => h p (List.mem_cons_of_mem q hp)⟩
      · simp

/-- The slots of pairs: at each position the name of the last pair with this index. -/
theorem slots_pairs {ps : List (Text × Int)} (h : largestIndex ps < maxSlots) :
    ∃ slots, (pairs ps).slots = .ok slots ∧ slots.length = (largestIndex ps).toNat ∧
      ∀ j < slots.length, slots[j]? = some (lastOf? (j + 1) ps) := by
  refine ⟨_, slots_pairs_eq h, ?_, fun j hj => ?_⟩
  · rw [length_fillSlots, List.length_replicate]
  · rw [length_fillSlots, List.length_replicate] at hj
    rw [getElem?_fillSlots, List.getElem?_replicate_of_lt hj, Option.map_some, Option.or_none,
      lastOf?, filter_sortBy, lastOf?]

/-! ## Where both directions meet

From a position one comes to the last name that was given to it, and from a name to the first
position that it was given.  These agree where nothing was given twice. -/

/-- A pair whose index no other pair has is the only one of its index. -/
theorem filter_index_eq {p : Text × Int} {ps : List (Text × Int)} (h : (ps.map (·.2)).Nodup)
    (hp : p ∈ ps) : ps.filter (fun q => q.2 = p.2) = [p] := by
  induction ps with
  | nil => cases hp
  | cons q ps ih =>
    obtain ⟨hq, hnd⟩ := List.nodup_cons.1 h
    rcases List.mem_cons.1 hp with rfl | hp
    · have hrest : ps.filter (fun q => q.2 = p.2) = [] := by
        rw [List.filter_eq_nil_iff]
        exact fun r hr he => hq (List.mem_map.2 ⟨r, hr, of_decide_eq_true he⟩)
      rw [List.filter_cons_of_pos (by simp), hrest]
    · have hne : q.2 ≠ p.2 := fun he => hq (List.mem_map.2 ⟨p, hp, he.symm⟩)
      rw [List.filter_cons_of_neg (by simpa using hne), ih hnd hp]

/-- A name has the index of one of its pairs. -/
theorem exists_pair_of_indexOf? {name : Text} {i : Int} {ps : List (Text × Int)}
    (h : (pairs ps).indexOf? name = some i) : (name, i) ∈ ps := by
  obtain ⟨⟨n, j⟩, hf, rfl⟩ := Option.map_eq_some_iff.1 h
  have hn : n = name := by simpa using List.find?_some hf
  rw [← hn]
  exact List.mem_of_find?_eq_some hf

/-- Each name has a position, and no two names have the same one.  Names in order always do. -/
def IsPlaced : FormatMap → Prop
  | names _ => True
  | pairs ps => (ps.map (·.2)).Nodup ∧ ∀ p ∈ ps, 1 ≤ p.2 ∧ p.2 ≤ 2 ^ 31

/-- **The slot at the position of a name holds this name.** -/
theorem exists_slots {m : FormatMap} (h : m.IsPlaced) :
    ∃ slots, m.slots = .ok slots ∧
      ∀ name i, m.indexOf? name = some i → 1 ≤ i ∧ slots[i.toNat - 1]? = some (some name) := by
  cases m with
  | names ns =>
    refine ⟨ns.map some, rfl, fun name i hi => ?_⟩
    obtain ⟨k, hk, rfl⟩ := Option.map_eq_some_iff.1 hi
    obtain ⟨n, rfl, hn⟩ := getElem?_of_positionFrom? hk
    have hpos : (Int.ofNat (1 + n)).toNat - 1 = n := Nat.add_sub_cancel_left 1 n
    refine ⟨Int.ofNat_le.2 (Nat.le_add_right 1 n), ?_⟩
    rw [hpos, List.getElem?_map, hn]
    rfl
  | pairs ps =>
    obtain ⟨hnd, hb⟩ := h
    have hmax : largestIndex ps < maxSlots :=
      Int.lt_of_le_of_lt (largestIndex_le (by decide) fun p hp => (hb p hp).2) (by decide)
    obtain ⟨slots, hs, hlen, hget⟩ := slots_pairs hmax
    refine ⟨slots, hs, fun name i hi => ?_⟩
    have hmem := exists_pair_of_indexOf? hi
    have h1 : 1 ≤ i := (hb _ hmem).1
    have hle : i ≤ largestIndex ps := le_largestIndex hmem
    have hi' : ((i.toNat - 1 : Nat) : Int) + 1 = i := by omega
    refine ⟨h1, ?_⟩
    rw [hget _ (by omega), hi', lastOf?, filter_index_eq hnd hmem]
    rfl

/-- The value in a slot. -/
def slotValue (es : List (Value × Value)) : Option Text → Value
  | none => .null
  | some name => Source.arguments.lookup name es

/-- Each slot is looked up by itself. -/
theorem arguments_dict (es : List (Value × Value)) (slots : List (Option Text)) :
    Source.arguments (.dict es) slots = .ok (slots.map (slotValue es)) := by
  refine Fallible.mapM_eq_ok fun slot _ => ?_
  cases slot <;> rfl

theorem arguments_names (es : List (Value × Value)) (ns : List Text) :
    (names ns).slots >>= Source.arguments (.dict es) =
      .ok (ns.map fun name => Source.arguments.lookup name es) := by
  have hs : (names ns).slots = .ok (ns.map some) := rfl
  rw [hs, Fallible.ok_bind, arguments_dict, List.map_map]
  rfl

/-- **The argument at the position of a name is the value of this name.** -/
theorem exists_arguments {m : FormatMap} (h : m.IsPlaced) (es : List (Value × Value)) :
    ∃ args, m.slots >>= Source.arguments (.dict es) = .ok args ∧
      ∀ name i, m.indexOf? name = some i →
        1 ≤ i ∧ ∀ k, Cursor.get ⟨args, k⟩ i = Source.arguments.lookup name es := by
  obtain ⟨slots, hs, hget⟩ := exists_slots h
  refine ⟨slots.map (slotValue es), ?_, fun name i hi => ?_⟩
  · rw [hs]
    exact arguments_dict es slots
  · obtain ⟨h1, hn⟩ := hget name i hi
    refine ⟨h1, fun k => ?_⟩
    rw [Cursor.get, if_pos h1, List.getD_eq_getElem?_getD, List.getElem?_map, hn]
    rfl

end FormatMap
end Stencil
