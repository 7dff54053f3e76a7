import Stencil.Proofs.Json.Validity

/-!
# Values that JSON has itself

Null, truth values, integers, texts, lists and dictionaries with texts for keys are written as JSON
without loss.  `Json.IsTree` says which values are put together from these, with two more that come
close: tuples, which are read back as lists, and numbers that are not finite, which are read back
as null.  `Json.asRead` makes these two replacements and keeps all else, the order of dictionaries
included.

The main result is `Json.argument_toJson`: the text of such a value is read as the value with the
replacements made, and such a value has a text exactly if it is not nested deeper than can be
followed.  Writing goes through the value once before it begins, and this is where a value that is
too deep is found out (`lookThrough_singleton_eq_ok_iff`), so what remains is an induction on trees
for any number of levels that is enough for the depth of the tree (`IsTree.isKept`).
-/

set_option autoImplicit false

namespace Stencil

open Fallible Nesting

variable {levels : Nat}

namespace Json

/-- A value of what JSON has itself, of tuples, and of numbers that are not finite.  Integers have
no more digits than are read at once, and the keys of a dictionary are different texts. -/
inductive IsTree : Value → Prop where
  | null : IsTree .null
  | bool (b : Bool) : IsTree (.bool b)
  | int {n : Int} (h : Numeral.decimalLength n.natAbs ≤ Numeral.digitLimit) : IsTree (.int n)
  | text (s : Text) : IsTree (.text s)
  | float {x : Binary64} (h : x.isFinite = false) : IsTree (.float x)
  | list {vs : List Value} (h : ∀ v ∈ vs, IsTree v) : IsTree (.list vs)
  | tuple {vs : List Value} (h : ∀ v ∈ vs, IsTree v) : IsTree (.tuple vs)
  | dict (es : List (Text × Value)) (hn : (es.map (·.1)).Nodup) (h : ∀ e ∈ es, IsTree e.2) :
      IsTree (.dict (es.map fun e => (.text e.1, e.2)))

mutual

/-- A value with tuples turned into lists, and numbers that are not finite into null. -/
def asRead : Value → Value
  | .float x => if x.isFinite then .float x else .null
  | .list vs => .list (itemsAsRead vs)
  | .tuple vs => .list (itemsAsRead vs)
  | .dict es => .dict (entriesAsRead es)
  | v => v

/-- Items with these replacements made in each of them. -/
def itemsAsRead : List Value → List Value
  | [] => []
  | v :: vs => asRead v :: itemsAsRead vs

/-- Entries with these replacements made in each value. -/
def entriesAsRead : List (Value × Value) → List (Value × Value)
  | [] => []
  | (k, v) :: es => (k, asRead v) :: entriesAsRead es

end

theorem itemsAsRead_eq_map (vs : List Value) : itemsAsRead vs = vs.map asRead := by
  induction vs with
  | nil => rfl
  | cons v vs ih => rw [itemsAsRead, ih, List.map_cons]

theorem entriesAsRead_eq_map (es : List (Value × Value)) :
    entriesAsRead es = es.map fun e => (e.1, asRead e.2) := by
  induction es with
  | nil => rfl
  | cons e es ih => rw [entriesAsRead, ih, List.map_cons]

/-! ## Dictionaries

A member that is read later replaces one with the same name.  The names of a dictionary are
different, so its members come out as they were and in the same order. -/

theorem insert_of_not_mem {entries : List (Text × Value)} {name : Text} {v : Value}
    (h : name ∉ entries.map (·.1)) : insert entries name v = entries ++ [(name, v)] := by
  have hno : (entries.any fun e => e.1 = name) = false := by
    rw [List.any_eq_false]
    rintro e he hname
    exact h (List.mem_map.2 ⟨e, he, of_decide_eq_true hname⟩)
  rw [insert, hno, if_neg Bool.false_ne_true]

/-- Members with different names are entered one after the other. -/
theorem foldl_insert {ms entries : List (Text × Value)}
    (h : ((entries ++ ms).map (·.1)).Nodup) :
    ms.foldl (fun es m => insert es m.1 m.2) entries = entries ++ ms := by
  induction ms generalizing entries with
  | nil => simp
  | cons m ms ih =>
    have hm : m.1 ∉ entries.map (·.1) := by
      rw [List.map_append, List.map_cons] at h
      exact fun hmem => (List.nodup_append.1 h).2.2 _ hmem _ List.mem_cons_self rfl
    have happend : entries ++ m :: ms = entries ++ [m] ++ ms := by simp
    rw [List.foldl_cons, insert_of_not_mem hm, happend]
    exact ih (happend ▸ h)

/-- Nothing is lost and the order is kept where all names are different. -/
theorem ofMembers_of_nodup {ms : List (Text × Value)} (h : (ms.map (·.1)).Nodup) :
    ofMembers ms = .dict (ms.map fun m => (.text m.1, m.2)) := by
  have h' : (([] ++ ms : List (Text × Value)).map (·.1)).Nodup := h
  rw [ofMembers, foldl_insert h', List.nil_append]

/-! ## Levels

The depth of a container is one more than a bound for its items, and a bound for the items is a
bound for each of them.
-/

theorem itemsDepth_le_iff {all : Bool} {vs : List Value} :
    itemsDepth all vs ≤ levels ↔ ∀ v ∈ vs, depth all v ≤ levels := by
  induction vs with
  | nil => simp [itemsDepth]
  | cons v vs ih => rw [itemsDepth, Nat.max_le, ih, List.forall_mem_cons]

/-- Where the keys do not count, the depth of entries is that of their values. -/
theorem entriesDepth_le_iff {es : List (Value × Value)} :
    entriesDepth false es ≤ levels ↔ ∀ e ∈ es, depth false e.2 ≤ levels := by
  induction es with
  | nil => simp [entriesDepth]
  | cons e es ih =>
    rw [entriesDepth, if_neg Bool.false_ne_true, Nat.max_le, ih, List.forall_mem_cons]

theorem lookThrough_eq_ok_iff {vs : List Value} {u : Unit} :
    lookThrough levels vs = .ok u ↔ ∀ v ∈ vs, depth false v ≤ levels := by
  rw [← itemsDepth_le_iff, lookThrough]
  split
  · refine iff_of_false ?_ (by omega)
    rintro ⟨⟩
  · exact iff_of_true rfl (by omega)

theorem lookThrough_singleton_eq_ok_iff {v : Value} {u : Unit} :
    lookThrough levels [v] = .ok u ↔ depth false v ≤ levels := by
  rw [lookThrough_eq_ok_iff, List.forall_mem_singleton]

/-! ## Trees

The induction is on the tree and for any number of levels.  A list of items is written if each item
is, and the texts put together stand for the items put together. -/

/-- The value is written as compact JSON for what it is read as, with any number of levels that is
enough for its depth. -/
def IsKept (v : Value) : Prop :=
  ∀ levels, depth false v ≤ levels →
    ∃ s, writeWithin levels v = .ok s ∧ Compact levels s (asRead v)

theorem exists_write_items {vs : List Value} (h : ∀ v ∈ vs, IsKept v)
    (hd : itemsDepth false vs ≤ levels) :
    ∃ ss, writeItems levels vs = .ok ss ∧
      Compact (levels + 1) (array ss) (.list (itemsAsRead vs)) := by
  have h : ∀ v ∈ vs, ∃ s, writeWithin levels v = .ok s ∧ Compact levels s (asRead v) :=
    fun v hv => h v hv levels (itemsDepth_le_iff.1 hd v hv)
  choose! s hs hcompact using h
  refine ⟨vs.map s, ?_, ?_⟩
  · rw [writeItems_eq_mapM]
    exact mapM_eq_ok hs
  · rw [itemsAsRead_eq_map]
    exact Compact.array_map vs hcompact

theorem exists_write_entries {es : List (Text × Value)} (hn : (es.map (·.1)).Nodup)
    (h : ∀ e ∈ es, IsKept e.2)
    (hd : entriesDepth false (es.map fun e => (.text e.1, e.2)) ≤ levels) :
    ∃ ss, writeEntries levels (es.map fun e => (.text e.1, e.2)) = .ok ss ∧
      Compact (levels + 1) (object ss)
        (.dict (entriesAsRead (es.map fun e => (.text e.1, e.2)))) := by
  have h : ∀ v ∈ es.map (·.2), ∃ s, writeWithin levels v = .ok s ∧ Compact levels s (asRead v) := by
    intro v hv
    obtain ⟨e, he, rfl⟩ := List.mem_map.1 hv
    exact h e he levels (entriesDepth_le_iff.1 hd _ (List.mem_map_of_mem he))
  choose! s hs hcompact using h
  have hmem {e : Text × Value} (he : e ∈ es) : e.2 ∈ es.map (·.2) := List.mem_map_of_mem he
  refine ⟨es.map fun e => member e.1 (s e.2), ?_, ?_⟩
  · rw [writeEntries_eq_mapM, List.mapM_map]
    refine mapM_eq_ok fun e he => ?_
    simp [key, hs e.2 (hmem he), ok_bind]
  · have hobject := Compact.object_map es (·.1) fun e he => hcompact e.2 (hmem he)
    rw [ofMembers_of_nodup (by rwa [List.map_map]), List.map_map] at hobject
    rw [entriesAsRead_eq_map, List.map_map]
    exact hobject

/-- **A tree is written as compact JSON for what it is read as.** -/
theorem IsTree.isKept {v : Value} (h : IsTree v) : IsKept v := by
  induction h with
  | null => exact fun _ _ => ⟨_, rfl, .null⟩
  | bool b => exact fun _ _ => ⟨_, rfl, .truth b⟩
  | @int n h => exact fun _ _ => ⟨_, if_pos h, .integer h⟩
  | text s => exact fun _ _ => ⟨_, rfl, .text s⟩
  | @float x h =>
    intro levels _
    refine ⟨nullText, ?_, ?_⟩
    · rw [writeWithin, number, h]
      rfl
    · rw [asRead, h]
      exact .null
  | list _ ih | tuple _ ih =>
    intro levels hd
    obtain ⟨n, rfl⟩ := Nat.exists_eq_add_of_lt hd
    obtain ⟨ss, hss, hcompact⟩ := exists_write_items ih (Nat.le_add_right _ n)
    exact ⟨array ss, by rw [writeWithin, enter_succ, hss]; rfl, hcompact⟩
  | dict es hn _ ih =>
    intro levels hd
    obtain ⟨n, rfl⟩ := Nat.exists_eq_add_of_lt hd
    obtain ⟨ss, hss, hcompact⟩ := exists_write_entries hn ih (Nat.le_add_right _ n)
    exact ⟨object ss, by rw [writeWithin, enter_succ, hss]; rfl, hcompact⟩

/-- A tree that is not too deep has a text, and it is the only one. -/
theorem IsTree.toJson_eq_good_iff [Nesting] {v : Value} (h : IsTree v) {s : Text} :
    v.toJson = .ok (.good s) ↔
      depth false v ≤ limit ∧ writeWithin limit v = .ok s ∧ Compact limit s (asRead v) := by
  rw [Value.toJson, Coerced.guarded_eq_ok_good_iff, write]
  constructor
  · intro hs
    obtain ⟨_, hlook, hs⟩ := exists_of_bind hs
    have hd := lookThrough_singleton_eq_ok_iff.1 hlook
    obtain ⟨t, ht, hcompact⟩ := h.isKept limit hd
    cases ht.symm.trans hs
    exact ⟨hd, hs, hcompact⟩
  · rintro ⟨hd, hs, -⟩
    have hlook : lookThrough limit [v] = .ok () := lookThrough_singleton_eq_ok_iff.2 hd
    rw [hlook, ok_bind, hs]

/-- **Reading undoes writing.**  If a tree has a JSON text, this text is read as the tree, as an
argument, with tuples turned into lists and numbers that are not finite into null.  It has one
exactly if it is not nested too deep to be followed. -/
theorem argument_toJson [Nesting] {v : Value} (h : IsTree v) :
    (∀ s, v.toJson = .ok (.good s) → Command.argument true s = .ok (asRead v)) ∧
      ((∃ s, v.toJson = .ok (.good s)) ↔ depth false v ≤ limit) := by
  refine ⟨fun s hs => ?_, fun ⟨s, hs⟩ => (h.toJson_eq_good_iff.1 hs).1, fun hd => ?_⟩
  · obtain ⟨-, -, hcompact⟩ := h.toJson_eq_good_iff.1 hs
    rw [Command.argument, if_pos rfl, hcompact.read_eq_ok]
  · obtain ⟨s, hs⟩ := h.isKept limit hd
    exact ⟨s, h.toJson_eq_good_iff.2 ⟨hd, hs⟩⟩

/-- A tuple, a number that is not finite, and a dictionary that is not in the order of its keys. -/
def nested : Value :=
  .tuple [.int (-12), .float (.infinite true),
    .dict [(.text ['b'], .list []), (.text ['\x22', 'a'], .tuple [.bool true, .text ['\n']])]]

theorem argument_toJson_nested :
    IsTree nested ∧ ∃ s, nested.toJson = .ok (.good s) ∧
      Command.argument true s = .ok (.list [.int (-12), .null,
        .dict [(.text ['b'], .list []),
          (.text ['\x22', 'a'], .list [.bool true, .text ['\n']])]]) := by
  have hlist : IsTree (.list []) := .list nofun
  have htuple : IsTree (.tuple [.bool true, .text ['\n']]) :=
    .tuple (by simp [IsTree.bool, IsTree.text])
  have hdict : IsTree (.dict [(.text ['b'], .list []),
      (.text ['\x22', 'a'], .tuple [.bool true, .text ['\n']])]) :=
    .dict [(['b'], .list []), (['\x22', 'a'], .tuple [.bool true, .text ['\n']])]
      (by decide) (by simp [hlist, htuple])
  have h : IsTree nested := .tuple (by
    simp only [List.forall_mem_cons, List.not_mem_nil, false_implies, implies_true, and_true]
    exact ⟨.int (by decide), .float rfl, hdict⟩)
  obtain ⟨hread, hwritten⟩ := argument_toJson h
  obtain ⟨s, hs⟩ := hwritten.2 (by decide)
  exact ⟨h, s, hs, hread s hs⟩

end Json
end Stencil
