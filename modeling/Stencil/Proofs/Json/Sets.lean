import Mathlib.Data.List.Nodup
import Stencil.Proofs.Coercion.Levels
import Stencil.Proofs.Json.RoundTrip

/-!
# Sets as JSON

The elements of a set come in no order of their own, so an array of them needs one that does not
depend on how the set is gone through.  It is the order of their displayed forms, and this is enough
where no two elements are displayed alike: a sorted list is then the only one with its elements
(`Sorting.sortBy_eq_of_perm`), whatever the elements are and whether or not they can be written.

The main result, `Value.toJson_set_of_perm`, says this for the text and for the default in its
place.  The forms by which elements are put in order are those that they have inside of the set,
with one level less than there are outside; an element for which this is not enough is the fault of
the whole set in any order.  For sets of what JSON has itself and of tuples the result says more:
when the array is written, it has each element once.
-/

set_option autoImplicit false

namespace Stencil

open Fallible Nesting

variable {levels : Nat}

/-! ## The order of texts

Texts are compared by their code points.  This is an order in which any two texts can be compared,
and only equal ones stand equally far in front. -/

namespace Text

theorem atMost_cons {c d : Char} {s t : Text} :
    atMost (c :: s) (d :: t) ↔ c.toNat < d.toNat ∨ c = d ∧ atMost s t := by
  rw [atMost]
  split
  · rename_i h
    subst h
    simp
  · rename_i h
    simp [h]

/-- Of two texts one is at most the other. -/
theorem atMost_total (s t : Text) : atMost s t || atMost t s := by
  induction s generalizing t with
  | nil => rfl
  | cons c s ih =>
    cases t with
    | nil => rfl
    | cons d t =>
      rw [Bool.or_eq_true, atMost_cons, atMost_cons]
      rcases Nat.lt_trichotomy c.toNat d.toNat with h | h | h
      · exact .inl (.inl h)
      · obtain rfl := Char.toNat_inj.1 h
        exact (Bool.or_eq_true_iff.1 (ih t)).imp (fun h => .inr ⟨rfl, h⟩) fun h => .inr ⟨rfl, h⟩
      · exact .inr (.inl h)

theorem atMost_trans (s t u : Text) (hst : atMost s t) (htu : atMost t u) : atMost s u := by
  induction s generalizing t u with
  | nil => rfl
  | cons c s ih =>
    cases t with
    | nil => cases hst
    | cons d t =>
      cases u with
      | nil => cases htu
      | cons e u =>
        rw [atMost_cons] at hst htu ⊢
        rcases hst with h | ⟨rfl, hst⟩
        · rcases htu with h' | ⟨rfl, -⟩
          · exact .inl (h.trans h')
          · exact .inl h
        · exact htu.imp_right fun ⟨h, htu⟩ => ⟨h, ih t u hst htu⟩

/-- Two texts that are at most each other are the same. -/
theorem atMost_antisymm {s t : Text} (hst : atMost s t) (hts : atMost t s) : s = t := by
  induction s generalizing t with
  | nil =>
    cases t with
    | nil => rfl
    | cons d t => cases hts
  | cons c s ih =>
    cases t with
    | nil => cases hst
    | cons d t =>
      rw [atMost_cons] at hst hts
      rcases hst with h | ⟨rfl, hst⟩
      · rcases hts with h' | ⟨rfl, -⟩ <;> omega
      · rw [ih hst (hts.resolve_left (Nat.lt_irrefl _)).2]

end Text

/-! ## One order for all lists with the same elements

Sorting gives a list that is sorted and has the elements that were there.  If no two of them are
equally far in front, there is only one such list. -/

namespace Sorting

variable {α : Type} {le : α → α → Bool}

/-- Where no two different elements are equally far in front, a sorted list depends on nothing but
the elements. -/
theorem sortBy_eq_of_perm (total : ∀ a b, le a b || le b a)
    (trans : ∀ a b c, le a b → le b c → le a c) {as bs : List α}
    (antisymm : ∀ a ∈ as, ∀ b ∈ as, le a b → le b a → a = b) (h : bs.Perm as) :
    sortBy le bs = sortBy le as := by
  have hmem {a : α} (ha : a ∈ sortBy le as) : a ∈ as := (sortBy_perm le as).mem_iff.1 ha
  have hmem' {b : α} (hb : b ∈ sortBy le bs) : b ∈ as :=
    h.mem_iff.1 ((sortBy_perm le bs).mem_iff.1 hb)
  refine List.Perm.eq_of_pairwise (fun a b ha hb => antisymm a (hmem' ha) b (hmem hb))
    (pairwise_sortBy total trans bs) (pairwise_sortBy total trans as) ?_
  exact (sortBy_perm le bs).trans (h.trans (sortBy_perm le as).symm)

end Sorting

/-! ## Elements in order

The displayed forms are worked out before anything is sorted, and an element for which this fails is
the fault of the set.  Inside of a set there is one level less than outside, so an element that has
a form of its own may have none there; this depends on the elements and not on their order. -/

namespace Value

/-- The displayed form of a value that has one. -/
def displayed (levels : Nat) (v : Value) : Text := (v.quotedWithin levels).toOption.getD []

theorem quotedWithin_eq_ok {v : Value} (h : ∃ s, v.quotedWithin levels = .ok s) :
    v.quotedWithin levels = .ok (v.displayed levels) := by
  obtain ⟨s, hs⟩ := h
  rw [displayed, hs]
  rfl

/-- Values in the order of their displayed forms. -/
def inOrder (levels : Nat) (vs : List Value) : List Value :=
  Sorting.sortBy (fun v w => Text.atMost (v.displayed levels) (w.displayed levels)) vs

/-- No element is lost. -/
theorem inOrder_perm (levels : Nat) (vs : List Value) : (inOrder levels vs).Perm vs :=
  Sorting.sortBy_perm _ vs

section

variable {vs : List Value} (htexts : ∀ v ∈ vs, ∃ s, v.quotedWithin levels = .ok s)
  (hd : vs.Pairwise fun v w => v.quotedWithin levels ≠ w.quotedWithin levels)

include htexts hd

theorem nodup_displayed : (vs.map (displayed levels)).Nodup := by
  refine List.pairwise_map.2 (hd.imp_of_mem fun hv hw hne h => hne ?_)
  rw [quotedWithin_eq_ok (htexts _ hv), quotedWithin_eq_ok (htexts _ hw), h]

/-- Values that are displayed differently have only one order. -/
theorem inOrder_of_perm {ws : List Value} (hp : ws.Perm vs) :
    inOrder levels ws = inOrder levels vs := by
  refine Sorting.sortBy_eq_of_perm
    (fun v w => Text.atMost_total (v.displayed levels) (w.displayed levels))
    (fun u v w => Text.atMost_trans (u.displayed levels) (v.displayed levels) (w.displayed levels))
    (fun v hv w hw hvw hwv => ?_) hp
  exact List.inj_on_of_nodup_map (nodup_displayed htexts hd) hv hw (Text.atMost_antisymm hvw hwv)

end

/-- Values that have forms have none together where one of them is too deep. -/
theorem quotedItems_eq_tooDeep [Nesting] {vs : List Value}
    (htexts : ∀ v ∈ vs, ∃ s, v.quoted = .ok s)
    (h : ¬ ∀ v ∈ vs, ∃ s, v.quotedWithin levels = .ok s) :
    quotedItems levels vs = .error .tooDeep := by
  have hcut : ∀ v ∈ vs, v.quotedWithin levels = .error .tooDeep ∨
      ∃ s, v.quotedWithin levels = .ok s := by
    intro v hv
    obtain ⟨s, hs⟩ := htexts v hv
    exact (quotedWithin_of_eq_ok hs levels).imp_right fun h => ⟨s, h⟩
  push Not at h
  obtain ⟨v, hv, hno⟩ := h
  rw [quotedItems_eq_mapM]
  exact mapM_eq_error hcut hv ((hcut v hv).resolve_right fun ⟨s, hs⟩ => hno s hs)

end Value

namespace Json

variable {frozen : Bool} {vs ws : List Value}

/-- The elements of a set are written in their order. -/
theorem writeWithin_set (htexts : ∀ v ∈ vs, ∃ s, v.quotedWithin levels = .ok s) :
    writeWithin (levels + 1) (.set frozen vs) = do
      lookThrough levels vs
      return array (← (Value.inOrder levels vs).mapM (writeWithin levels)) := by
  have hkeys : Value.quotedItems levels vs = .ok (vs.map (Value.displayed levels)) := by
    rw [Value.quotedItems_eq_mapM]
    exact mapM_eq_ok fun v hv => Value.quotedWithin_eq_ok (htexts v hv)
  have hsorted : sortedByKey (vs.map (Value.displayed levels)) vs = Value.inOrder levels vs := by
    have hzip : (vs.map (Value.displayed levels)).zip vs =
        vs.map fun v => (v.displayed levels, v) := by
      have h : (vs.map (Value.displayed levels)).zip (vs.map id) =
        vs.map fun v => (v.displayed levels, v) := List.zip_map'
      rwa [List.map_id] at h
    rw [sortedByKey, hzip, ← Sorting.map_sortBy fun v w => rfl, List.map_map]
    exact List.map_id _
  rw [writeWithin, enter_succ, hkeys, ok_bind, mapM_sortedByKey_attempts, hsorted]

theorem itemsDepth_of_perm (all : Bool) (hp : ws.Perm vs) :
    itemsDepth all ws = itemsDepth all vs := by
  refine Nat.le_antisymm (itemsDepth_le_iff.2 fun v hv => ?_) (itemsDepth_le_iff.2 fun v hv => ?_)
  · exact itemsDepth_le_iff.1 (Nat.le_refl _) v (hp.mem_iff.1 hv)
  · exact itemsDepth_le_iff.1 (Nat.le_refl _) v (hp.mem_iff.2 hv)

/-- A set is written in the same way in whichever order it is gone through. -/
theorem writeWithin_set_of_perm [Nesting]
    (htexts : ∀ v ∈ vs, ∃ s, v.quoted = .ok s) (hd : vs.Pairwise fun v w => v.quoted ≠ w.quoted)
    (hp : ws.Perm vs) :
    writeWithin levels (.set frozen ws) = writeWithin levels (.set frozen vs) := by
  cases levels with
  | zero => rfl
  | succ n =>
    have htexts' : ∀ v ∈ ws, ∃ s, v.quoted = .ok s := fun v hv => htexts v (hp.mem_iff.1 hv)
    by_cases h : ∀ v ∈ vs, ∃ s, v.quotedWithin n = .ok s
    · have h' : ∀ v ∈ ws, ∃ s, v.quotedWithin n = .ok s := fun v hv => h v (hp.mem_iff.1 hv)
      have hsame {v : Value} (hv : v ∈ vs) : v.quotedWithin n = v.quoted := by
        obtain ⟨s, hs⟩ := htexts v hv
        refine ((Value.quotedWithin_of_eq_ok hs n).resolve_left ?_).trans hs.symm
        obtain ⟨t, ht⟩ := h v hv
        rw [ht]
        nofun
      have hd' : vs.Pairwise fun v w => v.quotedWithin n ≠ w.quotedWithin n :=
        hd.imp_of_mem fun hv hw hne => by rwa [hsame hv, hsame hw]
      rw [writeWithin_set h, writeWithin_set h', Value.inOrder_of_perm h hd' hp, lookThrough,
        itemsDepth_of_perm false hp, lookThrough]
    · have h' : ¬ ∀ v ∈ ws, ∃ s, v.quotedWithin n = .ok s :=
        fun h' => h fun v hv => h' v (hp.mem_iff.2 hv)
      rw [writeWithin, writeWithin, enter_succ, enter_succ,
        Value.quotedItems_eq_tooDeep htexts h, Value.quotedItems_eq_tooDeep htexts' h']
      rfl

/-! ## Plain elements

What is read back tells plain values apart, since it says of each what it was, apart from a tuple,
which is read as a list.  So no two different elements of a set are written alike, and each of them
is found in the array once. -/

/-- Null, a truth value, an integer, a text, or a tuple of these. -/
inductive IsPlain : Value → Prop where
  | null : IsPlain .null
  | bool (b : Bool) : IsPlain (.bool b)
  | int (n : Int) : IsPlain (.int n)
  | text (s : Text) : IsPlain (.text s)
  | tuple {vs : List Value} (h : ∀ v ∈ vs, IsPlain v) : IsPlain (.tuple vs)

namespace IsPlain

variable {v w : Value}

/-- What can be displayed has no integer that is too long to be written. -/
theorem isTree (h : IsPlain v) {s : Text} (hs : v.quotedWithin levels = .ok s) : IsTree v := by
  induction h generalizing s levels with
  | null => exact .null
  | bool b => exact .bool b
  | text t => exact .text t
  | int n =>
    refine .int ?_
    by_contra hlong
    rw [Value.quotedWithin, Numeral.limitedText, if_neg hlong] at hs
    cases hs
  | @tuple vs _ ih =>
    obtain ⟨n, -, hs⟩ := enter_eq_ok_iff.1 hs
    rw [Value.quotedItems_eq_mapM] at hs
    obtain ⟨items, hitems, -⟩ := exists_of_bind hs
    refine .tuple fun v hv => ?_
    obtain ⟨t, ht⟩ := exists_of_mem_of_mapM_eq_ok hitems hv
    exact ih v hv ht

/-- A plain value that can be displayed needs no more levels for it than it has itself. -/
theorem exists_quotedWithin (h : IsPlain v) {s : Text} (hs : v.quotedWithin levels = .ok s)
    {n : Nat} (hd : depth false v ≤ n) : ∃ s, v.quotedWithin n = .ok s := by
  induction h generalizing s levels n with
  | null | bool | text | int => exact ⟨s, hs⟩
  | @tuple vs _ ih =>
    obtain ⟨_, -, hs⟩ := enter_eq_ok_iff.1 hs
    rw [Value.quotedItems_eq_mapM] at hs
    obtain ⟨items, hitems, -⟩ := exists_of_bind hs
    obtain ⟨k, rfl⟩ := Nat.exists_eq_add_of_lt hd
    have hvs : ∀ v ∈ vs, ∃ s, v.quotedWithin (itemsDepth false vs + k) = .ok s := by
      intro v hv
      obtain ⟨t, ht⟩ := exists_of_mem_of_mapM_eq_ok hitems hv
      exact ih v hv ht (itemsDepth_le_iff.1 (Nat.le_add_right _ k) v hv)
    obtain ⟨ss, hss⟩ := exists_mapM_eq_ok hvs
    refine ⟨Value.tupleText ss, ?_⟩
    rw [Value.quotedWithin, enter_succ, Value.quotedItems_eq_mapM, hss]
    rfl

/-- Different plain values are read as different ones. -/
theorem eq_of_asRead_eq (hv : IsPlain v) (hw : IsPlain w) (h : asRead v = asRead w) : v = w := by
  induction hv generalizing w with
  | null | bool | int | text => cases hw <;> first | exact h | cases h
  | @tuple vs _ ih =>
    cases hw with
    | @tuple ws hws =>
      rw [asRead, asRead, itemsAsRead_eq_map, itemsAsRead_eq_map, Value.list.injEq] at h
      rw [Value.tuple.injEq]
      refine List.ext_getElem (by simpa using congrArg List.length h) fun i hi hi' => ?_
      have hmem : ws[i] ∈ ws := List.getElem_mem hi'
      refine ih vs[i] (List.getElem_mem hi) (hws _ hmem) ?_
      simpa [hi, hi'] using congrArg (·[i]?) h
    | _ => cases h

end IsPlain

/-- A set of plain elements is written as the array of them. -/
theorem exists_writeWithin_set (frozen : Bool) {vs : List Value} (hplain : ∀ v ∈ vs, IsPlain v)
    (htexts : ∀ v ∈ vs, ∃ s, v.quotedWithin levels = .ok s) (hd : itemsDepth false vs ≤ levels) :
    ∃ s, writeWithin (levels + 1) (.set frozen vs) = .ok s ∧
      Compact (levels + 1) s (.list ((Value.inOrder levels vs).map asRead)) := by
  have hperm := Value.inOrder_perm levels vs
  have hkept : ∀ v ∈ Value.inOrder levels vs, IsKept v := by
    intro v hv
    have hmem := hperm.mem_iff.1 hv
    obtain ⟨s, hs⟩ := htexts v hmem
    exact ((hplain v hmem).isTree hs).isKept
  obtain ⟨ss, hss, hcompact⟩ :=
    exists_write_items hkept ((itemsDepth_of_perm false hperm).trans_le hd)
  have hlook : lookThrough levels vs = .ok () := lookThrough_eq_ok_iff.2 (itemsDepth_le_iff.1 hd)
  rw [writeItems_eq_mapM] at hss
  rw [itemsAsRead_eq_map] at hcompact
  exact ⟨array ss, by rw [writeWithin_set htexts, hlook, ok_bind, hss]; rfl, hcompact⟩

end Json

/-! ## Any order in, one array out

The text of a set is what is written for it, and where this fails there is a default or a fault; all
three are the same for all orders. -/

namespace Value

theorem toJson_set_eq_good_iff [Nesting] {frozen : Bool} {vs : List Value} {s : Text} :
    (set frozen vs).toJson = .ok (.good s) ↔ Json.writeWithin limit (set frozen vs) = .ok s := by
  have hlook : Json.lookThrough limit [set frozen vs] = .ok () :=
    Json.lookThrough_singleton_eq_ok_iff.2 (Nat.zero_le _)
  rw [toJson, Coerced.guarded_eq_ok_good_iff, Json.write, hlook, ok_bind]

/-- **A set is written in the same way in whichever order its elements are gone through**, as long
as each has a displayed form and no two have the same: there is the same text, the same default or
the same refusal.  If the elements are plain, there is a text exactly if they are not nested too
deep, and it is read as the list of them, each once. -/
theorem toJson_set_of_perm [Nesting] (frozen : Bool) {vs ws : List Value}
    (htexts : ∀ v ∈ vs, ∃ s, v.quoted = .ok s) (hd : vs.Pairwise fun v w => v.quoted ≠ w.quoted)
    (hp : ws.Perm vs) :
    (set frozen ws).toJson = (set frozen vs).toJson ∧
      ((∀ v ∈ vs, Json.IsPlain v) →
        (∀ s, (set frozen vs).toJson = .ok (.good s) → ∃ items,
          Json.read s = .ok (.list items) ∧ items.Perm (vs.map Json.asRead) ∧ items.Nodup) ∧
        ((∃ s, (set frozen vs).toJson = .ok (.good s)) ↔ Json.itemsDepth false vs < limit)) := by
  refine ⟨?_, fun hplain => ?_⟩
  -- the sorted order is that of the texts, which are distinct, so both sets are written alike
  · have hwrite : Json.write (.set frozen ws) = Json.write (.set frozen vs) := by
      rw [Json.write, Json.write, Json.writeWithin_set_of_perm htexts hd hp]
      rfl
    rw [toJson, toJson, hwrite]
  -- written well, so no deeper than the limit
  have hdepth {s : Text} (hs : (set frozen vs).toJson = .ok (.good s)) :
      Json.itemsDepth false vs < limit := by
    obtain ⟨n, hn, hs⟩ := enter_eq_ok_iff.1 (toJson_set_eq_good_iff.1 hs)
    obtain ⟨_, -, hs⟩ := exists_of_bind hs
    obtain ⟨_, hlook, -⟩ := exists_of_bind hs
    have := Json.itemsDepth_le_iff.2 (Json.lookThrough_eq_ok_iff.1 hlook)
    omega
  -- no deeper than the limit, so written well, and then the round trip says what is read
  have hwritten (hlt : Json.itemsDepth false vs < limit) : ∃ s items,
      (set frozen vs).toJson = .ok (.good s) ∧ Json.read s = .ok (.list items) ∧
        items.Perm (vs.map Json.asRead) ∧ items.Nodup := by
    obtain ⟨n, hn⟩ : ∃ n, limit = n + 1 := ⟨limit - 1, by omega⟩
    have hle : Json.itemsDepth false vs ≤ n := by omega
    have htexts' : ∀ v ∈ vs, ∃ s, v.quotedWithin n = .ok s := by
      intro v hv
      obtain ⟨s, hs⟩ := htexts v hv
      exact (hplain v hv).exists_quotedWithin hs (Json.itemsDepth_le_iff.1 hle v hv)
    obtain ⟨s, hs, hcompact⟩ := Json.exists_writeWithin_set frozen hplain htexts' hle
    rw [← hn] at hs hcompact
    have hitems : ((inOrder n vs).map Json.asRead).Perm (vs.map Json.asRead) :=
      (inOrder_perm n vs).map Json.asRead
    refine ⟨s, _, toJson_set_eq_good_iff.2 hs, hcompact.read_eq_ok, hitems,
      hitems.nodup_iff.2 ?_⟩
    -- two elements that are read alike are the same, so nothing is lost in reading
    have hnodup : vs.Nodup := (nodup_displayed htexts hd).of_map
    exact hnodup.map_on fun v hv w hw h => (hplain v hv).eq_of_asRead_eq (hplain w hw) h
  refine ⟨fun s hs => ?_, ?_, fun hlt => ?_⟩
  · obtain ⟨t, items, ht, hitems⟩ := hwritten (hdepth hs)
    cases ht.symm.trans hs
    exact ⟨items, hitems⟩
  · rintro ⟨s, hs⟩
    exact hdepth hs
  · obtain ⟨s, _, hs, -⟩ := hwritten hlt
    exact ⟨s, hs⟩

/-- Integers in the order of their numerals, behind a text and a tuple. -/
theorem toJson_set_of_perm_mixed :
    let vs : List Value := [.null, .int 9, .int 10, .tuple [.null, .bool true], .text ['b']]
    let s : Text := "[\x22b\x22,[null,true],10,9,null]".toList
    (∀ v ∈ vs, ∃ s, v.quoted = .ok s) ∧ (vs.Pairwise fun v w => v.quoted ≠ w.quoted) ∧
      (set true vs).toJson = .ok (.good s) ∧ (set true vs.reverse).toJson = .ok (.good s) ∧
      ∃ items, Json.read s = .ok (.list items) ∧ items.Perm (vs.map Json.asRead) ∧ items.Nodup := by
  intro vs s
  have htexts : ∀ v ∈ vs, ∃ s, v.quoted = .ok s := by
    simp only [vs, List.forall_mem_cons, List.not_mem_nil, false_implies, implies_true, and_true]
    exact ⟨⟨_, rfl⟩, ⟨_, rfl⟩, ⟨_, rfl⟩, ⟨_, rfl⟩, ⟨_, rfl⟩⟩
  have hd : vs.Pairwise fun v w => v.quoted ≠ w.quoted := by decide +kernel
  have hplain : ∀ v ∈ vs, Json.IsPlain v := by
    simp only [vs, List.forall_mem_cons, List.not_mem_nil, false_implies, implies_true, and_true]
    exact ⟨.null, .int 9, .int 10, .tuple (by simp [Json.IsPlain.null, Json.IsPlain.bool]), .text _⟩
  have hjson : (set true vs).toJson = .ok (.good s) := by decide +kernel
  obtain ⟨hsame, hrest⟩ := toJson_set_of_perm true htexts hd (List.reverse_perm vs)
  exact ⟨htexts, hd, hjson, hsame.trans hjson, (hrest hplain).1 s hjson⟩

end Value
end Stencil
