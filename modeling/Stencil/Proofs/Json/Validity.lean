import Stencil.CommandLine.Outcome
import Stencil.Proofs.Coercion.Refusal
import Stencil.Proofs.Json.ReadBack

/-!
# What is written as JSON is JSON

Numbers that are not finite, decimals and fractions, byte strings, sets, records and keys that are
no text may stand anywhere in a value.  Each of them has its own route to the text, and all routes
end in compact JSON: `Json.isCompact_of_write_eq_ok`, by induction on the parts of the value.

`Value.toJson_valid` draws the conclusions for the text that an argument is turned into, be it the
text of the value or the default: it is JSON, it is accepted as an argument, and it has neither
white space nor the name of a number that is not finite outside of strings.

The text says less than the value: different values may be written as the same text, and none of the
routes can be told from the text.  This is why it is only said that the text stands for *some*
value; which one this is comes from reading it (`Value.asRead`).
-/

set_option autoImplicit false

namespace Stencil

open Fallible Nesting

variable {levels : Nat}

namespace Json

/-! ## Every value

A value is written by writing its parts, and then putting the texts between brackets.  The levels go
down with the parts, and those of a text go up again with the brackets around it. -/

/-- The text stands for some value with no more than so many levels. -/
def IsCompact (levels : Nat) (s : Text) : Prop := ∃ v, Compact levels s v

/-- A double is written as a number or, if it is not finite, as `null`. -/
theorem isCompact_number (x : Binary64) : IsCompact levels (number x) := by
  cases x with
  | finite negative m e hd =>
    obtain ⟨whole, fraction, exponent, hw, hf, he, hne, hs⟩ := display_finite negative m e hd
    rw [number, Binary64.isFinite, if_pos rfl, hs]
    exact ⟨_, .double negative hw hf he hne⟩
  | infinite negative => exact ⟨_, .null⟩
  | nan => exact ⟨_, .null⟩

theorem isCompact_of_limitedText {n : Int} {s : Text} (h : Numeral.limitedText n = .ok s) :
    IsCompact levels s := by
  rw [Numeral.limitedText] at h
  split at h
  · cases h
    exact ⟨_, .integer ‹_›⟩
  · cases h

/-- Brackets around compact texts are one level more. -/
theorem isCompact_array {ss : List Text} (h : ∀ s ∈ ss, IsCompact levels s) :
    IsCompact (levels + 1) (array ss) := by
  choose! v hv using h
  have harray := Compact.array_map ss hv
  rw [List.map_id'] at harray
  exact ⟨_, harray⟩

/-- The text of one member of an object. -/
def IsMember (levels : Nat) (s : Text) : Prop := ∃ name t, s = member name t ∧ IsCompact levels t

/-- So are braces around members. -/
theorem isCompact_object {ss : List Text} (h : ∀ s ∈ ss, IsMember levels s) :
    IsCompact (levels + 1) (object ss) := by
  choose! name t hs v hv using h
  have hmap : (ss.map fun s => member (name s) (t s)) = ss :=
    (List.map_congr_left fun s hmem => (hs s hmem).symm).trans (List.map_id ss)
  have hobject := Compact.object_map ss name hv
  rw [hmap] at hobject
  exact ⟨_, hobject⟩

theorem writeEntries_eq_mapM (levels : Nat) (es : List (Value × Value)) :
    writeEntries levels es = es.mapM fun e => do
      let name ← key e.1
      let value ← writeWithin levels e.2
      return member name value := by
  induction es with
  | nil => rfl
  | cons e es ih =>
    obtain ⟨k, v⟩ := e
    simp [writeEntries, List.mapM_cons, ih]

theorem writeFields_eq_mapM (levels : Nat) (fs : List (Text × Value)) :
    writeFields levels fs = fs.mapM fun f => do return member f.1 (← writeWithin levels f.2) := by
  induction fs with
  | nil => rfl
  | cons f fs ih =>
    obtain ⟨name, v⟩ := f
    simp [writeFields, List.mapM_cons, ih]

theorem isCompact_ofFormatMap {m : FormatMap} {s : Text} (h : ofFormatMap levels m = .ok s) :
    IsCompact levels s := by
  have hquotes {n : Nat} (t : Text) : IsCompact n (quote t) := ⟨_, .text t⟩
  have hmember {n : Nat} {name t : Text} (ht : IsCompact n t) :
      ∀ s ∈ [member name t], IsMember n s := by
    intro s hs
    rw [List.mem_singleton.1 hs]
    exact ⟨name, t, rfl, ht⟩
  cases m with
  | names ns =>
    obtain ⟨_, rfl, h⟩ := enter_eq_ok_iff.1 h
    obtain ⟨_, rfl, ⟨⟩⟩ := enter_eq_ok_iff.1 h
    refine isCompact_object (hmember (isCompact_array fun s hs => ?_))
    obtain ⟨n, -, rfl⟩ := List.mem_map.1 hs
    exact hquotes n
  | pairs ps =>
    obtain ⟨_, rfl, h⟩ := enter_eq_ok_iff.1 h
    obtain ⟨_, rfl, h⟩ := enter_eq_ok_iff.1 h
    obtain ⟨items, hitems, ⟨⟩⟩ := exists_of_bind h
    refine isCompact_object (hmember (isCompact_array fun s hs => ?_))
    obtain ⟨p, -, hp⟩ := exists_mem_of_mapM_eq_ok hitems hs
    obtain ⟨_, rfl, hp⟩ := enter_eq_ok_iff.1 hp
    obtain ⟨t, ht, ⟨⟩⟩ := exists_of_bind hp
    refine isCompact_array fun s hs => ?_
    simp only [List.mem_cons, List.not_mem_nil, or_false] at hs
    rcases hs with rfl | rfl
    · exact hquotes p.1
    · exact isCompact_of_limitedText ht

/-- What is written for a value is compact JSON, with no more levels than it was written with. -/
def WritesCompact (v : Value) : Prop :=
  ∀ levels s, writeWithin levels v = .ok s → IsCompact levels s

theorem isCompact_of_mapM_write {vs : List Value} (hv : ∀ v ∈ vs, WritesCompact v)
    {ss : List Text} (h : vs.mapM (writeWithin levels) = .ok ss) :
    ∀ s ∈ ss, IsCompact levels s := by
  intro s hs
  obtain ⟨v, hmem, hw⟩ := exists_mem_of_mapM_eq_ok h hs
  exact hv v hmem levels s hw

/-- One step: a value is written as compact JSON if its parts are. -/
theorem WritesCompact.of_parts {v : Value} (h : ∀ p ∈ v.parts, WritesCompact p) :
    WritesCompact v := by
  intro levels s hs
  -- the induction hypothesis is on all parts at once, so arrays, sets and records share its use
  cases v with
  | null =>
    cases hs
    exact ⟨_, .null⟩
  | bool b =>
    cases hs
    exact ⟨_, .truth b⟩
  | int n => exact isCompact_of_limitedText hs
  | float x | scientific x | fraction x =>
    cases hs
    exact isCompact_number _
  | text t | bytes buffer bs =>
    cases hs
    exact ⟨_, .text _⟩
  | list vs | tuple vs =>
    obtain ⟨n, rfl, hin⟩ := enter_eq_ok_iff.1 hs
    rw [writeItems_eq_mapM] at hin
    obtain ⟨ss, hss, ⟨⟩⟩ := exists_of_bind hin
    exact isCompact_array (isCompact_of_mapM_write h hss)
  | set frozen vs =>
    obtain ⟨n, rfl, hin⟩ := enter_eq_ok_iff.1 hs
    -- the order of a set does not matter here: what is sorted is still one of the parts
    obtain ⟨keys, -, hin⟩ := exists_of_bind hin
    obtain ⟨_, -, hin⟩ := exists_of_bind hin
    rw [mapM_sortedByKey_attempts] at hin
    obtain ⟨ss, hss, ⟨⟩⟩ := exists_of_bind hin
    exact isCompact_array
      (isCompact_of_mapM_write (fun p hp => h p (mem_of_mem_sortedByKey hp)) hss)
  | dict es =>
    obtain ⟨n, rfl, hin⟩ := enter_eq_ok_iff.1 hs
    rw [writeEntries_eq_mapM] at hin
    obtain ⟨ss, hss, ⟨⟩⟩ := exists_of_bind hin
    -- each written entry comes from an entry of the dictionary, and its value is a part
    refine isCompact_object fun s hs => ?_
    obtain ⟨e, he, hw⟩ := exists_mem_of_mapM_eq_ok hss hs
    obtain ⟨name, -, hw⟩ := exists_of_bind hw
    obtain ⟨t, ht, ⟨⟩⟩ := exists_of_bind hw
    exact ⟨name, t, rfl, h e.2 (List.mem_flatMap.2 ⟨e, he, by simp⟩) n t ht⟩
  | record type fs =>
    obtain ⟨n, rfl, hin⟩ := enter_eq_ok_iff.1 hs
    obtain ⟨_, -, hin⟩ := exists_of_bind hin
    rw [writeFields_eq_mapM] at hin
    obtain ⟨ss, hss, ⟨⟩⟩ := exists_of_bind hin
    refine isCompact_object fun s hs => ?_
    obtain ⟨f, hf, hw⟩ := exists_mem_of_mapM_eq_ok hss hs
    obtain ⟨t, ht, ⟨⟩⟩ := exists_of_bind hw
    exact ⟨f.1, t, rfl, h f.2 (List.mem_map_of_mem hf) n t ht⟩
  | formatMap m => exact isCompact_ofFormatMap hs
  | complex re im | recordType type | object o => cases hs

theorem writesCompact (v : Value) : WritesCompact v :=
  Value.induction_parts (fun _ => WritesCompact.of_parts) v

/-- **What is written is compact JSON**, whatever the value, with no more levels than can be
followed. -/
theorem isCompact_of_write_eq_ok [Nesting] {v : Value} {s : Text} (h : write v = .ok s) :
    IsCompact limit s := by
  obtain ⟨_, -, h⟩ := exists_of_bind h
  exact writesCompact v limit s h

/-! ## What it does not contain

In compact text the characters outside of strings are those of tokens, and they can be listed. White
space is none of them, and the names of the numbers that are not finite have letters that are none
of them either. -/

theorem isBlank_of_isTokenChar {c : Char} (h : isTokenChar c) : Text.isBlank c = false := by
  have hall : ∀ c ∈ ['-', '+', '.', 'e', 'E', ',', ':', '[', ']', '\x7b', '\x7d',
    'n', 'u', 'l', 't', 'r', 'f', 'a', 's'], Text.isBlank c = false :=
    List.all_iff_forall_prop.1 (by decide)
  rw [isTokenChar, Bool.or_eq_true, List.contains_iff_mem] at h
  rcases h with hdigit | hmem
  · have hdigits : ∀ n < 0x3A, 0x30 ≤ n → Text.isBlank (Char.ofNat n) = false := by decide
    obtain ⟨h0, h9⟩ := Char.isDigit_iff_toNat.1 hdigit
    rw [← Char.ofNat_toNat c]
    exact hdigits c.toNat (Nat.lt_succ_of_le h9) h0
  · exact hall c hmem

/-- A word with a character that does not occur does not occur. -/
theorem not_infix_of_not_isTokenChar {c : Char} {word s : Text} (hc : c ∈ word)
    (hno : isTokenChar c = false) (h : ∀ d ∈ s, isTokenChar d) : ¬ word <:+: s := by
  intro hword
  rw [h c (hword.subset hc)] at hno
  cases hno

end Json

namespace Value

/-- **What an argument is turned into as JSON is JSON.**  It is accepted as an argument, and outside
of its strings it has neither white space nor the name of a number that is not finite. -/
theorem toJson_valid [Nesting] {v : Value} {r : Coerced Text} (h : v.toJson = .ok r) :
    Json.IsText r.value ∧ (∃ w, Command.argument true r.value = .ok w) ∧
      (∀ c ∈ Json.outside r.value, Text.isBlank c = false) ∧
      ¬ "NaN".toList <:+: Json.outside r.value ∧
      ¬ "Infinity".toList <:+: Json.outside r.value := by
  have hcompact : Json.IsCompact limit r.value := by
    rcases Coerced.guarded_eq_ok_iff.1 h with ⟨s, hs, rfl⟩ | ⟨_, -, -, rfl⟩
    · exact Json.isCompact_of_write_eq_ok hs
    · exact ⟨_, .null⟩
  obtain ⟨w, hw⟩ := hcompact
  have htoken := hw.clear.forall_mem_outside
  have haccepted : Command.argument true r.value = .ok w := by
    rw [Command.argument, if_pos rfl, hw.read_eq_ok]
  exact ⟨hw.isText, ⟨w, haccepted⟩, fun c hc => Json.isBlank_of_isTokenChar (htoken c hc),
    Json.not_infix_of_not_isTokenChar (c := 'N') (by decide) (by decide) htoken,
    Json.not_infix_of_not_isTokenChar (c := 'I') (by decide) (by decide) htoken⟩

/-- A number that is not finite, a fraction beyond the doubles, bytes that are no UTF-8, a set, a
record, and keys that are no text, one inside the other. -/
def assorted : Value :=
  .list [.float .nan, .fraction (Rat.ofInt (Int.pow 2 1024)), .bytes false [0x22, 0xFF],
    .set false [.text "NaN ".toList, .float (.infinite true)],
    .record ⟨"shop".toList, "Item".toList⟩ [("a b".toList, .tuple [.float (.infinite false)])],
    .dict [(.int 1, .bool true), (.null, .text "\x22\n".toList)]]

/-- The text of `assorted`. -/
def assortedText : Text :=
  "[null,null,\x22\\\x22\uFFFD\x22,[\x22NaN \x22,null],".toList ++
    "\x7b\x22a b\x22:[null]\x7d,".toList ++
    "\x7b\x221\x22:true,\x22null\x22:\x22\\\x22\\n\x22\x7d]".toList

theorem toJson_valid_assorted :
    assorted.toJson = .ok (.good assortedText) ∧ Json.IsText assortedText ∧
      (∃ w, Command.argument true assortedText = .ok w) ∧
      (∀ c ∈ Json.outside assortedText, Text.isBlank c = false) ∧
      ¬ "NaN".toList <:+: Json.outside assortedText ∧
      ¬ "Infinity".toList <:+: Json.outside assortedText := by
  have h : assorted.toJson = .ok (.good assortedText) := by decide +kernel
  exact ⟨h, toJson_valid h⟩

end Value
end Stencil
