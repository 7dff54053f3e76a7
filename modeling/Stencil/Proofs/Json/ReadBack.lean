import Stencil.Proofs.Json.Compact

/-!
# Reading compact JSON

**What is compact is read back** as the value it stands for (`Compact.read_eq_ok`).

Inside of an array or an object a value is followed by a comma or a bracket, so the statement that
goes through by induction is about a value with any such text after it: `ReadsBack`.  A nested read
costs a unit of fuel, and twice the length of the text is enough for all of them: each item of a
list costs one unit for the rest of the list and one for its own value, and takes up at least its
first character and the comma after it.

There are also levels to be counted.  An array or an object uses up one of them, in the text as in
the reader, so a text with no more levels than the reader has does not run out of them either.
-/

set_option autoImplicit false

namespace Stencil
namespace Json

open Nesting

/-! ## Strings

The reader of a string works on codes, since a code point above `0xFFFF` may be written as two of
them.  A character by itself never looks like one of a pair, so the characters of a string come back
one by one. -/

/-- No character is half of a pair of codes, so codes of characters stay apart. -/
theorem consCode_toNat (c : Char) (codes : List Nat) :
    consCode c.toNat codes = c.toNat :: codes := by
  have hhigh : isHigh c.toNat = false := by
    have hvalid : c.toNat < 0xD800 ∨ 0xDFFF < c.toNat ∧ c.toNat < 0x110000 := c.valid
    rw [isHigh, Bool.and_eq_false_iff, decide_eq_false_iff_not, decide_eq_false_iff_not]
    omega
  cases codes with
  | nil => rfl
  | cons m codes => rw [consCode, hhigh, Bool.false_and, if_neg Bool.false_ne_true]

/-- A character is read back from the way it is written. -/
theorem readCodes_escape (c : Char) {t : Text} (ht : t ≠ []) :
    readCodes (escape c ++ t) = before c.toNat (readCodes t) := by
  have hempty : t.isEmpty = false := by simpa using ht
  rw [escape]
  split_ifs with hquote hn hr htab hf hb hcontrol
  · rcases hquote with rfl | rfl <;> simp [readCodes, unescape?]
  · simp [readCodes, unescape?, hn]
  · simp [readCodes, unescape?, hr]
  · simp [readCodes, unescape?, htab]
  · simp [readCodes, unescape?, hf]
  · simp [readCodes, unescape?, hb]
  · obtain ⟨x, y, z, w, hs, -, hcode⟩ := exists_hex hcontrol
    simp [hs, readCodes, hempty, hcode]
  · obtain ⟨hquote, hback⟩ := not_or.1 hquote
    simp [readCodes, hquote, hback, hcontrol]

/-- The characters of a string are read back up to the quote. -/
theorem readString_quote (s rest : Text) :
    readString (s.flatMap escape ++ '\x22' :: rest) = .ok (s, rest) := by
  have hcodes : readCodes (s.flatMap escape ++ '\x22' :: rest) = .ok (s.map Char.toNat, rest) := by
    induction s with
    | nil => simp [readCodes]
    | cons c s ih =>
      rw [List.flatMap_cons, List.append_assoc, readCodes_escape c (by simp), ih]
      exact congrArg (fun codes => Except.ok (codes, rest)) (consCode_toNat c _)
  rw [readString, hcodes]
  simp [Except.map, Function.comp_def]

theorem quote_append (s rest : Text) :
    quote s ++ rest = '\x22' :: (s.flatMap escape ++ '\x22' :: rest) := by
  simp [quote]

/-! ## What values begin with

Blanks are skipped in front of a value.  None are skipped here, as a value begins with one of a few
characters, and none of them is a blank. -/

/-- A character with which values begin. -/
def opensValue (c : Char) : Bool :=
  c.isDigit || ['-', 'n', 't', 'f', '\x22', '[', '\x7b'].contains c

/-- A text whose first character begins a value. -/
def Starts (s : Text) : Prop := ∃ c t, s = c :: t ∧ opensValue c

theorem Starts.append {s : Text} (h : Starts s) (t : Text) : Starts (s ++ t) := by
  obtain ⟨c, s, rfl, hc⟩ := h
  exact ⟨c, s ++ t, rfl, hc⟩

theorem Starts.length_pos {s : Text} (h : Starts s) : 0 < s.length := by
  obtain ⟨c, s, rfl, -⟩ := h
  exact Nat.succ_pos _

theorem Starts.skipBlanks {s : Text} (h : Starts s) : skipBlanks s = s := by
  obtain ⟨c, s, rfl, hc⟩ := h
  refine List.dropWhile_cons_of_neg fun hb => ?_
  simp only [isBlank, Bool.or_eq_true, decide_eq_true_eq] at hb
  rcases hb with ((rfl | rfl) | rfl) | rfl <;> exact absurd hc (by decide)

theorem starts_quote (s : Text) : Starts (quote s) := ⟨_, _, rfl, by decide⟩

theorem IsWhole.exists_cons {whole : Text} (h : IsWhole whole) :
    ∃ d ds, whole = d :: ds ∧ d.isDigit := by
  cases h with
  | zero => exact ⟨_, _, rfl, by decide⟩
  | digits hd =>
    obtain ⟨d, ds, rfl⟩ := List.exists_cons_of_ne_nil hd.1
    exact ⟨d, ds, rfl, hd.2 d List.mem_cons_self⟩

theorem starts_number (negative : Bool) {whole : Text} (h : IsWhole whole) (s : Text) :
    Starts (Layout.signText negative ++ (whole ++ s)) := by
  obtain ⟨d, ds, rfl, hd⟩ := h.exists_cons
  cases negative with
  | true => exact ⟨_, _, rfl, by decide⟩
  | false => exact ⟨d, _, rfl, by simp [opensValue, hd]⟩

/-! ## Steps of the reader

One lemma for each thing the reader does: the last item of a list and one before a comma, for arrays
and for objects, and the three kinds of value.  They are stated for any text behind the item so that
they can be put together. -/

section Steps

variable {fuel levels : Nat} {s t rest : Text} {v : Value} {name : Text}

theorem readElements_last (hv : readValue fuel levels s = .ok (v, ']' :: rest)) :
    readElements (fuel + 1) levels s = .ok ([v], rest) := by
  rw [readElements, hv]
  rfl

theorem readElements_comma {vs : List Value} (hv : readValue fuel levels s = .ok (v, ',' :: t))
    (ht : Starts t) (h : readElements fuel levels t = .ok (vs, rest)) :
    readElements (fuel + 1) levels s = .ok (v :: vs, rest) := by
  have hcomma : skipBlanks (',' :: t) = ',' :: t := rfl
  simp only [readElements, hv, hcomma, ht.skipBlanks, h]
  rfl

theorem readMembers_last (hs : Starts s) (hv : readValue fuel levels s = .ok (v, '\x7d' :: rest)) :
    readMembers (fuel + 1) levels (quote name ++ ':' :: s) = .ok ([(name, v)], rest) := by
  have hcolon : skipBlanks (':' :: s) = ':' :: s := rfl
  simp only [quote_append, readMembers, readString_quote, hcolon, hs.skipBlanks, hv]
  rfl

theorem readMembers_comma {ms : List (Text × Value)} (hs : Starts s)
    (hv : readValue fuel levels s = .ok (v, ',' :: t)) (ht : Starts t)
    (h : readMembers fuel levels t = .ok (ms, rest)) :
    readMembers (fuel + 1) levels (quote name ++ ':' :: s) = .ok ((name, v) :: ms, rest) := by
  have hcolon : skipBlanks (':' :: s) = ':' :: s := rfl
  have hcomma : skipBlanks (',' :: t) = ',' :: t := rfl
  simp only [quote_append, readMembers, readString_quote, hcolon, hs.skipBlanks, hv, hcomma,
    ht.skipBlanks, h]
  rfl

theorem readValue_array {vs : List Value} (hs : Starts s)
    (h : readElements fuel levels s = .ok (vs, rest)) :
    readValue (fuel + 1) (levels + 1) ('[' :: s) = .ok (.list vs, rest) := by
  obtain ⟨c, s, rfl, hc⟩ := hs
  have hskip : skipBlanks (c :: s) = c :: s := Starts.skipBlanks ⟨c, s, rfl, hc⟩
  have hne : c ≠ ']' := by
    rintro rfl
    exact absurd hc (by decide)
  simp [readValue, hskip, hne, h, Except.map]

theorem readValue_object {ms : List (Text × Value)} (hs : Starts s)
    (h : readMembers fuel levels s = .ok (ms, rest)) :
    readValue (fuel + 1) (levels + 1) ('\x7b' :: s) = .ok (ofMembers ms, rest) := by
  obtain ⟨c, s, rfl, hc⟩ := hs
  have hskip : skipBlanks (c :: s) = c :: s := Starts.skipBlanks ⟨c, s, rfl, hc⟩
  have hne : c ≠ '\x7d' := by
    rintro rfl
    exact absurd hc (by decide)
  simp [readValue, hskip, hne, h, Except.map]

theorem readValue_string : readValue (fuel + 1) levels (quote s ++ rest) = .ok (.text s, rest) := by
  rw [quote_append, readValue, if_pos rfl, readString_quote]
  rfl

/-- What begins as a number is read as one. -/
theorem readValue_number (negative : Bool) {whole : Text} (h : IsWhole whole) :
    readValue (fuel + 1) levels (Layout.signText negative ++ (whole ++ s)) =
      readNumber negative (whole ++ s) := by
  obtain ⟨d, ds, rfl, hd⟩ := h.exists_cons
  have hne : ∀ c ∈ ['\x22', '\x7b', '['], d ≠ c := by
    have hall : ∀ c ∈ ['\x22', '\x7b', '['], c.isDigit = false :=
      List.all_iff_forall_prop.1 (by decide)
    exact fun c hc => ne_of_isDigit hd (hall c hc)
  rw [List.cons_append, ← readScalar_number negative hd]
  cases negative with
  | true => rfl
  | false => simp [Layout.signText, readValue, hne]

end Steps

/-! ## Values

The induction is on how a compact text is put together.  For a list the items are gone through with
the steps from above, and the fuel that is left after an item is enough for the others because the
item and its comma are no longer there. -/

/-- `s` is read as `v`, whatever follows that can end a value. -/
structure ReadsBack (levels : Nat) (s : Text) (v : Value) : Prop where
  starts : Starts s
  read : ∀ fuel rest, Ends rest → 2 * s.length ≤ fuel →
    readValue fuel levels (s ++ rest) = .ok (v, rest)

variable {levels : Nat}

/-- There is fuel for a text that is not empty. -/
theorem ReadsBack.of_succ {s : Text} {v : Value} (hs : Starts s)
    (h : ∀ fuel rest, Ends rest → 2 * s.length ≤ fuel + 1 →
      readValue (fuel + 1) levels (s ++ rest) = .ok (v, rest)) : ReadsBack levels s v := by
  refine ⟨hs, fun fuel rest hrest hfuel => ?_⟩
  have hpos := hs.length_pos
  obtain ⟨fuel, rfl⟩ : ∃ k, fuel = k + 1 := ⟨fuel - 1, by omega⟩
  exact h fuel rest hrest hfuel

theorem starts_join {α : Type} {xs : List α} {f : α → Text} (hne : xs ≠ [])
    (h : ∀ x ∈ xs, Starts (f x)) : Starts (join (xs.map f)) := by
  obtain ⟨x, xs, rfl⟩ := List.exists_cons_of_ne_nil hne
  have hx := h x List.mem_cons_self
  rw [List.map_cons]
  by_cases hxs : xs.map f = []
  · rwa [hxs, join_singleton]
  · rw [join_cons _ hxs]
    exact hx.append _

theorem ends_cons {c : Char} (h : c ∈ [',', ']', '\x7d']) (rest : Text) : Ends (c :: rest) := by
  rintro _ ⟨⟩
  exact h

/-- The elements of an array are read one after the other. -/
theorem readElements_join {items : List (Text × Value)} (hne : items ≠ [])
    (h : ∀ i ∈ items, ReadsBack levels i.1 i.2) (rest : Text) {fuel : Nat}
    (hfuel : 2 * (join (items.map (·.1))).length + 1 ≤ fuel) :
    readElements fuel levels (join (items.map (·.1)) ++ ']' :: rest) =
      .ok (items.map (·.2), rest) := by
  induction items generalizing fuel with
  | nil => exact absurd rfl hne
  | cons i items ih =>
    obtain ⟨fuel, rfl⟩ : ∃ k, fuel = k + 1 := ⟨fuel - 1, by omega⟩
    have hi := h i List.mem_cons_self
    have hitems : ∀ j ∈ items, ReadsBack levels j.1 j.2 :=
      fun j hj => h j (List.mem_cons_of_mem i hj)
    by_cases hlast : items = []
    · subst hlast
      rw [List.map_singleton, join_singleton] at hfuel ⊢
      exact readElements_last (hi.read fuel _ (ends_cons (by decide) rest) (by omega))
    · have hmap : items.map (·.1) ≠ [] := by simpa using hlast
      rw [List.map_cons, join_cons _ hmap, List.length_append, List.length_cons] at hfuel
      rw [List.map_cons, join_cons _ hmap, List.append_assoc, List.cons_append]
      have hstarts : Starts (join (items.map (·.1))) :=
        starts_join hlast fun j hj => (hitems j hj).starts
      exact readElements_comma (hi.read fuel _ (ends_cons (by decide) _) (by omega))
        (hstarts.append _) (ih hlast hitems (by omega))

/-- The members of an object are read one after the other. -/
theorem readMembers_join {members : List (Text × Text × Value)} (hne : members ≠ [])
    (h : ∀ m ∈ members, ReadsBack levels m.2.1 m.2.2) (rest : Text) {fuel : Nat}
    (hfuel : 2 * (join (members.map fun m => member m.1 m.2.1)).length + 1 ≤ fuel) :
    readMembers fuel levels (join (members.map fun m => member m.1 m.2.1) ++ '\x7d' :: rest) =
      .ok (members.map fun m => (m.1, m.2.2), rest) := by
  induction members generalizing fuel with
  | nil => exact absurd rfl hne
  | cons m members ih =>
    obtain ⟨fuel, rfl⟩ : ∃ k, fuel = k + 1 := ⟨fuel - 1, by omega⟩
    have hm := h m List.mem_cons_self
    have hmembers : ∀ l ∈ members, ReadsBack levels l.2.1 l.2.2 :=
      fun l hl => h l (List.mem_cons_of_mem m hl)
    have hlen : (member m.1 m.2.1).length = (quote m.1).length + (m.2.1.length + 1) := by
      rw [member, List.length_append, List.length_cons]
    by_cases hlast : members = []
    · subst hlast
      rw [List.map_singleton, join_singleton, hlen] at hfuel
      rw [List.map_singleton, join_singleton, member, List.append_assoc, List.cons_append]
      exact readMembers_last (hm.starts.append _)
        (hm.read fuel _ (ends_cons (by decide) rest) (by omega))
    · have hmap : (members.map fun m => member m.1 m.2.1) ≠ [] := by simpa using hlast
      rw [List.map_cons, join_cons _ hmap, List.length_append, List.length_cons, hlen] at hfuel
      rw [List.map_cons, join_cons _ hmap, List.append_assoc, List.cons_append, member,
        List.append_assoc, List.cons_append]
      have hstarts : Starts (join (members.map fun m => member m.1 m.2.1)) :=
        starts_join hlast fun l _ => (starts_quote l.1).append _
      exact readMembers_comma (hm.starts.append _)
        (hm.read fuel _ (ends_cons (by decide) _) (by omega))
        (hstarts.append _) (ih hlast hmembers (by omega))

/-- **What is compact is read as the value it stands for**, whatever follows. -/
theorem Compact.readsBack {s : Text} {v : Value} (h : Compact levels s v) :
    ReadsBack levels s v := by
  -- by induction on the relation that writer and reader share, one case for each form of a text
  induction h with
  | null => exact .of_succ ⟨_, _, rfl, by decide⟩ fun fuel rest _ _ => rfl
  | truth b => cases b <;> exact .of_succ ⟨_, _, rfl, by decide⟩ fun fuel rest _ _ => rfl
  | @integer _ n hn =>
    have hw := isWhole_decimal n.natAbs
    rw [signedDecimal_eq, ← List.append_nil (Numeral.decimal n.natAbs)]
    refine .of_succ (starts_number _ hw []) fun fuel rest hrest _ => ?_
    rw [List.append_nil, List.append_assoc, readValue_number _ hw,
      readNumber_decimal _ hn hrest, Numeral.signed_natAbs]
  | double negative hw hf he hne =>
    rw [List.append_assoc]
    refine .of_succ (starts_number _ hw _) fun fuel rest hrest _ => ?_
    rw [List.append_assoc, List.append_assoc, readValue_number _ hw, ← List.append_assoc,
      ← List.append_assoc, readNumber_double negative hw hf he hne hrest]
  | text s => exact .of_succ (starts_quote s) fun fuel rest _ _ => readValue_string
  | array items _ ih =>
    refine .of_succ ⟨_, _, rfl, by decide⟩ fun fuel rest _ hfuel => ?_
    -- the fuel that is left after the bracket is enough for the items
    rw [Json.array, List.length_cons, List.length_append] at hfuel
    rw [Json.array, List.cons_append, List.append_assoc]
    -- an empty array is recognised by its closing bracket, and only then
    by_cases hne : items = []
    · subst hne
      rfl
    · have hstarts : Starts (join (items.map (·.1))) :=
        starts_join hne fun i hi => (ih i hi).starts
      exact readValue_array (hstarts.append _) (readElements_join hne ih rest (by omega))
  | object members _ ih =>
    refine .of_succ ⟨_, _, rfl, by decide⟩ fun fuel rest _ hfuel => ?_
    rw [Json.object, List.length_cons, List.length_append] at hfuel
    rw [Json.object, List.cons_append, List.append_assoc]
    by_cases hne : members = []
    · subst hne
      rfl
    · have hstarts : Starts (join (members.map fun m => member m.1 m.2.1)) :=
        starts_join hne fun m _ => (starts_quote m.1).append _
      exact readValue_object (hstarts.append _) (readMembers_join hne ih rest (by omega))

/-- What is not too deep for a number of levels is not too deep for more of them. -/
theorem Compact.mono {s : Text} {v : Value} (h : Compact levels s v) {n : Nat} (hn : levels ≤ n) :
    Compact n s v := by
  induction h generalizing n with
  | null => exact .null
  | truth b => exact .truth b
  | integer h => exact .integer h
  | double negative hw hf he hne => exact .double negative hw hf he hne
  | text s => exact .text s
  | array items _ ih =>
    obtain ⟨n, rfl⟩ : ∃ k, n = k + 1 := ⟨n - 1, by omega⟩
    exact .array items fun i hi => ih i hi (Nat.le_of_succ_le_succ hn)
  | object members _ ih =>
    obtain ⟨n, rfl⟩ : ∃ k, n = k + 1 := ⟨n - 1, by omega⟩
    exact .object members fun m hm => ih m hm (Nat.le_of_succ_le_succ hn)

/-- **What is compact is read as the value it stands for**, if it is no deeper than what can be
written. -/
theorem Compact.read_eq_ok [Nesting] {s : Text} {v : Value} (h : Compact limit s v) :
    read s = .ok v := by
  have hb := (h.mono limit_le_readLimit).readsBack
  have hread := hb.read (2 * s.length + 2) [] nofun (by omega)
  rw [List.append_nil] at hread
  have hmark : s.head? ≠ some '\uFEFF' := by
    obtain ⟨c, t, rfl, hc⟩ := hb.starts
    rintro ⟨⟩
    exact absurd hc (by decide)
  rw [read, if_neg hmark, hb.starts.skipBlanks, hread]
  rfl

end Json
end Stencil
