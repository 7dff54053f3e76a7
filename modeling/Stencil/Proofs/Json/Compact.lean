import Stencil.Json.Writer
import Stencil.Proofs.Json.Number

/-!
# JSON without white space

`Json.Compact n s v` says that the text `s` is put together from the tokens of one JSON value
without white space between them, that it stands for the value `v`, and that its arrays and objects
are no more than `n` levels deep.  It is what writing and reading have in common: all that is
written is compact, and what is compact is read back.

This module has what follows from the text alone.  A compact text is JSON (`Compact.isText`), and
outside of its strings there are only the characters of tokens (`Compact.clear`): neither white
space nor the name of a number that is not finite.
-/

set_option autoImplicit false

namespace Stencil
namespace Json

/-- `s` is JSON without white space for the value `v`, with no more than so many levels.  A number
with a fraction or an exponent stands for the double that is read from it. -/
inductive Compact : (levels : Nat) → Text → Value → Prop where
  | null {n : Nat} : Compact n nullText .null
  | truth {n : Nat} (b : Bool) : Compact n (boolText b) (.bool b)
  | integer {n : Nat} {k : Int} (h : Numeral.decimalLength k.natAbs ≤ Numeral.digitLimit) :
      Compact n (Numeral.signedDecimal k) (.int k)
  | double {n : Nat} (negative : Bool) {whole fraction exponent : Text} (hw : IsWhole whole)
      (hf : IsFraction fraction) (he : IsExponent exponent)
      (hne : fraction ≠ [] ∨ exponent ≠ []) :
      Compact n (Layout.signText negative ++ (whole ++ fraction ++ exponent))
        (.float ((Binary64.readUnsigned? negative (whole ++ fraction ++ exponent)).getD .nan))
  | text {n : Nat} (s : Text) : Compact n (quote s) (.text s)
  | array {n : Nat} (items : List (Text × Value)) (h : ∀ i ∈ items, Compact n i.1 i.2) :
      Compact (n + 1) (array (items.map (·.1))) (.list (items.map (·.2)))
  | object {n : Nat} (members : List (Text × Text × Value))
      (h : ∀ m ∈ members, Compact n m.2.1 m.2.2) :
      Compact (n + 1) (object (members.map fun m => member m.1 m.2.1))
        (ofMembers (members.map fun m => (m.1, m.2.2)))

section

variable {α : Type} {n : Nat} (xs : List α) (name : α → Text) {text : α → Text}
  {value : α → Value} (h : ∀ x ∈ xs, Compact n (text x) (value x))

include h

theorem Compact.array_map : Compact (n + 1) (Json.array (xs.map text)) (.list (xs.map value)) := by
  have harray := Compact.array (xs.map fun x => (text x, value x)) fun i hi => by
    obtain ⟨x, hx, rfl⟩ := List.mem_map.1 hi
    exact h x hx
  rwa [List.map_map, List.map_map] at harray

theorem Compact.object_map :
    Compact (n + 1) (Json.object (xs.map fun x => member (name x) (text x)))
      (ofMembers (xs.map fun x => (name x, value x))) := by
  have hobject := Compact.object (xs.map fun x => (name x, text x, value x)) fun m hm => by
    obtain ⟨x, hx, rfl⟩ := List.mem_map.1 hm
    exact h x hx
  rwa [List.map_map, List.map_map] at hobject

end

/-! ## Its parts

The tokens that are written are tokens of the grammar: texts with the characters escaped that need
it, integers with an optional sign, and the constants. -/

@[simp] theorem join_singleton (s : Text) : join [s] = s := by simp [join]

/-- A comma stands between an item and the others. -/
theorem join_cons (s : Text) {ss : List Text} (h : ss ≠ []) :
    join (s :: ss) = s ++ ',' :: join ss := by
  obtain ⟨t, ss, rfl⟩ := List.exists_cons_of_ne_nil h
  simp [join]

theorem signedDecimal_eq (n : Int) :
    Numeral.signedDecimal n = Layout.signText (n < 0) ++ Numeral.decimal n.natAbs := by
  rw [Numeral.signedDecimal, Layout.signText]
  by_cases h : n < 0 <;> simp [h]

/-- A control character is escaped by four hexadecimal digits. -/
theorem exists_hex {n : Nat} (h : n < 0x20) :
    ∃ a b c d, Quoted.hex 4 n = [a, b, c, d] ∧ (∀ x ∈ [a, b, c, d], IsHex x) ∧
      code? a b c d = some n := by
  have hall : ∀ n < 0x20, (Quoted.hex 4 n).all "0123456789abcdefABCDEF".toList.contains := by
    decide
  have hcode : ∀ n < 0x20,
      ((Quoted.hex 4 n).mapM (Numeral.baseDigit? 16)).map (Numeral.value 16) = some n := by decide
  have hlen := Quoted.length_hex 4 n
  match hs : Quoted.hex 4 n, hlen with
  | [a, b, c, d], _ =>
    refine ⟨a, b, c, d, rfl, fun x hx => ?_, by rw [code?, ← hs, hcode n h]⟩
    exact List.contains_iff_mem.1 (List.all_eq_true.1 (hall n h) x (hs ▸ hx))

/-- A character is written as itself, with a backslash, or by its code. -/
theorem isStringChar_escape (c : Char) : IsStringChar (escape c) := by
  rw [escape]
  split_ifs with hquote hn hr ht hf hb hcontrol
  · exact .letter (by rcases hquote with rfl | rfl <;> simp)
  · exact .letter (by simp)
  · exact .letter (by simp)
  · exact .letter (by simp)
  · exact .letter (by simp)
  · exact .letter (by simp)
  · obtain ⟨x, y, z, w, hs, hhex, -⟩ := exists_hex hcontrol
    rw [hs]
    exact .code (hhex x (by simp)) (hhex y (by simp)) (hhex z (by simp)) (hhex w (by simp))
  · exact .plain (by omega) (fun hc => hquote (.inl hc)) fun hc => hquote (.inr hc)

theorem isString_quote (s : Text) : IsString (quote s) := by
  rw [quote, List.flatMap_def]
  refine .quoted fun t ht => ?_
  obtain ⟨c, -, rfl⟩ := List.mem_map.1 ht
  exact isStringChar_escape c

/-- A sign or none, as numbers are written. -/
theorem mem_signs (negative : Bool) : Layout.signText negative ∈ [[], ['-']] := by
  cases negative <;> simp [Layout.signText]

theorem isNumber_signedDecimal (n : Int) : IsNumber (Numeral.signedDecimal n) := by
  have hn := IsNumber.parts (mem_signs (n < 0)) (isWhole_decimal n.natAbs) .absent .absent
  rwa [List.append_nil, List.append_nil, ← signedDecimal_eq] at hn

/-- **What is compact is JSON.** -/
theorem Compact.isText {n : Nat} {s : Text} {v : Value} (h : Compact n s v) : IsText s := by
  induction h with
  | null => exact .null
  | truth b =>
    cases b with
    | true => exact .yes
    | false => exact .no
  | @integer _ n _ => exact .number (isNumber_signedDecimal n)
  | double negative hw hf he => exact .number (.parts (mem_signs negative) hw hf he)
  | text s => exact .string (isString_quote s)
  | array items h ih =>
    -- the grammar has productions of their own for what is empty
    by_cases hne : items = []
    · subst hne
      exact .emptyArray (g := []) nofun
    · refine .array _ (by simpa using hne) fun s hs => ?_
      obtain ⟨i, hi, rfl⟩ := List.mem_map.1 hs
      exact ih i hi
  | object members h ih =>
    by_cases hne : members = []
    · subst hne
      exact .emptyObject (g := []) nofun
    · have hobject := IsText.object (members.map fun m => (quote m.1, m.2.1))
        (by simpa using hne) (fun p hp => ?_) fun p hp => ?_
      · rw [List.map_map] at hobject
        exact hobject
      · obtain ⟨m, -, rfl⟩ := List.mem_map.1 hp
        have hname := IsName.padded (a := []) (b := []) nofun (isString_quote m.1) nofun
        rwa [List.nil_append, List.append_nil] at hname
      · obtain ⟨m, hm, rfl⟩ := List.mem_map.1 hp
        exact ih m hm

/-! ## Outside of its strings

A text is gone through once, with a flag for being inside of a string.  What is put together from
texts that end outside can be gone through one by one (`Clear.append`), and a string is entered and
left as a whole (`clear_of_isString`). -/

/-- The characters of all tokens but strings. -/
def isTokenChar (c : Char) : Bool :=
  c.isDigit || ['-', '+', '.', 'e', 'E', ',', ':', '[', ']', '\x7b', '\x7d',
    'n', 'u', 'l', 't', 'r', 'f', 'a', 's'].contains c

/-- Outside of its strings, `s` has characters of tokens only, and it ends outside of a string. -/
def Clear (s : Text) : Prop :=
  ∃ t, (∀ c ∈ t, isTokenChar c) ∧
    ∀ rest, outsideFrom false (s ++ rest) = t ++ outsideFrom false rest

theorem Clear.append {s t : Text} (hs : Clear s) (ht : Clear t) : Clear (s ++ t) := by
  obtain ⟨s', hs', hs⟩ := hs
  obtain ⟨t', ht', ht⟩ := ht
  refine ⟨s' ++ t', List.forall_mem_append.2 ⟨hs', ht'⟩, fun rest => ?_⟩
  rw [List.append_assoc, hs, ht, List.append_assoc]

theorem clear_of_forall {s : Text} (h : ∀ c ∈ s, isTokenChar c) : Clear s := by
  refine ⟨s, h, fun rest => ?_⟩
  induction s with
  | nil => rfl
  | cons c s ih =>
    have hc : c ≠ '\x22' := by
      rintro rfl
      exact absurd (h '\x22' List.mem_cons_self) (by decide)
    rw [List.cons_append, outsideFrom, if_neg hc, ih fun d hd => h d (List.mem_cons_of_mem c hd),
      List.cons_append]

theorem clear_of_all {s : Text} (h : s.all isTokenChar) : Clear s :=
  clear_of_forall (List.all_eq_true.1 h)

theorem outsideFrom_append {s : Text} (h : ∀ c ∈ s, c ≠ '\x22' ∧ c ≠ '\\') (t : Text) :
    outsideFrom true (s ++ t) = outsideFrom true t := by
  induction s with
  | nil => rfl
  | cons c s ih =>
    have hc := h c List.mem_cons_self
    rw [List.cons_append, outsideFrom, decide_eq_true hc.1]
    · exact ih fun d hd => h d (List.mem_cons_of_mem c hd)
    · rintro _ _ rfl
      exact absurd rfl hc.2

/-- A character of a string leaves the inside as it is. -/
theorem outsideFrom_of_isStringChar {s : Text} (h : IsStringChar s) (t : Text) :
    outsideFrom true (s ++ t) = outsideFrom true t := by
  cases h with
  | plain h hq hb => exact outsideFrom_append (by simp [hq, hb]) t
  | letter h => rfl
  | code ha hb hc hd =>
    have hall : ∀ c ∈ "0123456789abcdefABCDEF".toList, c ≠ '\x22' ∧ c ≠ '\\' :=
      List.all_iff_forall_prop.1 (by decide)
    refine outsideFrom_append (s := [_, _, _, _]) ?_ t
    simp only [List.forall_mem_cons, List.not_mem_nil, false_implies, implies_true, and_true]
    exact ⟨hall _ ha, hall _ hb, hall _ hc, hall _ hd⟩

/-- Nothing of a string is outside, and it ends at its last quote. -/
theorem clear_of_isString {s : Text} (h : IsString s) : Clear s := by
  obtain ⟨h⟩ := h
  refine ⟨[], nofun, fun rest => ?_⟩
  rename_i chars
  induction chars with
  | nil => rfl
  | cons s chars ih =>
    have hs := h s List.mem_cons_self
    have ih := ih fun t ht => h t (List.mem_cons_of_mem s ht)
    simp only [List.cons_append, List.append_assoc, List.flatten_cons, outsideFrom, if_true,
      outsideFrom_of_isStringChar hs] at ih ⊢
    exact ih

theorem clear_join {ss : List Text} (h : ∀ s ∈ ss, Clear s) : Clear (join ss) := by
  induction ss with
  | nil => exact clear_of_all rfl
  | cons s ss ih =>
    have hs := h s List.mem_cons_self
    by_cases hne : ss = []
    · rw [hne, join_singleton]
      exact hs
    · rw [join_cons s hne, ← List.singleton_append (x := ',')]
      exact hs.append ((clear_of_all (by decide)).append
        (ih fun t ht => h t (List.mem_cons_of_mem s ht)))

theorem isTokenChar_of_isDigit {c : Char} (h : c.isDigit) : isTokenChar c := by
  simp [isTokenChar, h]

/-- The characters of numbers are digits, signs, the point and the letter of an exponent. -/
theorem IsNumber.clear {s : Text} (h : IsNumber s) : Clear s := by
  obtain ⟨hs, hw, hf, he⟩ := h
  have hdigits {ds : Text} (h : IsDigits ds) : Clear ds :=
    clear_of_forall fun c hc => isTokenChar_of_isDigit (h.2 c hc)
  refine Clear.append ?_ (Clear.append (Clear.append ?_ ?_) ?_)
  · simp only [List.mem_cons, List.not_mem_nil, or_false] at hs
    rcases hs with rfl | rfl <;> exact clear_of_all (by decide)
  · cases hw with
    | zero => exact clear_of_all (by decide)
    | digits h => exact hdigits h
  · cases hf with
    | absent => exact clear_of_all rfl
    | present h => exact Clear.append (s := ['.']) (clear_of_all (by decide)) (hdigits h)
  · cases he with
    | absent => exact clear_of_all rfl
    | @present e sign ds he hs h =>
      have hlead : Clear (e :: sign) := by
        simp only [List.mem_cons, List.not_mem_nil, or_false] at he hs
        rcases he with rfl | rfl <;> rcases hs with rfl | rfl | rfl <;>
          exact clear_of_all (by decide)
      exact hlead.append (hdigits h)

theorem Clear.enclosed {a s b : Text} (ha : a.all isTokenChar) (hs : Clear s)
    (hb : b.all isTokenChar) : Clear (a ++ (s ++ b)) :=
  (clear_of_all ha).append (hs.append (clear_of_all hb))

/-- **Outside of strings, what is compact has characters of tokens only.** -/
theorem Compact.clear {n : Nat} {s : Text} {v : Value} (h : Compact n s v) : Clear s := by
  induction h with
  | null => exact clear_of_all (by decide)
  | truth b => cases b <;> exact clear_of_all (by decide)
  | @integer _ n _ => exact (isNumber_signedDecimal n).clear
  | double negative hw hf he => exact (IsNumber.parts (mem_signs negative) hw hf he).clear
  | text s => exact clear_of_isString (isString_quote s)
  | array items h ih =>
    refine Clear.enclosed (a := ['[']) (by decide) (clear_join fun s hs => ?_) (by decide)
    obtain ⟨i, hi, rfl⟩ := List.mem_map.1 hs
    exact ih i hi
  | object members h ih =>
    refine Clear.enclosed (a := ['\x7b']) (by decide) (clear_join fun s hs => ?_) (by decide)
    obtain ⟨m, hm, rfl⟩ := List.mem_map.1 hs
    exact (clear_of_isString (isString_quote m.1)).append
      (Clear.append (s := [':']) (clear_of_all (by decide)) (ih m hm))

theorem Clear.forall_mem_outside {s : Text} (h : Clear s) : ∀ c ∈ outside s, isTokenChar c := by
  obtain ⟨t, ht, hs⟩ := h
  have hs := hs []
  rw [List.append_nil, outsideFrom, List.append_nil] at hs
  rw [outside, hs]
  exact ht

end Json
end Stencil
