import Stencil.Proofs.Directive.Canonical
import Stencil.Proofs.Text.Colour

/-!
# What is left when colour codes are removed

Colour codes are removed in one pass, and what stood before a code and after it is joined.  A text
without colour codes stays as it is (`Colour.strip_eq_self_iff`), but parts that are joined may make
up a new code.  This happens exactly where a code is broken up by others that stand between its
characters (`Colour.hasCode_strip_iff`).  A second pass then changes the text again.

A code has one escape character and begins with it.  So a code never goes on past an escape
character or a line break, and what is removed before it does not depend on what comes after
(`Colour.strip_append`).
-/

set_option autoImplicit false

namespace Stencil
namespace Colour

/-! ## Codes

The final character of a code is not a parameter, and no character of it but the first is an escape
character.  This makes it the sequence that is removed at once, and sets it apart from other codes.
-/

/-- A colour code: an escape character, a bracket, parameters and an `m`. -/
inductive IsCode : Text → Prop where
  | intro {ps : Text} (h : ∀ p ∈ ps, isParameter p) : IsCode (escape :: '[' :: (ps ++ ['m']))

/-- A colour code stands somewhere in a text. -/
def HasCode (s : Text) : Prop := ∃ code, IsCode code ∧ code <:+: s

/-- A character of a colour code after the first. -/
def IsInner (c : Char) : Prop := c = '[' ∨ isParameter c ∨ c = 'm'

theorem IsInner.ne_escape {c : Char} (h : IsInner c) : c ≠ escape := by
  rintro rfl
  exact absurd h (by simp [IsInner, isParameter, escape])

theorem not_isInner_newline : ¬ IsInner '\n' := by simp [IsInner, isParameter]

theorem IsCode.eq_cons {code : Text} (h : IsCode code) :
    ∃ w, code = escape :: w ∧ ∀ c ∈ w, IsInner c := by
  obtain ⟨hps⟩ := h
  refine ⟨_, rfl, fun c hc => ?_⟩
  simp only [List.mem_cons, List.mem_append, List.not_mem_nil, or_false] at hc
  exact hc.imp_right (.imp_left (hps c))

variable {s t w code : Text}

/-- A colour code is a sequence of digits and semicolons with an `m` at its end. -/
theorem isSequence_iff_isCode : IsSequence isParameter (· = 'm') code ↔ IsCode code := by
  constructor
  · rintro ⟨hps, -, hm⟩
    obtain rfl := of_decide_eq_true hm
    exact .intro hps
  · rintro ⟨hps⟩
    exact .intro hps (by decide) (by decide)

/-- What is removed at once is a colour code. -/
theorem sequence?_eq_some_iff_isCode {rest : Text} :
    sequence? isParameter (· = 'm') s = some rest ↔ ∃ code, IsCode code ∧ s = code ++ rest := by
  simp only [sequence?_eq_some_iff_isSequence, isSequence_iff_isCode]

theorem sequence?_eq_none_iff_isCode :
    sequence? isParameter (· = 'm') s = none ↔ ∀ code, IsCode code → ¬ code <+: s := by
  simp only [sequence?_eq_none_iff, isSequence_iff_isCode]

/-- No colour code begins another one. -/
theorem IsCode.eq_of_prefix {code' : Text} (h : IsCode code) (h' : IsCode code')
    (hp : code' <+: code) : code' = code := by
  obtain ⟨rest, rfl⟩ := hp
  have hall := sequence?_eq_some_iff_isCode.2 ⟨_, h, (List.append_nil _).symm⟩
  rw [sequence?_eq_some_iff_isCode.2 ⟨code', h', rfl⟩] at hall
  rw [Option.some.inj hall, List.append_nil]

/-! ## Removing codes, part by part

A text is gone through code by code and character by character.  Where it can be cut without cutting
through a code, its two parts can be stripped by themselves. -/

@[simp] theorem strip_nil : strip [] = [] := by
  unfold strip
  rw [removeWhere.eq_def]
  rfl

/-- A code in front is removed. -/
theorem strip_code_append (h : IsCode code) (s : Text) : strip (code ++ s) = strip s :=
  removeWhere_of_eq_some (sequence?_eq_some_iff_isCode.2 ⟨code, h, rfl⟩)

theorem strip_codes_append {codes : List Text} (h : ∀ code ∈ codes, IsCode code) (s : Text) :
    strip (codes.flatten ++ s) = strip s := by
  induction codes with
  | nil => rfl
  | cons code codes ih =>
    rw [List.flatten_cons, List.append_assoc, strip_code_append (h code List.mem_cons_self),
      ih fun c hc => h c (List.mem_cons_of_mem code hc)]

/-- A character at which no colour code begins is kept. -/
theorem strip_cons {c : Char} (h : ∀ code, IsCode code → ¬ code <+: c :: s) :
    strip (c :: s) = c :: strip s :=
  removeWhere_of_eq_none (sequence?_eq_none_iff_isCode.2 h)

theorem strip_cons_of_ne {c : Char} (hc : c ≠ escape) (s : Text) :
    strip (c :: s) = c :: strip s := by
  refine strip_cons fun code hcode hp => hc ?_
  obtain ⟨w, rfl, -⟩ := hcode.eq_cons
  exact (List.cons_prefix_cons.1 hp).1.symm

/-- **Codes are removed on their own on both sides of a character that is not inside of any.** -/
theorem strip_append {c : Char} (hc : ¬ IsInner c) (s t : Text) :
    strip (s ++ c :: t) = strip s ++ strip (c :: t) := by
  unfold strip
  fun_induction removeWhere isParameter (fun x => decide (x = 'm')) s with
  | case1 s rest hs ih =>
    obtain ⟨code, hcode, rfl⟩ := sequence?_eq_some_iff_isCode.1 hs
    rw [List.append_assoc, ← ih]
    exact strip_code_append hcode _
  | case2 => rfl
  | case3 a s hs ih =>
    rw [List.cons_append, List.cons_append, ← ih]
    refine strip_cons fun code hcode hp => ?_
    obtain ⟨w, rfl, hw⟩ := hcode.eq_cons
    obtain ⟨rfl, hws⟩ := List.cons_prefix_cons.1 hp
    have hws : w <+: s := Text.prefix_of_not_mem hws fun hm => hc (hw c hm)
    exact sequence?_eq_none_iff_isCode.1 hs _ hcode (List.cons_prefix_cons.2 ⟨rfl, hws⟩)

theorem strip_sublist (s : Text) : (strip s).Sublist s := removeWhere_sublist s

/-- **A text is left as it is exactly if no colour code stands in it.** -/
theorem strip_eq_self_iff : strip s = s ↔ ¬ HasCode s := by
  rw [strip, removeWhere_eq_self_iff]
  simp only [isSequence_iff_isCode, HasCode, not_exists, not_and]

/-! ## Codes that are broken up

What is left of a text is threaded through it, with codes in front of some of its characters.  So a
code that is left was threaded through the text, and was not one there: otherwise it would have been
removed. -/

/-- `t` is the text `w` with colour codes in front of some of its characters. -/
inductive Threaded : Text → Text → Prop where
  | nil : Threaded [] []
  | cons {w t : Text} (c : Char) {codes : List Text} (hc : ∀ code ∈ codes, IsCode code)
      (ht : Threaded w t) : Threaded (c :: w) (codes.flatten ++ c :: t)

/-- A colour code stands somewhere in a text with other colour codes between its characters. -/
def HasBrokenCode (s : Text) : Prop :=
  ∃ before w t after, s = before ++ escape :: (t ++ after) ∧ IsCode (escape :: w) ∧
    Threaded w t ∧ t ≠ w

theorem Threaded.cons_self (c : Char) (h : Threaded w t) : Threaded (c :: w) (c :: t) :=
  @Threaded.cons w t c [] (List.forall_mem_nil _) h

theorem Threaded.strip_append (h : Threaded w t) (hw : ∀ c ∈ w, IsInner c) (after : Text) :
    strip (t ++ after) = w ++ strip after := by
  induction h with
  | nil => rfl
  | cons c hc ht ih =>
    rw [List.append_assoc, strip_codes_append hc, List.cons_append,
      strip_cons_of_ne (hw c List.mem_cons_self).ne_escape,
      ih fun d hd => hw d (List.mem_cons_of_mem c hd), List.cons_append]

/-- A word is broken up by an escape character before its end. -/
theorem Threaded.exists_escape (h : Threaded w t) (hne : t ≠ w) :
    ∃ front back rest, w = front ++ back ∧ back ≠ [] ∧ t = front ++ escape :: rest := by
  induction h with
  | nil => exact absurd rfl hne
  | @cons w t c codes hc ht ih =>
    cases codes with
    | nil =>
      obtain ⟨front, back, rest, rfl, hback, rfl⟩ := ih fun h => hne (congrArg (List.cons c) h)
      exact ⟨c :: front, back, rest, rfl, hback, rfl⟩
    | cons code codes =>
      obtain ⟨v, rfl, -⟩ := (hc code List.mem_cons_self).eq_cons
      exact ⟨[], c :: w, v ++ (codes.flatten ++ c :: t), rfl, List.cons_ne_nil c w, by simp⟩

/-- Where a code is broken up, none begins. -/
theorem not_prefix_of_threaded (hcode : IsCode (escape :: w)) (h : Threaded w t) (hne : t ≠ w)
    (after : Text) : ∀ code, IsCode code → ¬ code <+: escape :: (t ++ after) := by
  intro code hcode' hp
  obtain ⟨front, back, rest, rfl, hback, rfl⟩ := h.exists_escape hne
  obtain ⟨v, rfl, hv⟩ := hcode'.eq_cons
  obtain ⟨-, hp⟩ := List.cons_prefix_cons.1 hp
  rw [List.append_assoc, List.cons_append] at hp
  have hfront : v <+: front := Text.prefix_of_not_mem hp fun hm => (hv escape hm).ne_escape rfl
  have hv' : escape :: v = escape :: (front ++ back) := hcode.eq_of_prefix hcode'
    (List.cons_prefix_cons.2 ⟨rfl, hfront.trans (List.prefix_append front back)⟩)
  have hlength := congrArg List.length hv'
  simp only [List.length_cons, List.length_append] at hlength
  have := hfront.length_le
  exact hback (List.length_eq_zero_iff.1 (by omega))

/-- What is kept, from one of its characters on. -/
theorem exists_of_strip_eq {x y : Text} {c : Char} (h : strip s = x ++ c :: y) :
    ∃ before after, s = before ++ c :: after ∧ strip after = y ∧
      (∀ code, IsCode code → ¬ code <+: c :: after) ∧
      (x = [] → ∃ codes : List Text, (∀ code ∈ codes, IsCode code) ∧ before = codes.flatten) := by
  unfold strip at h
  fun_induction removeWhere isParameter (fun x => decide (x = 'm')) s generalizing x with
  | case1 s rest hs ih =>
    obtain ⟨code, hcode, rfl⟩ := sequence?_eq_some_iff_isCode.1 hs
    obtain ⟨before, after, rfl, hafter, hno, hx⟩ := ih h
    refine ⟨code ++ before, after, by simp, hafter, hno, fun hnil => ?_⟩
    obtain ⟨codes, hcodes, rfl⟩ := hx hnil
    exact ⟨code :: codes, List.forall_mem_cons.2 ⟨hcode, hcodes⟩, rfl⟩
  | case2 => cases x <;> cases h
  | case3 a s hs ih =>
    cases x with
    | nil =>
      cases h
      exact ⟨[], s, rfl, rfl, sequence?_eq_none_iff_isCode.1 hs,
        fun _ => ⟨[], List.forall_mem_nil _, rfl⟩⟩
    | cons b x =>
      obtain ⟨rfl, hx⟩ := List.cons.inj h
      obtain ⟨before, after, rfl, hafter, hno, -⟩ := ih hx
      exact ⟨a :: before, after, rfl, hafter, hno, fun hnil => absurd hnil (List.cons_ne_nil a x)⟩

/-- What is kept stood in the text with codes in front of its characters. -/
theorem exists_threaded_of_strip_eq {y : Text} (h : strip s = w ++ y) :
    ∃ t after, s = t ++ after ∧ Threaded w t ∧ strip after = y := by
  induction w generalizing s with
  | nil => exact ⟨[], s, rfl, .nil, h⟩
  | cons c w ih =>
    obtain ⟨before, u, rfl, hu, -, hbefore⟩ := exists_of_strip_eq (x := []) h
    obtain ⟨codes, hcodes, rfl⟩ := hbefore rfl
    obtain ⟨t, after, rfl, ht, hafter⟩ := ih hu
    exact ⟨_, after, by simp, .cons c hcodes ht, hafter⟩

/-- **A colour code is left exactly where one was broken up by others.** -/
theorem hasCode_strip_iff : HasCode (strip s) ↔ HasBrokenCode s := by
  constructor
  · rintro ⟨code, hcode, x, y, h⟩
    obtain ⟨w, rfl, -⟩ := id hcode.eq_cons
    rw [List.append_assoc, List.cons_append] at h
    obtain ⟨before, u, rfl, hu, hno, -⟩ := exists_of_strip_eq h.symm
    obtain ⟨t, after, rfl, ht, -⟩ := exists_threaded_of_strip_eq hu
    refine ⟨before, w, t, after, rfl, hcode, ht, ?_⟩
    rintro rfl
    exact hno _ hcode (List.prefix_append (escape :: t) after)
  · rintro ⟨before, w, t, after, rfl, hcode, ht, hne⟩
    obtain ⟨v, hv, hinner⟩ := hcode.eq_cons
    cases hv
    refine ⟨escape :: w, hcode, strip before, strip after, ?_⟩
    rw [strip_append (fun h => h.ne_escape rfl),
      strip_cons (not_prefix_of_threaded hcode ht hne after), ht.strip_append hinner]
    simp

/-! ## Codes in longer texts

A broken code is found in any text around it, and a text may be cut at each character that no code
has inside. -/

variable {c : Char}

theorem HasBrokenCode.mono (h : HasBrokenCode s) (hs : s <:+: t) : HasBrokenCode t := by
  obtain ⟨before, w, u, after, rfl, hw⟩ := h
  obtain ⟨x, y, rfl⟩ := hs
  exact ⟨x ++ before, w, u, after ++ y, by simp, hw⟩

/-- No code goes on past a character that is not inside of any. -/
theorem hasCode_append_cons_iff (hc : ¬ IsInner c) (hne : c ≠ escape) :
    HasCode (s ++ c :: t) ↔ HasCode s ∨ HasCode t := by
  have hs := (strip_sublist s).length_le
  have ht := (strip_sublist t).length_le
  rw [← not_iff_not, not_or, ← strip_eq_self_iff, ← strip_eq_self_iff, ← strip_eq_self_iff,
    strip_append hc, strip_cons_of_ne hne]
  constructor
  · intro h
    have hlength := congrArg List.length h
    simp only [List.length_append, List.length_cons] at hlength
    obtain ⟨hs', ht'⟩ := List.append_inj h (by omega)
    exact ⟨hs', (List.cons.inj ht').2⟩
  · rintro ⟨hs', ht'⟩
    rw [hs', ht']

theorem strip_append_of_not_mem (h : escape ∉ s) (t : Text) : strip (s ++ t) = s ++ strip t := by
  induction s with
  | nil => rfl
  | cons c s ih =>
    rw [List.cons_append, strip_cons_of_ne fun hc => h (by simp [hc]),
      ih fun hm => h (List.mem_cons_of_mem c hm), List.cons_append]

theorem isCode_of_all {ps : Text} (h : ps.all isParameter) :
    IsCode (escape :: '[' :: (ps ++ ['m'])) := .intro (List.all_eq_true.1 h)

theorem isCode_reset : IsCode (escape :: "[0m".toList) := @isCode_of_all ['0'] rfl

/-- A line is stripped on its own. -/
theorem strip_line_append (s t : Text) : strip (s ++ '\n' :: t) = strip s ++ '\n' :: strip t := by
  rw [strip_append not_isInner_newline, strip_cons_of_ne (by decide)]

theorem strip_flatMap_lines {α : Type} (as : List α) (f : α → Text) :
    strip (as.flatMap fun a => f a ++ ['\n']) = as.flatMap fun a => strip (f a ++ ['\n']) := by
  induction as with
  | nil => exact strip_nil
  | cons a as ih =>
    rw [List.flatMap_cons, List.flatMap_cons, ← ih, List.append_assoc, List.singleton_append,
      strip_line_append, strip_line_append, strip_nil, List.append_assoc, List.singleton_append]

end Colour
end Stencil
