import Stencil.Proofs.Directive.Canonical

/-!
# No directive begins another

Reading gives canonical specs only (`Spec.canonical_of_readBody?`), and every directive is the
source of one (`Spec.exists_canonical`), which is read back whatever follows it.  So a text begins
with at most one directive (`Grammar.IsDirective.eq_of_prefix`), although flags, width and position
share their characters, and the reader finds it whenever there is one
(`Grammar.begins_iff_readBody?`).

That the language is prefix free is not seen from its grammar, in which `%0` and digits can be taken
apart in several ways.  It is seen by reading: of two directives that begin a text, both are read
from its beginning, so they are the same.  The grammar and the reader thus account for each other,
one saying what a directive is, the other that there is no choice.

A percent sign inside of a directive would begin another one.  There is none, and therefore it can
be said of a text by itself whether a directive begins in it (`Grammar.Begins.of_percent`).
-/

set_option autoImplicit false

namespace Stencil

open Grammar

/-! ## What is read is canonical

Each reader leaves its mark on what it gives: the digits of a position are proper, flags take the
zeros before a width is looked for, and a number with a dollar sign behind nothing but zeros has
been the position already. -/

namespace Spec

theorem isDigits_of_readPosition {s ds : Text} (h : (readPosition s).1 = some ds) :
    IsDigits ds := by
  rw [readPosition] at h
  split at h
  · rename_i hd
    cases h
    exact Text.isDigits_of_dollarNumber? hd
  · cases h

theorem dollarNumber?_of_readPosition {s : Text} (h : (readPosition s).1 = none) :
    Text.dollarNumber? s = none ∧ (readPosition s).2 = s := by
  rw [readPosition] at h ⊢
  split at h
  · cases h
  · rename_i hd
    rw [hd]
    exact ⟨rfl, rfl⟩

/-- A width that is read where no flag stands does not begin with a zero. -/
theorem followsFlags_of_read? {s rest : Text} {z : SizeSpec}
    (hs : ∀ c, s.head? = some c → Flag.ofChar? c = none)
    (h : SizeSpec.read? s = some (z, rest)) : z.FollowsFlags := by
  have h0 : s.head? ≠ some '0' := fun hc => absurd (hs '0' hc) (by decide)
  have he := SizeSpec.eq_of_read? h
  have hw := SizeSpec.written_of_read? h
  cases z with
  | next => trivial
  | argument ds => trivial
  | literal ds =>
    obtain ⟨d, ds, rfl⟩ := List.exists_cons_of_ne_nil hw.1
    rw [he] at h0
    exact h0
  | ignored ds =>
    obtain ⟨d, ds, rfl⟩ := List.exists_cons_of_ne_nil hw.1
    rw [he] at h0
    exact .inl h0

theorem width_of_readFlagsWidth {s : Text} {z : SizeSpec}
    (h : (readFlagsWidth s).2.1 = some z) : z.Written ∧ z.FollowsFlags := by
  have hhead : ∀ c, (Flag.readAll s).2.head? = some c → Flag.ofChar? c = none :=
    fun c hc => Flag.ofChar?_head_readAll hc
  rw [readFlagsWidth] at h
  split at h
  · split at h
    · cases h
      exact ⟨isDigits_zero, .inr rfl⟩
    · cases h
  · rename_i he
    rw [he] at hhead
    split at h
    · rename_i hr
      cases h
      exact ⟨SizeSpec.written_of_read? hr, followsFlags_of_read? hhead hr⟩
    · cases h

theorem written_of_readPrecision? {s rest : Text} {r : Option SizeSpec}
    (h : readPrecision? s = some (r, rest)) : ∀ z, r = some z → z.Written := by
  rw [readPrecision?.eq_def] at h
  split at h
  · obtain ⟨⟨z, u⟩, hz, he⟩ := Option.map_eq_some_iff.1 h
    cases he
    rintro _ ⟨⟩
    exact SizeSpec.written_of_read? hz
  · cases h
    rintro _ ⟨⟩

/-- A number with a dollar sign after nothing but zeros is read as the position. -/
theorem width_ne_ignored_of_readPosition {s : Text} (h : (readPosition s).1 = none)
    (hz : ∀ f ∈ (readFlagsWidth (readPosition s).2).1, f = .zero) (ds : Text) :
    (readFlagsWidth (readPosition s).2).2.1 ≠ some (.ignored ds) := by
  intro hw
  obtain ⟨hn, hs⟩ := dollarNumber?_of_readPosition h
  rw [hs] at hz hw
  have hd := IsDigits.append (forall_isDecimalDigit_zeros hz) (width_of_readFlagsWidth hw).1
  have he := readFlagsWidth_append s
  rw [hw, Option.elim_some, SizeSpec.source, List.append_assoc, List.singleton_append,
    ← List.append_assoc] at he
  rw [← he, Text.dollarNumber?_append hd] at hn
  cases hn

/-- **What is read is canonical.** -/
theorem canonical_of_readBody? {s rest : Text} {spec : Spec}
    (h : readBody? s = some (spec, rest)) : spec.Canonical := by
  rw [readBody?] at h
  split at h
  · cases h
  · rename_i hr
    split at h
    · cases h
    · obtain ⟨v, -, he⟩ := Option.map_eq_some_iff.1 h
      cases he
      exact {
        written := {
          position := fun _ => isDigits_of_readPosition
          width := fun _ hz => (width_of_readFlagsWidth hz).1
          precision := written_of_readPrecision? hr }
        width := fun _ hz => (width_of_readFlagsWidth hz).2
        position := width_ne_ignored_of_readPosition }

end Spec

/-! ## Every directive has a canonical spec

The zeros in front of a width are moved to the flags.  This does not change the text of a spec, and
afterwards a number with a dollar sign that is left without flags is moved to the position. -/

theorem Flag.map_char_replicate (k : Nat) :
    (List.replicate k Flag.zero).map char = List.replicate k '0' := by
  rw [List.map_replicate]
  rfl

/-- Digits are zeros and then digits that do not begin with a zero. -/
theorem Grammar.exists_zeros_append (ds : Text) :
    ∃ k ds', ds = List.replicate k '0' ++ ds' ∧ ds'.head? ≠ some '0' := by
  induction ds with
  | nil => exact ⟨0, [], rfl, by simp⟩
  | cons d ds ih =>
    by_cases hd : d = '0'
    · obtain ⟨k, ds', rfl, h0⟩ := ih
      exact ⟨k + 1, ds', by rw [hd, List.replicate_succ, List.cons_append], h0⟩
    · exact ⟨0, d :: ds, rfl, by simpa using hd⟩

theorem Grammar.IsDigits.of_append {s t : Text} (h : IsDigits (s ++ t)) (ht : t ≠ []) :
    IsDigits t :=
  ⟨ht, fun c hc => h.2 c (List.mem_append_right s hc)⟩

namespace Spec

/-- Flags and width can be written so that the zeros of the width go to the flags. -/
theorem exists_followsFlags (fs : List Flag) {w : Option SizeSpec}
    (hw : ∀ z, w = some z → z.Written) :
    ∃ (fs' : List Flag) (w' : Option SizeSpec),
      (∀ z, w' = some z → z.Written ∧ z.FollowsFlags) ∧
        fs'.map Flag.char ++ w'.elim [] SizeSpec.source =
          fs.map Flag.char ++ w.elim [] SizeSpec.source := by
  -- the flags after which a number begins with no zero
  have hmap (k : Nat) : (fs ++ List.replicate k Flag.zero).map Flag.char =
      fs.map Flag.char ++ List.replicate k '0' := by
    rw [List.map_append, Flag.map_char_replicate]
  rcases w with _ | z
  · exact ⟨fs, none, by rintro _ ⟨⟩, rfl⟩
  have hz := hw z rfl
  cases z with
  | next => exact ⟨fs, some .next, by rintro _ ⟨⟩; exact ⟨trivial, trivial⟩, rfl⟩
  | argument ds => exact ⟨fs, some (.argument ds), by rintro _ ⟨⟩; exact ⟨hz, trivial⟩, rfl⟩
  | literal ds =>
    obtain ⟨k, ds', rfl, h0⟩ := exists_zeros_append ds
    by_cases hnil : ds' = []
    · subst hnil
      refine ⟨fs ++ List.replicate k .zero, none, by rintro _ ⟨⟩, ?_⟩
      simp [hmap, SizeSpec.source]
    · refine ⟨fs ++ List.replicate k .zero, some (.literal ds'), ?_, ?_⟩
      · rintro _ ⟨⟩
        exact ⟨hz.of_append hnil, h0⟩
      · simp [hmap, SizeSpec.source]
  | ignored ds =>
    obtain ⟨k, ds', rfl, h0⟩ := exists_zeros_append ds
    by_cases hnil : ds' = []
    · subst hnil
      -- one zero has to stay before the dollar sign
      obtain ⟨k, rfl⟩ : ∃ j, k = j + 1 := by
        refine Nat.exists_eq_succ_of_ne_zero fun hk => hz.1 ?_
        rw [hk]
        rfl
      refine ⟨fs ++ List.replicate k .zero, some (.ignored ['0']), ?_, ?_⟩
      · rintro _ ⟨⟩
        exact ⟨isDigits_zero, .inr rfl⟩
      · simp [hmap, SizeSpec.source, List.replicate_succ']
    · refine ⟨fs ++ List.replicate k .zero, some (.ignored ds'), ?_, ?_⟩
      · rintro _ ⟨⟩
        exact ⟨hz.of_append hnil, .inl h0⟩
      · simp [hmap, SizeSpec.source]

/-- **Every source of a spec with proper numbers is the source of a canonical one.** -/
theorem exists_canonical {s : Spec} (h : s.Written) :
    ∃ s' : Spec, s'.Canonical ∧ s'.source = s.source := by
  obtain ⟨p, fs, w, r, l, v⟩ := s
  obtain ⟨fs', w', hw', he⟩ := exists_followsFlags fs h.width
  by_cases hpos : p = none ∧ (∀ f ∈ fs', f = .zero) ∧ ∃ ds, w' = some (.ignored ds)
  · obtain ⟨rfl, hz, ds, rfl⟩ := hpos
    -- zeros and a number with a dollar sign are a position
    have hd := IsDigits.append (forall_isDecimalDigit_zeros hz) (hw' _ rfl).1
    refine ⟨⟨some (fs'.map Flag.char ++ ds), [], none, r, l, v⟩,
      ⟨⟨?_, ?_, h.precision⟩, ?_, ?_⟩, ?_⟩
    · rintro _ ⟨⟩
      exact hd
    · rintro _ ⟨⟩
    · rintro _ ⟨⟩
    · rintro ⟨⟩
    · have he' : fs'.map Flag.char ++ ds ++ ['$'] =
          fs.map Flag.char ++ w.elim [] SizeSpec.source := by
        rw [← he, List.append_assoc]
        rfl
      simp only [source, Option.elim_some, Option.elim_none, List.map_nil, List.append_nil,
        List.nil_append]
      rw [he']
  · refine ⟨⟨p, fs', w', r, l, v⟩, ⟨⟨h.position, fun z hz => (hw' z hz).1, h.precision⟩,
      fun z hz => (hw' z hz).2, fun hp hz ds hds => hpos ⟨hp, hz, ds, hds⟩⟩, ?_⟩
    simp only [source, List.append_assoc]
    rw [← List.append_assoc (fs'.map Flag.char), he, List.append_assoc]

end Spec

/-! ## No percent sign inside a directive

The parts are gone through one by one.  Their characters are digits, of whatever script, and some
others that can be listed. -/

theorem Grammar.IsDigits.percent_not_mem {ds : Text} (h : IsDigits ds) : '%' ∉ ds :=
  fun hm => absurd (h.2 '%' hm) (by decide)

theorem SizeSpec.percent_not_mem_source {z : SizeSpec} (h : z.Written) : '%' ∉ z.source := by
  cases z with
  | next => decide
  | argument ds => simpa [source] using h.percent_not_mem
  | literal ds => exact h.percent_not_mem
  | ignored ds => simpa [source] using h.percent_not_mem

theorem Flag.percent_not_mem_map_char (fs : List Flag) : '%' ∉ fs.map char := by
  intro h
  obtain ⟨f, -, hf⟩ := List.mem_map.1 h
  cases f <;> exact absurd hf (by decide)

theorem percent_not_mem_endSource (l : Option Length) (v : Conversion) : '%' ∉ endSource l v := by
  rcases l with _ | l
  · cases v <;> decide
  · cases l <;> cases v <;> decide

theorem Spec.percent_not_mem_body {s : Spec} (h : s.Written) : '%' ∉ s.body := by
  have hp : '%' ∉ s.position.elim [] (· ++ ['$']) := by
    rcases hs : s.position with _ | ds
    · simp
    · simpa using (h.position ds hs).percent_not_mem
  have hw : '%' ∉ s.width.elim [] SizeSpec.source := by
    rcases hs : s.width with _ | z
    · simp
    · exact SizeSpec.percent_not_mem_source (h.width z hs)
  have hr : '%' ∉ precisionSource s.precision := by
    rcases hs : s.precision with _ | z
    · simp [precisionSource]
    · simpa [precisionSource] using SizeSpec.percent_not_mem_source (h.precision z hs)
  have hf := Flag.percent_not_mem_map_char s.flags
  have he := percent_not_mem_endSource s.length s.conversion
  have hb := body_append s []
  rw [List.append_nil, List.append_nil] at hb
  rw [hb]
  simp only [List.mem_append, not_or]
  exact ⟨hp, hf, hw, hr, he⟩

/-! ## Where directives begin

The escape is the only directive that goes on with a percent sign; nothing else can begin in its
place, since no spec begins with one (`Spec.readBody?_percent`). -/

theorem Spec.readBody?_percent (s : Text) : readBody? ('%' :: s) = none := rfl

namespace Grammar

/-- A directive, or the escape, begins with the percent sign in front of `s`. -/
def Begins (s : Text) : Prop := ∃ t, IsDirective t ∧ t <+: '%' :: s

/-- A directive is the escape or has a canonical spec. -/
theorem IsDirective.eq_escape_or {t : Text} (h : IsDirective t) :
    t = ['%', '%'] ∨ ∃ s : Spec, s.Canonical ∧ t = '%' :: s.body := by
  rcases isDirective_iff.1 h with h | ⟨s, hs, rfl⟩
  · exact .inl h
  · obtain ⟨s', hs', he⟩ := Spec.exists_canonical hs
    exact .inr ⟨s', hs', by rw [← he, Spec.source_eq]⟩

/-- A text that begins with the source of a canonical spec is read as this spec. -/
theorem readBody?_of_prefix {a : Spec} (ha : a.Canonical) {s : Text}
    (h : '%' :: a.body <+: '%' :: s) : ∃ rest, Spec.readBody? s = some (a, rest) := by
  obtain ⟨rest, rfl⟩ := (List.cons_prefix_cons.1 h).2
  exact ⟨rest, Spec.readBody?_body_append ha rest⟩

theorem readBody?_of_prefix_escape {s : Text} (h : ['%', '%'] <+: '%' :: s) :
    Spec.readBody? s = none := by
  obtain ⟨rest, rfl⟩ := (List.cons_prefix_cons.1 h).2
  exact Spec.readBody?_percent rest

/-- **The language of directives is prefix free**: a text begins with at most one directive. -/
theorem IsDirective.eq_of_prefix {s t u : Text} (ht : IsDirective t) (hu : IsDirective u)
    (hts : t <+: '%' :: s) (hus : u <+: '%' :: s) : t = u := by
  rcases ht.eq_escape_or with rfl | ⟨a, ha, rfl⟩ <;> rcases hu.eq_escape_or with rfl | ⟨b, hb, rfl⟩
  · rfl
  · obtain ⟨_, hr⟩ := readBody?_of_prefix hb hus
    rw [readBody?_of_prefix_escape hts] at hr
    cases hr
  · obtain ⟨_, hr⟩ := readBody?_of_prefix ha hts
    rw [readBody?_of_prefix_escape hus] at hr
    cases hr
  · obtain ⟨_, hr⟩ := readBody?_of_prefix ha hts
    obtain ⟨_, hr'⟩ := readBody?_of_prefix hb hus
    rw [hr] at hr'
    cases hr'
    rfl

theorem begins_of_readBody? {s rest : Text} {spec : Spec}
    (h : Spec.readBody? s = some (spec, rest)) : Begins s :=
  ⟨spec.source, Spec.isDirective_source (Spec.canonical_of_readBody? h).written, rest,
    (Spec.eq_of_readBody? h).symm⟩

/-- **Reading finds every directive.** -/
theorem begins_iff_readBody? {s : Text} :
    Begins s ↔ s.head? = some '%' ∨ (Spec.readBody? s).isSome := by
  constructor
  · rintro ⟨t, ht, hp⟩
    rcases ht.eq_escape_or with rfl | ⟨a, ha, rfl⟩
    · obtain ⟨rest, rfl⟩ := (List.cons_prefix_cons.1 hp).2
      exact .inl rfl
    · obtain ⟨_, hr⟩ := readBody?_of_prefix ha hp
      exact .inr (by rw [hr]; rfl)
  · rintro (h | h)
    · obtain ⟨s', rfl⟩ := List.head?_eq_some_iff.1 h
      exact ⟨['%', '%'], .escape, s', rfl⟩
    · obtain ⟨⟨spec, rest⟩, h⟩ := Option.isSome_iff_exists.1 h
      exact begins_of_readBody? h

/-- Whether a directive begins does not depend on what follows the next percent sign. -/
theorem Begins.of_percent {s u : Text} (h : Begins (s ++ '%' :: u)) (u' : Text) :
    Begins (s ++ '%' :: u') := by
  obtain ⟨t, ht, hp⟩ := h
  rcases ht.eq_escape_or with rfl | ⟨a, ha, rfl⟩
  · cases s with
    | nil => exact ⟨['%', '%'], .escape, u', rfl⟩
    | cons c s =>
      obtain rfl := (List.cons_prefix_cons.1 (List.cons_prefix_cons.1 hp).2).1
      exact ⟨['%', '%'], .escape, s ++ '%' :: u', rfl⟩
  · have hs : a.body <+: s :=
      Text.prefix_of_not_mem (List.cons_prefix_cons.1 hp).2 (Spec.percent_not_mem_body ha.written)
    exact ⟨_, ht, List.cons_prefix_cons.2 ⟨rfl, hs.trans (List.prefix_append ..)⟩⟩

end Grammar
end Stencil
