import Stencil.Proofs.FormatMap.Placeholder

/-!
# Substitution as replacement

`FormatMap.substitute` passes over a lead in front of a name, and a name may begin with characters
of a lead, or be empty.  For a **plain** name none of this is seen: three equations say that
substitution goes through the text and puts the index in the place of the name wherever the name
stands (`substitute_nil`, `substitute_cons`, `substitute_append`).

The rest of this module is about one substitution after the other.  The digits that one of them puts
in may not make a name for the next.  They do not where each name occurs in the template only as the
name of a placeholder: a plain name does not begin with a digit, and a name without a percent sign
does not reach into the next placeholder.  So the text after some of the pairs is the template with
the indices of these pairs in the place of their names (`substituteIndex_step`), and so it is after
all pairs (`compilePairs_flatMap_source`).
-/

set_option autoImplicit false

namespace Stencil
namespace FormatMap

/-! ## Plain names

Three equations are derived, one for the empty text, one for a character that does not begin the
name and one for the name.  Everything else in this module is proved from them, so that nothing else
needs to know how an occurrence is found. -/

/-- A name that is not empty and does not begin with what is passed over in front of a name. -/
def IsPlain (name : Text) : Prop := ∃ c s, name = c :: s ∧ isOpening c = false

namespace IsPlain

variable {name : Text}

theorem ne_nil (h : IsPlain name) : name ≠ [] := by
  obtain ⟨c, s, rfl, -⟩ := h
  simp

/-- A plain name does not begin with an opening character. -/
theorem not_prefix (h : IsPlain name) {c : Char} (hc : isOpening c) (s : Text) :
    ¬ name <+: c :: s := by
  obtain ⟨d, t, rfl, hd⟩ := h
  intro hp
  obtain rfl := (List.cons_prefix_cons.1 hp).1
  rw [hd] at hc
  cases hc

end IsPlain

/-- The names that a placeholder can have are plain. -/
theorem IsPlain.of_isIdentifier {name : Text} (h : Placeholder.IsIdentifier name) :
    IsPlain name := by
  obtain ⟨c, s, rfl, hc, -⟩ := h
  refine ⟨c, s, rfl, ?_⟩
  rw [Bool.eq_false_iff]
  intro ho
  rw [isOpening, Bool.or_eq_true, decide_eq_true_eq] at ho
  rcases ho with rfl | hl
  · exact absurd hc (by decide)
  · rw [Placeholder.isNameStart_of_isLead hl] at hc
    cases hc

variable {name index : Text}

/-- A plain name is found at the beginning of a text, with no lead in front of it. -/
theorem occurrence?_append (h : IsPlain name) (s : Text) :
    occurrence? name (name ++ s) = some ([], s) := by
  obtain ⟨c, t, rfl, hc⟩ := h
  have ha : Text.after? (c :: t) (c :: t ++ s) = some s := Text.after?_eq_some_iff.2 rfl
  rw [List.cons_append] at ha ⊢
  rw [occurrence?, hc, ha]
  rfl

/-- An occurrence stands at the beginning, or after the first character. -/
theorem occurrence?_cons {c : Char} {s lead rest : Text}
    (h : occurrence? name (c :: s) = some (lead, rest)) :
    name <+: c :: s ∨ ∃ l, lead = c :: l ∧ occurrence? name s = some (l, rest) := by
  rw [occurrence?] at h
  split at h
  · rename_i l r hl
    split at hl
    · cases h
      exact .inr ⟨l, rfl, hl⟩
    · cases hl
  · obtain ⟨r, hr, -⟩ := Option.map_eq_some_iff.1 h
    exact .inl ⟨r, (Text.after?_eq_some_iff.1 hr).symm⟩

theorem substitute_of_occurrence? (hn : name ≠ []) {s lead rest : Text}
    (h : occurrence? name s = some (lead, rest)) :
    substitute name index s = lead ++ index ++ substitute name index rest := by
  rw [substitute]
  split
  · rename_i he
    rw [h] at he
    cases he
    rw [if_neg fun hc => hn hc.2]
  · rename_i he
    rw [h] at he
    cases he

theorem substitute_of_occurrence?_eq_none {c : Char} {s : Text}
    (h : occurrence? name (c :: s) = none) :
    substitute name index (c :: s) = c :: substitute name index s := by
  rw [substitute]
  split
  · rename_i he
    rw [h] at he
    cases he
  · rfl

/-- Nothing is substituted in the empty text. -/
theorem substitute_nil (hn : name ≠ []) : substitute name index [] = [] := by
  have ho : occurrence? name [] = none := by
    obtain ⟨c, s, rfl⟩ := List.exists_cons_of_ne_nil hn
    rfl
  rw [substitute]
  split
  · rename_i he
    rw [ho] at he
    cases he
  · rfl

/-- Where the name does not stand, a character is kept. -/
theorem substitute_cons (hn : name ≠ []) {c : Char} {s : Text} (h : ¬ name <+: c :: s) :
    substitute name index (c :: s) = c :: substitute name index s := by
  cases ho : occurrence? name (c :: s) with
  | none => exact substitute_of_occurrence?_eq_none ho
  | some r =>
    obtain ⟨lead, rest⟩ := r
    rcases occurrence?_cons ho with hp | ⟨l, rfl, hl⟩
    · exact absurd hp h
    · rw [substitute_of_occurrence? hn ho, substitute_of_occurrence? hn hl]
      rfl

/-- Where the name stands, the index takes its place. -/
theorem substitute_append (h : IsPlain name) (s : Text) :
    substitute name index (name ++ s) = index ++ substitute name index s := by
  rw [substitute_of_occurrence? h.ne_nil (occurrence?_append h s), List.nil_append]

/-- A text in which no occurrence begins is kept. -/
theorem substitute_append_of_forall (hn : name ≠ []) {w t : Text}
    (h : ∀ y z, w = y ++ z → z ≠ [] → ¬ name <+: z ++ t) :
    substitute name index (w ++ t) = w ++ substitute name index t := by
  induction w with
  | nil => rfl
  | cons c w ih =>
    have hc : ¬ name <+: c :: (w ++ t) := h [] (c :: w) rfl (List.cons_ne_nil c w)
    have ih := ih fun y z hw hz => h (c :: y) z (by rw [hw]; rfl) hz
    rw [List.cons_append, substitute_cons hn hc, ih]
    rfl

/-- Opening characters are kept in front of anything. -/
theorem substitute_opening_append (h : IsPlain name) {w : Text} (hw : ∀ c ∈ w, isOpening c)
    (t : Text) : substitute name index (w ++ t) = w ++ substitute name index t := by
  refine substitute_append_of_forall h.ne_nil ?_
  rintro y z rfl hz
  obtain ⟨c, z, rfl⟩ := List.exists_cons_of_ne_nil hz
  exact h.not_prefix (hw c (by simp)) (z ++ t)

theorem substitute_of_not_contains (hn : name ≠ []) {s : Text} (h : Text.contains name s = false) :
    substitute name index s = s := by
  induction s with
  | nil => exact substitute_nil hn
  | cons c s ih =>
    rw [Text.contains, Bool.or_eq_false_iff] at h
    have hp : ¬ name <+: c :: s := by
      rintro ⟨rest, hr⟩
      rw [Text.after?_eq_some_iff.2 hr.symm] at h
      cases h.1
    rw [substitute_cons hn hp, ih h.2]

/-- A pair is substituted wherever its name stands, also if that is nowhere. -/
theorem substituteIndex_eq_ok {p : Text × Int} (hn : p.1 ≠ [])
    (hl : Numeral.decimalLength p.2.natAbs ≤ Numeral.digitLimit) (s : Text) :
    substituteIndex s p = .ok (substitute p.1 (Numeral.signedDecimal p.2) s) := by
  rw [substituteIndex]
  split
  · rw [Numeral.limitedText, if_pos hl]
    rfl
  · rename_i h
    rw [substitute_of_not_contains hn (Bool.eq_false_iff.2 h)]

end FormatMap

/-! ## Occurrences in a template

A name that stands in a template across the boundary of two fragments, or inside of a name, is
replaced as well.  `OccursAsName` excludes this for the template as it is written.  It has to be
shown that it stays excluded while other names are being replaced. -/

/-- A placeholder with any name at all after a proper lead. -/
structure Placeholder.IsLed (p : Placeholder) : Prop where
  lead : ∀ c ∈ p.lead, isLead c
  name : p.name ≠ []

namespace Fragment

variable {name : Text} {σ τ : Text → Text}

/-- Whether a name without a percent sign stands at the beginning does not depend on the names of
the placeholders that follow. -/
theorem prefix_sourceWith (hp : '%' ∉ name) {x : Text} {frs : List Fragment}
    (h : name <+: x ++ frs.flatMap (sourceWith σ)) : name <+: x ++ frs.flatMap (sourceWith τ) := by
  induction frs generalizing x with
  | nil => exact h
  | cons fr frs ih =>
    rw [List.flatMap_cons] at h ⊢
    cases fr with
    | char c =>
      rw [sourceWith, ← List.append_assoc] at h ⊢
      exact ih h
    | placeholder p =>
      rw [sourceWith, Placeholder.sourceWith_append] at h
      exact (Text.prefix_of_not_mem h hp).trans (List.prefix_append ..)

/-- The name occurs in the text of the fragments only as the name of a placeholder. -/
def OccursAsName (name : Text) (frs : List Fragment) : Prop :=
  ∀ a b, frs.flatMap source = a ++ name ++ b → ∃ before p after,
    frs = before ++ placeholder p :: after ∧ p.name = name ∧
      a = before.flatMap source ++ '%' :: p.lead

/-- It is enough to look at each place where the name could begin. -/
theorem occursAsName_of_drop {frs : List Fragment} (hn : name ≠ [])
    (h : ∀ k < (frs.flatMap source).length, name <+: (frs.flatMap source).drop k →
      ∃ before p after, frs = before ++ placeholder p :: after ∧ p.name = name ∧
        (frs.flatMap source).take k = before.flatMap source ++ '%' :: p.lead) :
    OccursAsName name frs := by
  intro a b hab
  have hlen := congrArg List.length hab
  have hpos := List.length_pos_iff.2 hn
  simp only [List.length_append] at hlen
  have hdrop : (frs.flatMap source).drop a.length = name ++ b := by
    rw [hab, List.append_assoc, List.drop_left]
  have htake : (frs.flatMap source).take a.length = a := by
    rw [hab, List.append_assoc, List.take_left]
  have hk := h a.length (by omega) (by rw [hdrop]; exact List.prefix_append name b)
  rwa [htake] at hk

/-- Fragment by fragment: an occurrence that begins in a fragment is the name of this fragment. -/
def BeginsAsName (name : Text) : List Fragment → Prop
  | [] => True
  | fr :: frs =>
    (∀ y z, fr.source = y ++ z → z ≠ [] → name <+: z ++ frs.flatMap source →
      ∃ p, fr = placeholder p ∧ p.name = name ∧ y = '%' :: p.lead) ∧ BeginsAsName name frs

/-- Two fragments of which neither ends before the other begins stand at the same place. -/
theorem eq_of_overlap {pre frs before after : List Fragment} {fr fr' : Fragment}
    (h : pre ++ fr :: frs = before ++ fr' :: after)
    (hpre : (pre.flatMap source).length < ((before ++ [fr']).flatMap source).length)
    (hbefore : (before.flatMap source).length < ((pre ++ [fr]).flatMap source).length) :
    pre = before ∧ fr = fr' := by
  rcases List.append_eq_append_iff.1 h with ⟨x, rfl, hx⟩ | ⟨x, rfl, hx⟩ <;> cases x with
  | nil =>
    cases hx
    exact ⟨by simp, rfl⟩
  | cons y x =>
    cases hx
    simp only [List.flatMap_append, List.flatMap_cons, List.flatMap_nil, List.length_append,
      List.length_nil] at hpre hbefore
    omega

/-- An occurrence that begins in a fragment is found at this fragment and at no other. -/
theorem OccursAsName.of_append {pre frs : List Fragment} (h : OccursAsName name (pre ++ frs)) :
    BeginsAsName name frs := by
  induction frs generalizing pre with
  | nil => trivial
  | cons fr frs ih =>
    have h' : OccursAsName name ((pre ++ [fr]) ++ frs) := by
      rwa [List.append_assoc, List.singleton_append]
    refine ⟨fun y z hyz hz hp => ?_, ih h'⟩
    obtain ⟨b, hb⟩ := hp
    have htext : (pre ++ fr :: frs).flatMap source = pre.flatMap source ++ y ++ name ++ b := by
      rw [List.append_assoc, hb, List.flatMap_append, List.flatMap_cons, hyz, List.append_assoc,
        List.append_assoc]
    obtain ⟨before, p, after, hsplit, hname, ha⟩ := h _ _ htext
    -- where the occurrence begins, both `fr` and the placeholder have begun and not ended
    have hzl : 0 < z.length := List.length_pos_iff.2 hz
    have hyl := congrArg List.length hyz
    have hal := congrArg List.length ha
    have hpl := congrArg List.length (p.sourceWith_append p.name [])
    simp only [List.append_nil, List.length_append, List.length_cons] at hyl hal hpl
    obtain ⟨rfl, rfl⟩ : pre = before ∧ fr = placeholder p := by
      refine eq_of_overlap hsplit ?_ ?_
      · simp only [List.flatMap_append, List.flatMap_singleton, List.length_append, source,
          Placeholder.source]
        omega
      · simp only [List.flatMap_append, List.flatMap_singleton, List.length_append]
        omega
    exact ⟨p, rfl, hname, List.append_cancel_left ha⟩

end Fragment

/-! ## One pair after the other

After some of the pairs the template is the one with which it began, with `indexText` of these pairs
in the place of names.  This is the invariant, and each substitution adds one pair to it. -/

namespace FormatMap

variable {name index : Text} {σ σ' : Text → Text}

/-- Leads are passed over. -/
theorem isOpening_of_isLead {c : Char} (h : Placeholder.isLead c) : isOpening c := by
  rw [isOpening, h, Bool.or_true]

theorem isOpening_of_mem_lead {p : Placeholder} (h : p.IsLed) :
    ∀ c ∈ '%' :: p.lead, isOpening c := by
  intro c hc
  rcases List.mem_cons.1 hc with rfl | hc
  · rfl
  · exact isOpening_of_isLead (h.lead c hc)

theorem isOpening_of_mem_decimal (n : Nat) : ∀ c ∈ Numeral.decimal n, isOpening c := by
  intro c hc
  obtain ⟨d, hd, rfl⟩ := List.mem_map.1 hc
  have hall : ∀ d < 10, isOpening (Nat.digitChar d) := by decide
  exact hall d (Numeral.lt_ten_of_mem_digits hd)

/-- An index has no character that could begin a plain name. -/
theorem isOpening_of_mem_signedDecimal (n : Int) : ∀ c ∈ Numeral.signedDecimal n, isOpening c := by
  intro c hc
  rw [Numeral.signedDecimal] at hc
  split at hc
  · rcases List.mem_cons.1 hc with rfl | hc
    · rfl
    · exact isOpening_of_mem_decimal _ c hc
  · exact isOpening_of_mem_decimal _ c hc

/-- What stands in the place of a name is the name, or a numeral that is passed over. -/
theorem indexText_cases (m : FormatMap) (n : Text) :
    m.indexText n = n ∨ ∀ c ∈ m.indexText n, isOpening c := by
  rw [indexText]
  cases m.indexOf? n with
  | none => exact .inl rfl
  | some i => exact .inr (isOpening_of_mem_signedDecimal i)

/-- Substitution in the text of one placeholder.  An occurrence that begins in it is its name. -/
theorem substitute_sourceWith (h : IsPlain name) (hσ : σ name = name) (hσ' : σ' name = index)
    (hother : ∀ m, m ≠ name → σ' m = σ m) {p : Placeholder} (hp : p.IsLed)
    (hrep : σ p.name = p.name ∨ ∀ c ∈ σ p.name, isOpening c) {t : Text}
    (hbegin : ∀ y z, p.name ++ ['$', p.conversion.letter] = y ++ z → z ≠ [] → name <+: z ++ t →
      p.name = name ∧ y = []) :
    substitute name index (p.sourceWith (σ p.name) ++ t) =
      p.sourceWith (σ' p.name) ++ substitute name index t := by
  have hlead (u : Text) : substitute name index (('%' :: p.lead) ++ u) =
      ('%' :: p.lead) ++ substitute name index u :=
    substitute_opening_append h (isOpening_of_mem_lead hp) u
  -- no occurrence begins at the dollar sign or at the letter
  have hend : substitute name index (['$', p.conversion.letter] ++ t) =
      ['$', p.conversion.letter] ++ substitute name index t := by
    refine substitute_append_of_forall h.ne_nil fun y z hyz hz hn => ?_
    have hy := (hbegin (p.name ++ y) z (by rw [hyz, List.append_assoc]) hz hn).2
    exact hp.name (List.append_eq_nil_iff.1 hy).1
  have hsource (w u : Text) :
      p.sourceWith w ++ u = ('%' :: p.lead) ++ (w ++ (['$', p.conversion.letter] ++ u)) := by
    rw [Placeholder.sourceWith_append]
    rfl
  rw [hsource, hsource, hlead]
  congr 1
  by_cases hpn : p.name = name
  · rw [hpn, hσ, hσ', substitute_append h, hend]
  · rw [hother _ hpn]
    rcases hrep with hs | hs
    · rw [hs, ← List.append_assoc, ← List.append_assoc]
      exact substitute_append_of_forall h.ne_nil fun y z hyz hz hn =>
        hpn (hbegin y z hyz hz hn).1
    · rw [substitute_opening_append h hs, hend]

/-- **Substitution in a template**: the index of a name comes in the place of this name and nowhere
else, whatever has been put in before. -/
theorem substitute_flatMap_sourceWith (h : IsPlain name) (hpercent : '%' ∉ name)
    (hσ : σ name = name) (hσ' : σ' name = index) (hother : ∀ m, m ≠ name → σ' m = σ m)
    (hrep : ∀ n, σ n = n ∨ ∀ c ∈ σ n, isOpening c) {frs : List Fragment}
    (hfrs : ∀ p, Fragment.placeholder p ∈ frs → p.IsLed) (hbegin : Fragment.BeginsAsName name frs) :
    substitute name index (frs.flatMap (Fragment.sourceWith σ)) =
      frs.flatMap (Fragment.sourceWith σ') := by
  -- by induction on the fragments; that the name begins nowhere else is carried along
  induction frs with
  | nil => exact substitute_nil h.ne_nil
  | cons fr frs ih =>
    obtain ⟨hfr, hbegin⟩ := hbegin
    have ih := ih (fun p hp => hfrs p (List.mem_cons_of_mem fr hp)) hbegin
    rw [List.flatMap_cons, List.flatMap_cons]
    cases fr with
    | char c =>
      -- a name that began here would begin a placeholder, and this is a character
      have hn : ¬ name <+: c :: frs.flatMap (Fragment.sourceWith σ) := by
        intro hn
        have hn' := Fragment.prefix_sourceWith (τ := id) (x := [c]) hpercent hn
        rw [← Fragment.source_eq_sourceWith] at hn'
        obtain ⟨p, hp, -⟩ := hfr [] [c] rfl (List.cons_ne_nil c []) hn'
        cases hp
      rw [Fragment.sourceWith, Fragment.sourceWith, List.singleton_append, List.singleton_append,
        substitute_cons h.ne_nil hn, ih]
    | placeholder p =>
      rw [Fragment.sourceWith, Fragment.sourceWith, substitute_sourceWith h hσ hσ' hother
        (hfrs p List.mem_cons_self) (hrep p.name), ih]
      -- nor does the name begin inside what stands before the name of this placeholder
      intro y z hyz hz hn
      have hn' := Fragment.prefix_sourceWith (τ := id) hpercent hn
      rw [← Fragment.source_eq_sourceWith] at hn'
      have hsource : (Fragment.placeholder p).source = '%' :: (p.lead ++ y) ++ z := by
        simp [Fragment.source, Placeholder.source, Placeholder.sourceWith, ← hyz]
      obtain ⟨q, hq, hname, hy⟩ := hfr _ z hsource hz hn'
      cases hq
      exact ⟨hname, List.append_right_eq_self.1 (List.cons.inj hy).2⟩

/-- Pairs whose names can be told apart in a template. -/
structure Apart (ps : List (Text × Int)) (frs : List Fragment) : Prop where
  placeholders : ∀ p, Fragment.placeholder p ∈ frs → p.IsLed
  names : (ps.map (·.1)).Nodup
  plain : ∀ p ∈ ps, IsPlain p.1
  percent : ∀ p ∈ ps, '%' ∉ p.1
  digits : ∀ p ∈ ps, Numeral.decimalLength p.2.natAbs ≤ Numeral.digitLimit
  occurs : ∀ p ∈ ps, Fragment.OccursAsName p.1 frs

theorem indexText_pairs_append_self {done : List (Text × Int)} {p : Text × Int}
    (h : p.1 ∉ done.map (·.1)) :
    (pairs done).indexText p.1 = p.1 ∧
      (pairs (done ++ [p])).indexText p.1 = Numeral.signedDecimal p.2 := by
  have hf : done.find? (fun q => q.1 = p.1) = none := by
    rw [List.find?_eq_none]
    intro q hq hqp
    exact h (List.mem_map.2 ⟨q, hq, of_decide_eq_true hqp⟩)
  constructor
  · rw [indexText, indexOf?, hf]
    rfl
  · rw [indexText, indexOf?, List.find?_append, hf, List.find?_cons_of_pos (by simp)]
    rfl

theorem indexText_pairs_append_of_ne (done : List (Text × Int)) {p : Text × Int} {m : Text}
    (h : m ≠ p.1) : (pairs (done ++ [p])).indexText m = (pairs done).indexText m := by
  have hf : [p].find? (fun q => q.1 = m) = none := by
    rw [List.find?_cons_of_neg (by simpa using Ne.symm h)]
    rfl
  rw [indexText, indexText, indexOf?, indexOf?, List.find?_append, hf, Option.or_none]

/-- **One substitution after others**: the template with the indices of the first pairs becomes the
template with those of one pair more. -/
theorem substituteIndex_step {done : List (Text × Int)} {p : Text × Int} {frs : List Fragment}
    (h : Apart (done ++ [p]) frs) :
    substituteIndex (frs.flatMap (Fragment.sourceWith (pairs done).indexText)) p =
      .ok (frs.flatMap (Fragment.sourceWith (pairs (done ++ [p])).indexText)) := by
  have hp : p ∈ done ++ [p] := by simp
  have hnot : p.1 ∉ done.map (·.1) := by
    have hnd := h.names
    rw [List.map_append, List.nodup_append] at hnd
    exact fun hm => hnd.2.2 _ hm p.1 (by simp) rfl
  have hocc : Fragment.OccursAsName p.1 ([] ++ frs) := h.occurs p hp
  obtain ⟨hdone, hnew⟩ := indexText_pairs_append_self hnot
  rw [substituteIndex_eq_ok (h.plain p hp).ne_nil (h.digits p hp),
    substitute_flatMap_sourceWith (h.plain p hp) (h.percent p hp) hdone hnew
      (fun m hm => indexText_pairs_append_of_ne done hm) (indexText_cases (pairs done))
      h.placeholders hocc.of_append]

/-- All pairs that are left, one after the other. -/
theorem foldlM_substituteIndex {done ps : List (Text × Int)} {frs : List Fragment}
    (h : Apart (done ++ ps) frs) :
    ps.foldlM substituteIndex (frs.flatMap (Fragment.sourceWith (pairs done).indexText)) =
      .ok (frs.flatMap (Fragment.sourceWith (pairs (done ++ ps)).indexText)) := by
  induction ps generalizing done with
  | nil =>
    rw [List.append_nil]
    rfl
  | cons p ps ih =>
    have hsplit : done ++ p :: ps = (done ++ [p]) ++ ps := by simp
    rw [hsplit] at h ⊢
    have hstep : Apart (done ++ [p]) frs := {
      placeholders := h.placeholders
      names := by
        have hnd := h.names
        rw [List.map_append] at hnd
        exact (List.nodup_append.1 hnd).1
      plain := fun q hq => h.plain q (List.mem_append_left ps hq)
      percent := fun q hq => h.percent q (List.mem_append_left ps hq)
      digits := fun q hq => h.digits q (List.mem_append_left ps hq)
      occurs := fun q hq => h.occurs q (List.mem_append_left ps hq) }
    rw [List.foldlM_cons, substituteIndex_step hstep]
    exact ih h

/-- **Substituting all pairs puts their indices in the place of their names**, and leaves all else
as it is. -/
theorem compilePairs_flatMap_source {ps : List (Text × Int)} {frs : List Fragment}
    (h : Apart ps frs) :
    compilePairs ps (frs.flatMap Fragment.source) =
      .ok (frs.flatMap (Fragment.sourceWith (pairs ps).indexText)) := by
  have hnone : (pairs []).indexText = id := rfl
  have h' : Apart ([] ++ ps) frs := h
  have hrun := foldlM_substituteIndex h'
  rw [hnone, ← Fragment.source_eq_sourceWith] at hrun
  exact hrun

end FormatMap
end Stencil
