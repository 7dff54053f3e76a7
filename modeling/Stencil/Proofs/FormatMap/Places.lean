import Mathlib.Data.List.Basic
import Mathlib.Tactic.ByContra
import Mathlib.Tactic.Push
import Stencil.FormatMap.Compile
import Stencil.Proofs.FormatMap.Substitution

/-!
# Where placeholders stand

A placeholder **stands** in a template wherever its text does, at any percent sign.  Dividing a
template goes from left to right only once, and still finds all of them: the text of a placeholder
has no percent sign but the first, so no two of them overlap (`Fragment.divides_ofTemplate`).

With that, `FormatMap.compile_names_spec` says what compiling with a list of names does, without
saying how.  It fails exactly if some placeholder that stands in the template has a name that is not
in the list, and names the leftmost one.  Otherwise positions take the place of names, and nothing
is left to compile: a position can be read as part of a lead, but no name begins with it, and
whether a placeholder begins at a percent sign is settled before the next one.
-/

set_option autoImplicit false

namespace Stencil

namespace Placeholder

variable {p : Placeholder} {s : Text}

/-! ## Reading finds every placeholder

What the reader takes for lead, name and conversion is forced by the text: a lead ends where the
name begins, since names do not begin with a character of a lead, and a name ends with the dollar
sign. -/

/-- The text of a placeholder after its percent sign. -/
def body (p : Placeholder) : Text := p.lead ++ (p.name ++ ['$', p.conversion.letter])

theorem source_eq (p : Placeholder) : p.source = '%' :: p.body := by
  simp [source, sourceWith, body]

theorem Proper.percent_not_mem_body (h : p.Proper) : '%' ∉ p.body := by
  have hend : '%' ∉ ['$', p.conversion.letter] := by
    cases p.conversion <;> decide
  simp only [body, List.mem_append, not_or]
  exact ⟨fun hm => absurd (h.lead '%' hm) (by decide), h.name.percent_not_mem, hend⟩

/-- What is read is proper. -/
theorem proper_of_readBody? {rest : Text} (h : readBody? s = some (p, rest)) : p.Proper := by
  unfold readBody? readName? at h
  split at h
  · cases h
  · split at h
    · rename_i hc
      split at h
      · rename_i hn
        obtain ⟨v, -, he⟩ := Option.map_eq_some_iff.1 h
        cases he
        exact ⟨Text.forall_mem_of_run rfl, _, _, rfl, hc, Text.forall_mem_of_run hn⟩
      · cases h
    · cases h

/-- A placeholder is read exactly where its text stands. -/
theorem exists_readBody?_iff :
    (∃ rest, readBody? s = some (p, rest)) ↔ p.Proper ∧ p.body <+: s := by
  constructor
  · rintro ⟨rest, h⟩
    have hs := eq_of_readBody? h
    rw [source_eq] at hs
    exact ⟨proper_of_readBody? h, rest, (List.cons.inj hs).2.symm⟩
  · rintro ⟨hp, rest, rfl⟩
    refine ⟨rest, ?_⟩
    rw [body, List.append_assoc, List.append_assoc]
    exact readBody?_append hp rest

/-- Nothing is read exactly where no placeholder stands. -/
theorem readBody?_eq_none_iff :
    readBody? s = none ↔ ∀ p : Placeholder, p.Proper → ¬ p.body <+: s := by
  constructor
  · intro h p hp hb
    obtain ⟨rest, hr⟩ := exists_readBody?_iff.2 ⟨hp, hb⟩
    rw [h] at hr
    cases hr
  · intro h
    refine Option.eq_none_iff_forall_ne_some.2 fun ⟨p, rest⟩ hr => ?_
    obtain ⟨hp, hb⟩ := exists_readBody?_iff.1 ⟨rest, hr⟩
    exact h p hp hb

/-- The placeholder stands in a template right after the text `pre`. -/
def StandsIn (p : Placeholder) (template pre : Text) : Prop :=
  p.Proper ∧ pre ++ p.source <+: template

theorem standsIn_nil_iff : p.StandsIn ('%' :: s) [] ↔ ∃ rest, readBody? s = some (p, rest) := by
  rw [exists_readBody?_iff, StandsIn, List.nil_append, source_eq, List.cons_prefix_cons]
  simp

/-- Only where a percent sign is can a placeholder stand. -/
theorem not_standsIn_nil {c : Char} (hc : c ≠ '%') : ¬ p.StandsIn (c :: s) [] := by
  rintro ⟨-, h⟩
  rw [List.nil_append, source_eq, List.cons_prefix_cons] at h
  exact hc h.1.symm

/-- A text may be put in front of a template, or taken away. -/
theorem standsIn_append_iff {w pre : Text} :
    p.StandsIn (w ++ s) (w ++ pre) ↔ p.StandsIn s pre := by
  rw [StandsIn, StandsIn, List.append_assoc, List.prefix_append_right_inj]

end Placeholder

/-! ## Dividing finds every placeholder

The induction is on the template as it is divided.  In front of each fragment it has to be shown
that no placeholder begins inside of the fragment, except at its beginning; and a placeholder begins
with a percent sign. -/

namespace Fragment

variable {p : Placeholder} {s : Text}

theorem ofTemplate_percent (h : Placeholder.readBody? s = none) :
    ofTemplate ('%' :: s) = char '%' :: ofTemplate s := by
  rw [ofTemplate]
  split
  · rename_i he
    rw [h] at he
    cases he
  · rfl

theorem ofTemplate_append_of_percent_not_mem {w : Text} (hw : '%' ∉ w) (s : Text) :
    ofTemplate (w ++ s) = w.map char ++ ofTemplate s := by
  induction w with
  | nil => rfl
  | cons c w ih =>
    rw [List.mem_cons, not_or] at hw
    rw [List.cons_append, ofTemplate_char (Ne.symm hw.1), ih hw.2]
    rfl

/-- The placeholder is one of the fragments, right after the text `pre`. -/
def Stands (frs : List Fragment) (pre : Text) (p : Placeholder) : Prop :=
  ∃ before after, frs = before ++ placeholder p :: after ∧ before.flatMap source = pre

/-- The fragments of a template: nothing is lost, and the placeholders among them are those that
stand in it. -/
structure Divides (template : Text) (frs : List Fragment) : Prop where
  source_eq : frs.flatMap source = template
  standsIn_iff : ∀ pre p, p.StandsIn template pre ↔ Stands frs pre p

/-- One more fragment, if a placeholder that stands in it is this fragment. -/
theorem Divides.cons {frs : List Fragment} (h : Divides s frs) (fr : Fragment)
    (hne : fr.source ≠ []) (hproper : ∀ p, fr = placeholder p → p.Proper)
    (hin : ∀ pre p, p.StandsIn (fr.source ++ s) pre →
      pre = [] ∧ fr = placeholder p ∨ ∃ pre', pre = fr.source ++ pre') :
    Divides (fr.source ++ s) (fr :: frs) where
  source_eq := by rw [List.flatMap_cons, h.source_eq]
  standsIn_iff pre p := by
    constructor
    · intro hp
      rcases hin pre p hp with ⟨rfl, rfl⟩ | ⟨pre, rfl⟩
      · exact ⟨[], frs, rfl, rfl⟩
      · obtain ⟨before, after, rfl, rfl⟩ :=
          (h.standsIn_iff pre p).1 (Placeholder.standsIn_append_iff.1 hp)
        exact ⟨fr :: before, after, rfl, rfl⟩
    · rintro ⟨_ | ⟨b, before⟩, after, hfrs, rfl⟩
      · cases hfrs
        exact ⟨hproper p rfl, List.prefix_append p.source s⟩
      · cases hfrs
        exact Placeholder.standsIn_append_iff.2 ((h.standsIn_iff _ p).2 ⟨before, after, rfl, rfl⟩)

/-- No placeholder stands in a single character that begins none. -/
theorem standsIn_char_append {c : Char} (hc : c = '%' → Placeholder.readBody? s = none)
    {pre : Text} (h : p.StandsIn ([c] ++ s) pre) : ∃ pre', pre = [c] ++ pre' := by
  cases pre with
  | nil =>
    by_cases hp : c = '%'
    · subst hp
      have h : p.StandsIn ('%' :: s) [] := h
      obtain ⟨rest, hr⟩ := Placeholder.standsIn_nil_iff.1 h
      rw [hc rfl] at hr
      cases hr
    · exact absurd h (Placeholder.not_standsIn_nil hp)
  | cons d pre =>
    obtain rfl := (List.cons_prefix_cons.1 h.2).1
    exact ⟨pre, rfl⟩

/-- Of all placeholders only itself stands in a placeholder, for it has no other percent sign. -/
theorem standsIn_placeholder_append {q : Placeholder} (hq : q.Proper) {pre : Text}
    (h : p.StandsIn (q.source ++ s) pre) : pre = [] ∧ q = p ∨ ∃ pre', pre = q.source ++ pre' := by
  rw [q.source_eq, List.cons_append] at h
  cases pre with
  | nil =>
    obtain ⟨rest, hr⟩ := Placeholder.exists_readBody?_iff.2 ⟨hq, List.prefix_append q.body s⟩
    obtain ⟨rest', hr'⟩ := Placeholder.standsIn_nil_iff.1 h
    rw [hr] at hr'
    cases hr'
    exact .inl ⟨rfl, rfl⟩
  | cons d pre =>
    obtain ⟨rfl, post, hpost⟩ := List.cons_prefix_cons.1 h.2
    have hpost : pre ++ p.source ++ post = q.body ++ s := hpost
    rw [p.source_eq, List.append_assoc, List.cons_append, List.append_eq_append_iff] at hpost
    rcases hpost with ⟨x, hx, hs⟩ | ⟨x, rfl, -⟩
    · cases x with
      | nil => exact .inr ⟨[], by rw [q.source_eq, hx]; simp⟩
      | cons e x =>
        -- the percent sign of `p` would be inside of `q`
        obtain rfl := (List.cons.inj hs).1
        exact absurd (hx ▸ List.mem_append_right pre List.mem_cons_self) hq.percent_not_mem_body
    · exact .inr ⟨x, by rw [q.source_eq]; rfl⟩

/-- **Dividing a template finds every placeholder that stands in it.** -/
theorem divides_ofTemplate (s : Text) : Divides s (ofTemplate s) := by
  fun_induction ofTemplate s with
  | case1 =>
    refine ⟨rfl, fun pre p => ⟨fun h => ?_, ?_⟩⟩
    · have hnil := (List.append_eq_nil_iff.1 (List.prefix_nil.1 h.2)).2
      rw [p.source_eq] at hnil
      cases hnil
    · rintro ⟨before, after, h, -⟩
      exact absurd h.symm (by simp)
  | case2 s q rest h ih =>
    rw [Placeholder.eq_of_readBody? h]
    refine ih.cons (placeholder q) (by simp [source, q.source_eq]) ?_ fun pre p hp => ?_
    · rintro p ⟨⟩
      exact Placeholder.proper_of_readBody? h
    · exact (standsIn_placeholder_append (Placeholder.proper_of_readBody? h) hp).imp_left
        (And.imp_right (congrArg placeholder))
  | case3 s h ih =>
    exact ih.cons (char '%') (by simp [source]) (by rintro p ⟨⟩) fun pre p hp =>
      .inr (standsIn_char_append (fun _ => h) hp)
  | case4 c s hc ih =>
    exact ih.cons (char c) (by simp [source]) (by rintro p ⟨⟩) fun pre p hp =>
      .inr (standsIn_char_append (fun he => absurd he hc) hp)

/-- The placeholders of a template are proper. -/
theorem proper_of_mem_ofTemplate (h : placeholder p ∈ ofTemplate s) : p.Proper := by
  obtain ⟨before, after, hfrs⟩ := List.append_of_mem h
  exact ((divides_ofTemplate s).standsIn_iff _ p).2 ⟨before, after, hfrs, rfl⟩ |>.1

/-- Fragments without placeholders are the characters of their text. -/
theorem eq_map_char {frs : List Fragment} (h : ∀ p, placeholder p ∉ frs) :
    frs = (frs.flatMap source).map char := by
  induction frs with
  | nil => rfl
  | cons fr frs ih =>
    have ih := ih fun p hp => h p (List.mem_cons_of_mem fr hp)
    cases fr with
    | char c =>
      rw [List.flatMap_cons, List.map_append, ← ih]
      rfl
    | placeholder p => exact absurd List.mem_cons_self (h p)

/-- A template is nothing but characters exactly where no placeholder stands in it. -/
theorem ofTemplate_eq_map_char_iff :
    ofTemplate s = s.map char ↔ ∀ pre p, ¬ Placeholder.StandsIn p s pre := by
  have hd := divides_ofTemplate s
  constructor
  · intro h pre p hs
    obtain ⟨before, after, hfrs, -⟩ := (hd.standsIn_iff pre p).1 hs
    have hp : placeholder p ∈ s.map char := by
      rw [← h, hfrs]
      simp
    simp at hp
  · intro h
    have hno (p : Placeholder) : placeholder p ∉ ofTemplate s := fun hp => by
      obtain ⟨before, after, hfrs⟩ := List.append_of_mem hp
      exact h _ p ((hd.standsIn_iff _ p).2 ⟨before, after, hfrs, rfl⟩)
    have hchars := eq_map_char hno
    rwa [hd.source_eq] at hchars

/-! ## Nothing is left to compile

The digits of a position are characters that a lead may have.  So what was a placeholder is now a
lead that goes on to the dollar sign, and a placeholder needs a name between the two. -/

theorem isLead_of_mem_decimal {n : Nat} : ∀ c ∈ Numeral.decimal n, Placeholder.isLead c := by
  intro c hc
  obtain ⟨d, hd, rfl⟩ := List.mem_map.1 hc
  have hall : ∀ d < 10, Placeholder.isLead (Nat.digitChar d) := by decide
  exact hall d (Numeral.lt_ten_of_mem_digits hd)

theorem percent_not_mem_sourceWith {q : Placeholder} (hq : q.Proper) {w : Text}
    (hw : ∀ c ∈ w, Placeholder.isLead c) : '%' ∉ q.lead ++ w ++ ['$', q.conversion.letter] := by
  have hnot : ¬ Placeholder.isLead '%' := by decide
  simp only [List.mem_append, not_or]
  refine ⟨⟨fun hm => hnot (hq.lead '%' hm), fun hm => hnot (hw '%' hm)⟩, ?_⟩
  cases q.conversion <;> decide

/-- A position takes the place of a name as one more part of the lead, and no name follows. -/
theorem readBody?_sourceWith_eq_none {q : Placeholder} (hq : q.Proper) {w : Text}
    (hw : ∀ c ∈ w, Placeholder.isLead c) (rest : Text) :
    Placeholder.readBody? (q.lead ++ (w ++ '$' :: q.conversion.letter :: rest)) = none := by
  have hrun : Text.run Placeholder.isLead (q.lead ++ w ++ '$' :: q.conversion.letter :: rest) =
      (q.lead ++ w, '$' :: q.conversion.letter :: rest) :=
    Text.run_append_of_forall (List.forall_mem_append.2 ⟨hq.lead, hw⟩) (by rintro c ⟨⟩; decide)
  rw [← List.append_assoc, Placeholder.readBody?, hrun, Placeholder.readName?, if_neg (by decide)]

/-- **A template with lead characters in the place of names has no placeholders.** -/
theorem ofTemplate_flatMap_sourceWith {σ : Text → Text}
    (hσ : ∀ name, ∀ c ∈ σ name, Placeholder.isLead c) (s : Text) :
    ofTemplate ((ofTemplate s).flatMap (sourceWith σ)) =
      ((ofTemplate s).flatMap (sourceWith σ)).map char := by
  fun_induction ofTemplate s with
  | case1 => simp [ofTemplate]
  | case2 s q rest h ih =>
    have hq := Placeholder.proper_of_readBody? h
    rw [List.flatMap_cons, sourceWith, Placeholder.sourceWith, List.cons_append,
      ofTemplate_percent,
      ofTemplate_append_of_percent_not_mem (percent_not_mem_sourceWith hq (hσ q.name)), ih]
    · simp
    · simpa using readBody?_sourceWith_eq_none hq (hσ q.name) _
  | case3 s h ih =>
    rw [List.flatMap_cons, sourceWith, List.singleton_append, ofTemplate_percent, ih]
    · rfl
    · -- the text of a placeholder up to the next percent sign is in the template already
      refine Placeholder.readBody?_eq_none_iff.2 fun p hp hb => ?_
      have hb := prefix_sourceWith (τ := id) hp.percent_not_mem_body (x := []) hb
      rw [List.nil_append, ← source_eq_sourceWith, flatMap_source_ofTemplate] at hb
      exact Placeholder.readBody?_eq_none_iff.1 h p hp hb
  | case4 c s hc ih =>
    rw [List.flatMap_cons, sourceWith, List.singleton_append, ofTemplate_char hc, ih]
    rfl

end Fragment

/-! ## Compiling with a list of names

Each fragment is compiled by itself, and the first that fails ends the compilation.  As fragments
stand in the template in their order, the first of them that fails is the leftmost placeholder with
an undeclared name. -/

namespace FormatMap

variable {ns : List Text} {template : Text}

theorem positionFrom?_eq (name : Text) (i : Nat) (ns : List Text) :
    positionFrom? name i ns = if name ∈ ns then some (i + ns.idxOf name) else none := by
  induction ns generalizing i with
  | nil => rfl
  | cons n ns ih =>
    rw [positionFrom?]
    by_cases h : n = name
    · subst h
      simp
    · rw [if_neg h, ih, List.idxOf_cons_ne ns h]
      simp only [List.mem_cons, Ne.symm h, false_or]
      congr 2
      omega

/-- What is written for a name: its first position, counted from one. -/
def position (ns : List Text) (name : Text) : Text := Numeral.decimal (ns.idxOf name + 1)

theorem isLead_of_mem_position (ns : List Text) (name : Text) :
    ∀ c ∈ position ns name, Placeholder.isLead c :=
  Fragment.isLead_of_mem_decimal

/-- A declared placeholder is written with its position in the place of its name. -/
theorem compile_fragment_eq_ok {fr : Fragment} (h : ∀ p, fr = .placeholder p → p.name ∈ ns) :
    fr.compile ns template = .ok (fr.sourceWith (position ns)) := by
  cases fr with
  | char c => rfl
  | placeholder p =>
    rw [Fragment.compile, positionFrom?_eq, if_pos (h p rfl), Nat.add_comm]
    rfl

/-- A fragment fails only for an undeclared name, and the fault tells the name. -/
theorem compile_fragment_eq_error_iff {fr : Fragment} {e : Fault} :
    fr.compile ns template = .error e ↔
      ∃ p, fr = .placeholder p ∧ p.name ∉ ns ∧ e = .undeclared p.name template := by
  by_cases h : ∀ p, fr = .placeholder p → p.name ∈ ns
  · rw [compile_fragment_eq_ok h]
    constructor
    · rintro ⟨⟩
    · rintro ⟨p, hfr, hp, -⟩
      exact absurd (h p hfr) hp
  · push Not at h
    obtain ⟨p, rfl, hp⟩ := h
    rw [Fragment.compile, positionFrom?_eq, if_neg hp]
    constructor
    · rintro ⟨⟩
      exact ⟨p, rfl, hp, rfl⟩
    · rintro ⟨q, ⟨⟩, -, rfl⟩
      rfl

/-- Where all names are declared, positions are written for them. -/
theorem compileNames_eq_ok (h : ∀ p, .placeholder p ∈ Fragment.ofTemplate template → p.name ∈ ns) :
    compileNames ns template =
      .ok ((Fragment.ofTemplate template).flatMap (Fragment.sourceWith (position ns))) := by
  have hm : (Fragment.ofTemplate template).mapM (Fragment.compile ns template) =
      .ok ((Fragment.ofTemplate template).map (Fragment.sourceWith (position ns))) :=
    Fallible.mapM_eq_ok fun fr hfr => compile_fragment_eq_ok fun p hp => h p (hp ▸ hfr)
  rw [compileNames, hm, List.flatMap_def]
  rfl

/-- Compiling fails exactly at the first fragment whose name is not declared. -/
theorem compileNames_eq_error_iff {e : Fault} :
    compileNames ns template = .error e ↔ ∃ before p after,
      Fragment.ofTemplate template = before ++ .placeholder p :: after ∧
      (∀ q, .placeholder q ∈ before → q.name ∈ ns) ∧ p.name ∉ ns ∧
      e = .undeclared p.name template := by
  have hm : compileNames ns template = .error e ↔
      (Fragment.ofTemplate template).mapM (Fragment.compile ns template) = .error e := by
    rw [compileNames]
    cases (Fragment.ofTemplate template).mapM (Fragment.compile ns template) with
    | error e' => exact ⟨fun h => congrArg _ (Except.error.inj h), fun h => h ▸ rfl⟩
    | ok parts => constructor <;> rintro ⟨⟩
  rw [hm, Fallible.mapM_eq_error_iff]
  constructor
  · rintro ⟨before, fr, after, hfrs, hbefore, hfr⟩
    obtain ⟨p, rfl, hp, rfl⟩ := compile_fragment_eq_error_iff.1 hfr
    refine ⟨before, p, after, hfrs, fun q hq => ?_, hp, rfl⟩
    obtain ⟨r, hr⟩ := hbefore _ hq
    by_contra hn
    rw [compile_fragment_eq_error_iff.2 ⟨q, rfl, hn, rfl⟩] at hr
    cases hr
  · rintro ⟨before, p, after, hfrs, hbefore, hp, rfl⟩
    exact ⟨before, .placeholder p, after, hfrs,
      fun fr hfr => ⟨_, compile_fragment_eq_ok fun q hq => hbefore q (hq ▸ hfr)⟩,
      compile_fragment_eq_error_iff.2 ⟨p, rfl, hp, rfl⟩⟩

theorem name_mem_of_compileNames_eq_ok {compiled : Text}
    (h : compileNames ns template = .ok compiled) {p : Placeholder}
    (hp : .placeholder p ∈ Fragment.ofTemplate template) : p.name ∈ ns := by
  obtain ⟨parts, hparts, -⟩ := Fallible.exists_of_bind h
  obtain ⟨part, hpart⟩ := Fallible.exists_of_mem_of_mapM_eq_ok hparts hp
  by_contra hn
  rw [compile_fragment_eq_error_iff.2 ⟨p, rfl, hn, rfl⟩] at hpart
  cases hpart

/-- What is compiled is known as soon as compiling has not failed. -/
theorem eq_of_compileNames_eq_ok {compiled : Text} (h : compileNames ns template = .ok compiled) :
    compiled = (Fragment.ofTemplate template).flatMap (Fragment.sourceWith (position ns)) := by
  rw [compileNames_eq_ok fun p => name_mem_of_compileNames_eq_ok h] at h
  cases h
  rfl

/-- A template without placeholders is compiled to itself. -/
theorem compileNames_of_forall_char (h : Fragment.ofTemplate template = template.map .char) :
    compileNames ns template = .ok template := by
  have hsource : template.flatMap (fun c => Fragment.sourceWith (position ns) (.char c)) =
      template := List.flatMap_singleton' template
  rw [compileNames_eq_ok (by simp [h]), h, List.flatMap_map, hsource]

/-- What is compiled is compiled to itself from then on. -/
theorem compileNames_of_compileNames_eq_ok {compiled : Text}
    (h : compileNames ns template = .ok compiled) (ns' : List Text) :
    compileNames ns' compiled = .ok compiled := by
  rw [eq_of_compileNames_eq_ok h]
  exact compileNames_of_forall_char
    (Fragment.ofTemplate_flatMap_sourceWith (isLead_of_mem_position ns) template)

/-- An undeclared placeholder, and no other before it. -/
structure FirstUndeclared (ns : List Text) (template pre : Text) (p : Placeholder) : Prop where
  standsIn : p.StandsIn template pre
  name_not_mem : p.name ∉ ns
  length_le : ∀ pre' p', Placeholder.StandsIn p' template pre' → p'.name ∉ ns →
    pre.length ≤ pre'.length

theorem firstUndeclared_of_compileNames_eq_error {e : Fault}
    (h : compileNames ns template = .error e) :
    ∃ pre p, FirstUndeclared ns template pre p ∧ e = .undeclared p.name template := by
  have hd := Fragment.divides_ofTemplate template
  obtain ⟨before, p, after, hfrs, hbefore, hp, rfl⟩ := compileNames_eq_error_iff.1 h
  refine ⟨before.flatMap Fragment.source, p,
    ⟨(hd.standsIn_iff _ p).2 ⟨before, after, hfrs, rfl⟩, hp, fun pre' p' hs hp' => ?_⟩, rfl⟩
  obtain ⟨before', after', hfrs', rfl⟩ := (hd.standsIn_iff _ p').1 hs
  rw [hfrs, List.append_eq_append_iff] at hfrs'
  rcases hfrs' with ⟨x, rfl, -⟩ | ⟨x, rfl, hx⟩
  · simp
  · cases x with
    | nil => simp
    | cons fr x =>
      -- what stands before the first fault is declared
      cases hx
      exact absurd (hbefore p' (by simp)) hp'

/-- **What compiling with a list of names does.**  Either some placeholder that stands in the
template is undeclared, and the first such placeholder is the fault; or all of them are declared,
each name is replaced by its first position, counted from one, and what comes out is compiled to
itself with every other list of names. -/
theorem compile_names_spec (ns : List Text) (template : Text) :
    (∃ pre p, FirstUndeclared ns template pre p ∧
      (names ns).compile template = .error (.undeclared p.name template)) ∨
    ((∀ pre p, Placeholder.StandsIn p template pre → p.name ∈ ns) ∧
      ∃ frs compiled, (names ns).compile template = .ok compiled ∧
        Fragment.Divides template frs ∧
        compiled = frs.flatMap (Fragment.sourceWith (position ns)) ∧
        ∀ ns', (names ns').compile compiled = .ok compiled) := by
  have hd := Fragment.divides_ofTemplate template
  cases hc : compileNames ns template with
  | error e =>
    obtain ⟨pre, p, hp, rfl⟩ := firstUndeclared_of_compileNames_eq_error hc
    exact .inl ⟨pre, p, hp, hc⟩
  | ok compiled =>
    refine .inr ⟨fun pre p hs => ?_, _, _, hc, hd, eq_of_compileNames_eq_ok hc,
      compileNames_of_compileNames_eq_ok hc⟩
    obtain ⟨before, after, hfrs, -⟩ := (hd.standsIn_iff pre p).1 hs
    exact name_mem_of_compileNames_eq_ok hc (by simp [hfrs])

end FormatMap
end Stencil
