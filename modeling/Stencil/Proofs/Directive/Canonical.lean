import Stencil.Proofs.Directive.Grammar

/-!
# Directives read back

A text may be the source of several specs, and reading chooses one of them.  `Spec.Canonical` says
which: zeros belong to the flags as long as they can, and digits with a dollar sign belong to the
position if they can.

A canonical spec is read back from its source, whatever follows (`Spec.readBody?_body_append`).

Reading goes from left to right and never back, and each reader stops where it can go no further. So
the proof needs two things of every part of a spec:

* what the reader of this part takes from a text that begins with it (`Flag.readAll_map_append`,
  `SizeSpec.read?_source_append`, `Spec.readPrecision?_append`), and
* that the part after it does not begin with a character that this reader would take as well.

The second is where the parts get into each other's way, since zeros are flags, digits and parts of
numbers.  Behind the width this is over: whatever follows begins with a closer (`Closes`), which is
neither a flag nor a digit, a dollar sign or a star.
-/

set_option autoImplicit false

namespace Stencil

open Grammar

/-! ## Where the readers stop

A run of characters ends at the first one that does not belong to it, and a number with a dollar
sign is one only if the dollar sign is there.  What comes next decides both. -/

namespace Text

/-- A run is taken as a whole and no further, if what follows does not go on with it. -/
theorem run_append_of_forall {p : Char → Bool} {s t : Text} (hs : ∀ c ∈ s, p c)
    (ht : ∀ c, t.head? = some c → p c = false) : run p (s ++ t) = (s, t) := by
  have h0 : t.takeWhile p = [] ∧ t.dropWhile p = t := by
    cases t with
    | nil => exact ⟨rfl, rfl⟩
    | cons c t => simp [ht c rfl]
  rw [run, List.takeWhile_append_of_pos hs, List.dropWhile_append_of_pos hs, h0.1, h0.2,
    List.append_nil]

theorem forall_mem_of_run {p : Char → Bool} {s ds rest : Text} (h : run p s = (ds, rest)) :
    ∀ c ∈ ds, p c := by
  obtain rfl : s.takeWhile p = ds := congrArg Prod.fst h
  exact List.all_eq_true.1 List.all_takeWhile

/-- A text without the character `c` does not reach over it. -/
theorem prefix_of_not_mem {c : Char} {s t u : Text} (h : s <+: t ++ c :: u) (hc : c ∉ s) :
    s <+: t := by
  induction s generalizing t with
  | nil => exact List.nil_prefix
  | cons a s ih =>
    cases t with
    | nil =>
      obtain rfl := (List.cons_prefix_cons.1 h).1
      exact absurd List.mem_cons_self hc
    | cons b t =>
      obtain ⟨rfl, hp⟩ := List.cons_prefix_cons.1 h
      exact List.cons_prefix_cons.2 ⟨rfl, ih hp fun hm => hc (List.mem_cons_of_mem a hm)⟩

/-- Digits and a dollar sign are a number with a dollar sign. -/
theorem dollarNumber?_append {ds : Text} (h : IsDigits ds) (t : Text) :
    dollarNumber? (ds ++ '$' :: t) = some (ds, t) := by
  have hr : run isDecimalDigit (ds ++ '$' :: t) = (ds, '$' :: t) :=
    run_append_of_forall h.2 (by rintro c ⟨⟩; decide)
  obtain ⟨d, ds, rfl⟩ := List.exists_cons_of_ne_nil h.1
  rw [dollarNumber?, hr]
  rfl

/-- Digits after which no dollar sign comes are not. -/
theorem dollarNumber?_eq_none {ds t : Text} (h : ∀ c ∈ ds, isDecimalDigit c)
    (ht : ∀ c, t.head? = some c → isDecimalDigit c = false ∧ c ≠ '$') :
    dollarNumber? (ds ++ t) = none := by
  rw [dollarNumber?, run_append_of_forall h fun c hc => (ht c hc).1]
  split
  · rename_i he
    cases he
    exact absurd rfl (ht '$' rfl).2
  · rfl

theorem dollarNumber?_of_head {t : Text}
    (ht : ∀ c, t.head? = some c → isDecimalDigit c = false ∧ c ≠ '$') : dollarNumber? t = none := by
  have hnil : ∀ c ∈ ([] : Text), isDecimalDigit c := by simp
  exact dollarNumber?_eq_none hnil ht

theorem isDigits_of_dollarNumber? {s ds rest : Text} (h : dollarNumber? s = some (ds, rest)) :
    IsDigits ds := by
  rw [dollarNumber?] at h
  split at h
  · rename_i hr
    cases h
    exact ⟨by simp, forall_mem_of_run hr⟩
  · cases h

end Text

namespace Flag

/-- Flags are read up to the first character that is none. -/
theorem readAll_map_append (fs : List Flag) {t : Text}
    (ht : ∀ c, t.head? = some c → ofChar? c = none) : readAll (fs.map char ++ t) = (fs, t) := by
  induction fs with
  | nil =>
    cases t with
    | nil => rfl
    | cons c t => simp [readAll, ht c rfl]
  | cons f fs ih => simp [readAll, ofChar?_char, ih]

theorem ofChar?_head_readAll {s : Text} {c : Char} (h : (readAll s).2.head? = some c) :
    ofChar? c = none := by
  induction s with
  | nil => cases h
  | cons d s ih =>
    rw [readAll] at h
    split at h
    · exact ih h
    · rename_i hd
      cases h
      exact hd

/-- Of the digits only the zero is a flag. -/
theorem ofChar?_of_isDecimalDigit {c : Char} (h : Text.isDecimalDigit c) (h0 : c ≠ '0') :
    ofChar? c = none := by
  cases hf : ofChar? c with
  | none => rfl
  | some f =>
    obtain rfl := char_of_ofChar? hf
    cases f with
    | zero => exact absurd rfl h0
    | _ => exact absurd h (by decide)

end Flag

namespace SizeSpec

/-- Without a star, a size is a number with a dollar sign if it can be, and otherwise a number. -/
theorem read?_of_head?_ne {s : Text} (h : s.head? ≠ some '*') :
    read? s =
      match Text.dollarNumber? s with
      | some (ds, rest) => some (ignored ds, rest)
      | none =>
        match Text.run Text.isDecimalDigit s with
        | ([], _) => none
        | (ds, rest) => some (literal ds, rest) := by
  rw [read?.eq_def]
  split
  · exact absurd rfl h
  · rfl

theorem head?_append_ne_star {ds t : Text} (h : IsDigits ds) : (ds ++ t).head? ≠ some '*' := by
  obtain ⟨d, ds, rfl⟩ := List.exists_cons_of_ne_nil h.1
  rintro ⟨⟩
  exact absurd (h.2 '*' List.mem_cons_self) (by decide)

/-- A size with a proper number is read back when neither a digit nor a dollar sign follows. -/
theorem read?_source_append {z : SizeSpec} (hz : z.Written) {t : Text}
    (ht : ∀ c, t.head? = some c → Text.isDecimalDigit c = false ∧ c ≠ '$') :
    read? (z.source ++ t) = some (z, t) := by
  cases z with
  | next =>
    have hn : Text.dollarNumber? t = none := Text.dollarNumber?_of_head ht
    simp [source, read?, hn]
  | argument ds =>
    have hs := Text.dollarNumber?_append hz t
    simp [source, read?, hs]
  | literal ds =>
    have hn := Text.dollarNumber?_eq_none hz.2 ht
    have hr := Text.run_append_of_forall hz.2 fun c hc => (ht c hc).1
    obtain ⟨d, ds, rfl⟩ := List.exists_cons_of_ne_nil hz.1
    rw [source, read?_of_head?_ne (head?_append_ne_star hz), hn, hr]
  | ignored ds =>
    rw [source, List.append_assoc, read?_of_head?_ne (head?_append_ne_star hz)]
    show (match Text.dollarNumber? (ds ++ '$' :: t) with
      | some (ds, rest) => some (ignored ds, rest)
      | none => _) = _
    rw [Text.dollarNumber?_append hz]

theorem written_of_read? {s rest : Text} {z : SizeSpec} (h : read? s = some (z, rest)) :
    z.Written := by
  rw [read?.eq_def] at h
  split at h
  · split at h
    · rename_i hd
      cases h
      exact Text.isDigits_of_dollarNumber? hd
    · cases h
      trivial
  · split at h
    · rename_i hd
      cases h
      exact Text.isDigits_of_dollarNumber? hd
    · split at h
      · cases h
      · rename_i ds _ hne hr
        cases h
        exact ⟨hne, Text.forall_mem_of_run hr⟩

end SizeSpec

/-! ## What follows a width

Nothing that stands behind a width begins with a character that a width or a flag could go on with.
One list of characters is enough to see this, for it does not matter which of the parts is the first
that is there. -/

/-- The characters that may follow flags and width: a point, a length letter, a conversion
letter. -/
def closers : Text := '.' :: 'h' :: 'l' :: 'L' :: Conversion.all.map Conversion.letter

theorem closers_spec : ∀ c ∈ closers, Text.isDecimalDigit c = false ∧ Flag.ofChar? c = none ∧
    c ≠ '$' ∧ c ≠ '*' := by
  have h : closers.all fun c => !Text.isDecimalDigit c && (Flag.ofChar? c).isNone && c != '$' &&
      c != '*' := by decide
  intro c hc
  simpa [and_assoc] using List.all_eq_true.1 h c hc

/-- A text that begins with a closer. -/
def Closes (t : Text) : Prop := ∃ c s, c ∈ closers ∧ t = c :: s

namespace Closes

variable {t : Text}

theorem head (h : Closes t) {c : Char} (hc : t.head? = some c) :
    Text.isDecimalDigit c = false ∧ Flag.ofChar? c = none ∧ c ≠ '$' ∧ c ≠ '*' := by
  obtain ⟨d, s, hd, rfl⟩ := h
  cases hc
  exact closers_spec _ hd

theorem noNumber (h : Closes t) :
    ∀ c, t.head? = some c → Text.isDecimalDigit c = false ∧ c ≠ '$' :=
  fun _ hc => ⟨(h.head hc).1, (h.head hc).2.2.1⟩

theorem dollarNumber? (h : Closes t) : Text.dollarNumber? t = none :=
  Text.dollarNumber?_of_head h.noNumber

/-- A missing width is read as missing. -/
theorem sizeRead? (h : Closes t) : SizeSpec.read? t = none := by
  have hr : Text.run Text.isDecimalDigit t = ([], t) :=
    Text.run_append_of_forall (s := []) (by simp) fun c hc => (h.noNumber c hc).1
  rw [SizeSpec.read?_of_head?_ne fun hc => (h.head hc).2.2.2 rfl, h.dollarNumber?, hr]

end Closes

/-- The text of an optional precision. -/
def precisionSource (r : Option SizeSpec) : Text := r.elim [] fun p => '.' :: p.source

/-- The text of an optional length modifier and a conversion letter. -/
def endSource (l : Option Length) (v : Conversion) : Text := l.elim [] Length.letters ++ [v.letter]

theorem closes_endSource (l : Option Length) (v : Conversion) (rest : Text) :
    Closes (endSource l v ++ rest) := by
  have hv : v.letter ∈ closers := by
    refine List.mem_append_right ['.', 'h', 'l', 'L'] (List.mem_map_of_mem v.mem_all)
  rcases l with _ | l
  · exact ⟨v.letter, rest, hv, rfl⟩
  · cases l <;> exact ⟨_, _, by decide, rfl⟩

theorem closes_precisionSource (r : Option SizeSpec) (l : Option Length) (v : Conversion)
    (rest : Text) : Closes (precisionSource r ++ (endSource l v ++ rest)) := by
  rcases r with _ | z
  · exact closes_endSource l v rest
  · exact ⟨'.', _, List.mem_cons_self, rfl⟩

theorem Length.read_endSource (l : Option Length) (v : Conversion) (rest : Text) :
    read (endSource l v ++ rest) = (l, v.letter :: rest) := by
  rcases l with _ | l
  · cases v <;> rfl
  · cases l <;> cases v <;> rfl

namespace Spec

theorem readPrecision?_append {r : Option SizeSpec} (hr : ∀ z, r = some z → z.Written)
    (l : Option Length) (v : Conversion) (rest : Text) :
    readPrecision? (precisionSource r ++ (endSource l v ++ rest)) =
      some (r, endSource l v ++ rest) := by
  have hc := closes_endSource l v rest
  rcases r with _ | z
  · have hp : (endSource l v ++ rest).head? ≠ some '.' := by
      rcases l with _ | l
      · cases v <;> rintro ⟨⟩
      · cases l <;> rintro ⟨⟩
    show readPrecision? (endSource l v ++ rest) = _
    generalize endSource l v ++ rest = t at hp
    rw [readPrecision?]
    rintro s rfl
    exact hp rfl
  · show (SizeSpec.read? (z.source ++ (endSource l v ++ rest))).map _ = _
    rw [SizeSpec.read?_source_append (hr z rfl) hc.noNumber]
    rfl

/-- Flags and width are read one after the other, if no dollar sign stands behind the flags: only
there the zeros that were taken for flags are the number of a width. -/
theorem readFlagsWidth_of_readAll {s u : Text} {fs : List Flag} (h : Flag.readAll s = (fs, u))
    (hu : u.head? ≠ some '$') :
    readFlagsWidth s =
      match SizeSpec.read? u with
      | some (width, rest) => (fs, some width, rest)
      | none => (fs, none, u) := by
  rw [readFlagsWidth, h]
  split
  · rename_i he
    cases he
    exact absurd rfl hu
  · rename_i he
    cases he
    rfl

end Spec

/-- A width that can follow flags: its number does not begin with a zero, which would be a flag.
Only before a dollar sign a single zero can stand, when nothing else is left for it. -/
def SizeSpec.FollowsFlags : SizeSpec → Prop
  | next | argument _ => True
  | literal ds => ds.head? ≠ some '0'
  | ignored ds => ds.head? ≠ some '0' ∨ ds = ['0']

theorem Grammar.isDigits_zero : IsDigits ['0'] := by
  refine ⟨List.cons_ne_nil '0' [], fun c hc => ?_⟩
  rw [List.mem_singleton.1 hc]
  decide

theorem Flag.ofChar?_of_head?_append {ds t : Text} (h : IsDigits ds) (h0 : ds.head? ≠ some '0')
    {c : Char} (hc : (ds ++ t).head? = some c) : ofChar? c = none := by
  obtain ⟨d, ds, rfl⟩ := List.exists_cons_of_ne_nil h.1
  cases hc
  exact ofChar?_of_isDecimalDigit (h.2 c List.mem_cons_self) fun he => h0 (by rw [he]; rfl)

theorem Grammar.IsDigits.head?_append_ne_dollar {ds : Text} (h : IsDigits ds) (t : Text) :
    (ds ++ t).head? ≠ some '$' := by
  obtain ⟨d, ds, rfl⟩ := List.exists_cons_of_ne_nil h.1
  rintro ⟨⟩
  exact absurd (h.2 '$' List.mem_cons_self) (by decide)

namespace Spec

/-- Flags and width are read back as they are, if the width leaves the zeros to the flags. -/
theorem readFlagsWidth_source_append (fs : List Flag) {w : Option SizeSpec}
    (hw : ∀ z, w = some z → z.Written ∧ z.FollowsFlags) {t : Text} (ht : Closes t) :
    readFlagsWidth (fs.map Flag.char ++ (w.elim [] SizeSpec.source ++ t)) = (fs, w, t) := by
  rcases w with _ | z
  · have hf : Flag.readAll (fs.map Flag.char ++ t) = (fs, t) :=
      Flag.readAll_map_append fs fun c hc => (ht.head hc).2.1
    rw [Option.elim_none, List.nil_append,
      readFlagsWidth_of_readAll hf fun hc => (ht.head hc).2.2.1 rfl, ht.sizeRead?]
  · obtain ⟨hz, hff⟩ := hw z rfl
    have hr := SizeSpec.read?_source_append hz ht.noNumber
    rw [Option.elim_some]
    -- all widths but a single zero with a dollar sign begin where the flags end
    have hmain (h1 : ∀ c, (z.source ++ t).head? = some c → Flag.ofChar? c = none)
        (h2 : (z.source ++ t).head? ≠ some '$') :
        readFlagsWidth (fs.map Flag.char ++ (z.source ++ t)) = (fs, some z, t) := by
      rw [readFlagsWidth_of_readAll (Flag.readAll_map_append fs h1) h2, hr]
    cases z with
    | next => exact hmain (by rintro c ⟨⟩; decide) (by rintro ⟨⟩)
    | argument ds => exact hmain (by rintro c ⟨⟩; decide) (by rintro ⟨⟩)
    | literal ds =>
      exact hmain (fun c hc => Flag.ofChar?_of_head?_append hz hff hc) (hz.head?_append_ne_dollar t)
    | ignored ds =>
      rcases hff with h0 | rfl
      · refine hmain (fun c hc => ?_) ?_
        · rw [SizeSpec.source, List.append_assoc] at hc
          exact Flag.ofChar?_of_head?_append hz h0 hc
        · rw [SizeSpec.source, List.append_assoc]
          exact hz.head?_append_ne_dollar _
      · have hf : Flag.readAll ((fs ++ [Flag.zero]).map Flag.char ++ '$' :: t) =
            (fs ++ [Flag.zero], '$' :: t) :=
          Flag.readAll_map_append _ (by rintro c ⟨⟩; decide)
        rw [List.map_append, List.append_assoc] at hf
        show readFlagsWidth (fs.map Flag.char ++ ([Flag.zero].map Flag.char ++ '$' :: t)) = _
        rw [readFlagsWidth, hf]
        simp

/-! ## Canonical specs

A spec fails to be read back for two reasons only.  Its width may begin with a zero, which is read
as a flag; or zeros and a number with a dollar sign may stand where the position is looked for.
Canonical specs are those with neither. -/

/-- A spec in the form in which reading gives it: its numbers are proper, zeros belong to the flags
as long as they can, and what can be a position is one. -/
structure Canonical (s : Spec) : Prop where
  written : s.Written
  width : ∀ z, s.width = some z → z.FollowsFlags
  position : s.position = none → (∀ f ∈ s.flags, f = .zero) → ∀ ds, s.width ≠ some (.ignored ds)

theorem body_append (s : Spec) (rest : Text) :
    s.body ++ rest =
      s.position.elim [] (· ++ ['$']) ++ (s.flags.map Flag.char ++
        (s.width.elim [] SizeSpec.source ++ (precisionSource s.precision ++
          (endSource s.length s.conversion ++ rest)))) := by
  simp only [body, precisionSource, endSource, List.append_assoc]

theorem forall_isDecimalDigit_zeros {fs : List Flag} (h : ∀ f ∈ fs, f = .zero) :
    ∀ c ∈ fs.map Flag.char, Text.isDecimalDigit c := by
  intro c hc
  obtain ⟨f, hf, rfl⟩ := List.mem_map.1 hc
  rw [h f hf]
  decide

/-- Flags and width that are no position do not begin with a number and a dollar sign. -/
theorem dollarNumber?_flags_width {fs : List Flag} {w : Option SizeSpec}
    (hw : ∀ z, w = some z → z.Written)
    (hp : (∀ f ∈ fs, f = .zero) → ∀ ds, w ≠ some (.ignored ds)) {t : Text} (ht : Closes t) :
    Text.dollarNumber? (fs.map Flag.char ++ (w.elim [] SizeSpec.source ++ t)) = none := by
  cases hf : fs.find? (· ≠ .zero) with
  | some f =>
    obtain ⟨hne, zeros, fs', rfl, hz⟩ := List.find?_eq_some_iff_append.1 hf
    have hz' : ∀ f ∈ zeros, f = .zero := fun f h => by simpa using hz f h
    rw [List.map_append, List.append_assoc]
    refine Text.dollarNumber?_eq_none (forall_isDecimalDigit_zeros hz') ?_
    rintro c ⟨⟩
    cases f with
    | zero => simp at hne
    | _ => decide
  | none =>
    have hz : ∀ f ∈ fs, f = .zero := fun f h => by simpa using List.find?_eq_none.1 hf f h
    have hd := forall_isDecimalDigit_zeros hz
    rcases w with _ | z
    · exact Text.dollarNumber?_eq_none hd ht.noNumber
    · cases z with
      | next => exact Text.dollarNumber?_eq_none hd (by rintro c ⟨⟩; decide)
      | argument ds => exact Text.dollarNumber?_eq_none hd (by rintro c ⟨⟩; decide)
      | literal ds =>
        rw [← List.append_assoc]
        exact Text.dollarNumber?_eq_none (IsDigits.append hd (hw _ rfl)).2 ht.noNumber
      | ignored ds => exact absurd rfl (hp hz ds)

/-- **A canonical spec is read back**, whatever follows its source. -/
theorem readBody?_body_append {s : Spec} (h : s.Canonical) (rest : Text) :
    readBody? (s.body ++ rest) = some (s, rest) := by
  have ht := closes_precisionSource s.precision s.length s.conversion rest
  have hp : readPosition (s.body ++ rest) = (s.position, s.flags.map Flag.char ++
      (s.width.elim [] SizeSpec.source ++ (precisionSource s.precision ++
        (endSource s.length s.conversion ++ rest)))) := by
    rw [body_append]
    rcases hpos : s.position with _ | ds
    · have hn := dollarNumber?_flags_width h.written.width (h.position hpos) ht
      rw [Option.elim_none, List.nil_append, readPosition, hn]
    · have hs := Text.dollarNumber?_append (h.written.position ds hpos) (s.flags.map Flag.char ++
        (s.width.elim [] SizeSpec.source ++ (precisionSource s.precision ++
          (endSource s.length s.conversion ++ rest))))
      rw [Option.elim_some, List.append_assoc, List.singleton_append, readPosition, hs]
  have hf := readFlagsWidth_source_append s.flags
    (fun z hz => ⟨h.written.width z hz, h.width z hz⟩) ht
  have hr := readPrecision?_append h.written.precision s.length s.conversion rest
  have hl := Length.read_endSource s.length s.conversion rest
  simp only [readBody?, hp, hf, hr, hl, Conversion.ofLetter?_letter, Option.map_some]

end Spec
end Stencil
