import Stencil.Proofs.FormatMap.Named

/-!
# Placeholders with a lead

The position of a name is put right behind the lead of its placeholder, so the two are read as one.
What is read then depends on the lead (`Lead.glued`).

* After a precision, the position makes the precision a number before a dollar sign, which sets no
  size.  Flags and width stay, the precision is gone, and the value is the next argument: that of
  the first name.
* Without a precision but with a flag other than a zero, the same happens to the width.
* Where all flags are zeros, these, the width and the position are the digits of one number, and
  that is the position of the value.

So a placeholder prints its own value only in some cases, and `Formatter.formatNamed_lead` says what
it prints in all of them.
-/

set_option autoImplicit false

namespace Stencil

open Grammar

/-! ## Leads

The three parts of a lead are taken apart here as they are written.  What becomes of them is said by
two definitions, `Lead.glued` for what is read and `Lead.kept` for what of the lead is still there
afterwards; each of them has three cases, for which there is a lemma. -/

/-- A lead that is made of flags, a width and a precision, the sizes being numbers. -/
structure Lead where
  flags : List Flag
  width : Option Text
  precision : Option Text
  deriving DecidableEq, Repr

namespace Lead

/-- The text of a lead. -/
def source (l : Lead) : Text :=
  l.flags.map Flag.char ++ (l.width.getD [] ++ l.precision.elim [] fun ds => '.' :: ds)

/-- A number in ASCII digits. -/
def IsNumber (ds : Text) : Prop := ds ≠ [] ∧ ∀ c ∈ ds, c.isDigit

/-- A lead as it is written.  A width does not begin with a zero, which would be a flag. -/
structure Proper (l : Lead) : Prop where
  width : ∀ ds, l.width = some ds → IsNumber ds ∧ ds.head? ≠ some '0'
  precision : ∀ ds, l.precision = some ds → IsNumber ds

theorem proper_flags (fs : List Flag) : Proper ⟨fs, none, none⟩ where
  width := by rintro ds ⟨⟩
  precision := by rintro ds ⟨⟩

/-- All flags are zeros. -/
def onlyZeros (l : Lead) : Bool := l.flags.all fun f => f = .zero

theorem onlyZeros_iff {l : Lead} : l.onlyZeros ↔ ∀ f ∈ l.flags, f = .zero := by
  simp [onlyZeros]

/-- The digits in front of a precision: zeros, if they are all flags, and the width. -/
def digits (l : Lead) : Text := l.flags.map Flag.char ++ l.width.getD []

/-- What is left of a lead when a position is put behind it: all in front of the last size, and
nothing if that has only digits. -/
def kept (l : Lead) : Lead :=
  if l.precision.isSome then { l with precision := none }
  else if l.onlyZeros then ⟨[], none, none⟩
  else ⟨l.flags, none, none⟩

/-- The position that is read when `i` is put behind a lead: the number that all digits make, or
the first where they make none. -/
def position (l : Lead) (i : Nat) : Except Fault Nat :=
  if l.precision.isNone && l.onlyZeros then digitsNumber (l.digits ++ Numeral.decimal i) else .ok 1

/-- The directive that is read when `i` is put behind a lead. -/
def glued (l : Lead) (i : Nat) (v : Conversion) : Spec :=
  match l.precision with
  | some ds =>
    ⟨none, l.flags, l.width.map .literal, some (.ignored (ds ++ Numeral.decimal i)), none, v⟩
  | none =>
    if l.onlyZeros then Spec.bare (some (l.digits ++ Numeral.decimal i)) v
    else ⟨none, l.flags, some (.ignored (l.width.getD [] ++ Numeral.decimal i)), none, none, v⟩

/-- A lead with a conversion and nothing between them. -/
def spec (l : Lead) (v : Conversion) : Spec :=
  ⟨none, l.flags, l.width.map .literal, l.precision.map .literal, none, v⟩

@[simp] theorem glued_of_precision {l : Lead} {ds : Text} (h : l.precision = some ds) (i : Nat)
    (v : Conversion) :
    l.glued i v = ⟨none, l.flags, l.width.map .literal, some (.ignored (ds ++ Numeral.decimal i)),
      none, v⟩ := by
  rw [glued, h]

@[simp] theorem glued_of_onlyZeros {l : Lead} (h : l.precision = none) (hz : l.onlyZeros) (i : Nat)
    (v : Conversion) : l.glued i v = Spec.bare (some (l.digits ++ Numeral.decimal i)) v := by
  rw [glued, h]
  exact if_pos hz

@[simp] theorem glued_of_not_onlyZeros {l : Lead} (h : l.precision = none) (hz : ¬ l.onlyZeros)
    (i : Nat) (v : Conversion) : l.glued i v =
      ⟨none, l.flags, some (.ignored (l.width.getD [] ++ Numeral.decimal i)), none, none, v⟩ := by
  rw [glued, h]
  exact if_neg hz

/-! ## The directives that are read

Each case of `Lead.glued` is shown to be canonical, so that it is read back from its source, and its
source is shown to be the lead with the position behind it. -/

theorem isDecimalDigit_of_isDigit {c : Char} (h : c.isDigit) : Text.isDecimalDigit c := by
  obtain ⟨h0, h9⟩ := Char.isDigit_iff_toNat.1 h
  have hv : Text.digitValue? c = some (c.toNat - 0x0030) := by
    rw [Text.digitValue?, Text.decimalZeros, List.find?_cons_of_pos]
    · rfl
    · simpa using ⟨h0, Nat.lt_succ_of_le h9⟩
  rw [Text.isDecimalDigit, hv]
  rfl

theorem IsNumber.isDigits {ds : Text} (h : IsNumber ds) : IsDigits ds :=
  ⟨h.1, fun c hc => isDecimalDigit_of_isDigit (h.2 c hc)⟩

theorem isDigit_of_mem_width {l : Lead} (h : l.Proper) : ∀ c ∈ l.width.getD [], c.isDigit := by
  intro c hc
  cases hw : l.width with
  | none =>
    rw [hw] at hc
    cases hc
  | some ds =>
    rw [hw] at hc
    exact (h.width ds hw).1.2 c hc

theorem isDigits_width_append {l : Lead} (h : l.Proper) (i : Nat) :
    IsDigits (l.width.getD [] ++ Numeral.decimal i) :=
  IsDigits.append (fun c hc => isDecimalDigit_of_isDigit (isDigit_of_mem_width h c hc))
    (Numeral.isDigits_decimal i)

theorem isDigits_digits_append {l : Lead} (h : l.Proper) (hz : l.onlyZeros) (i : Nat) :
    IsDigits (l.digits ++ Numeral.decimal i) := by
  rw [digits, List.append_assoc]
  exact IsDigits.append (Spec.forall_isDecimalDigit_zeros (onlyZeros_iff.1 hz))
    (isDigits_width_append h i)

/-- The number that takes the place of the width does not begin with a zero. -/
theorem head?_width_append {l : Lead} (h : l.Proper) {i : Nat} (hi : 0 < i) :
    (l.width.getD [] ++ Numeral.decimal i).head? ≠ some '0' := by
  cases hw : l.width with
  | none => exact Numeral.head?_decimal_ne_zero hi
  | some ds =>
    obtain ⟨hds, h0⟩ := h.width ds hw
    obtain ⟨d, ds, rfl⟩ := List.exists_cons_of_ne_nil hds.1
    exact h0

theorem written_literal {w : Option Text} (h : ∀ ds, w = some ds → IsNumber ds) :
    ∀ z, w.map SizeSpec.literal = some z → z.Written := by
  intro z hz
  obtain ⟨ds, hds, rfl⟩ := Option.map_eq_some_iff.1 hz
  exact (h ds hds).isDigits

theorem followsFlags_literal {l : Lead} (h : l.Proper) :
    ∀ z, l.width.map SizeSpec.literal = some z → z.FollowsFlags := by
  intro z hz
  obtain ⟨ds, hds, rfl⟩ := Option.map_eq_some_iff.1 hz
  exact (h.width ds hds).2

theorem map_literal_ne_ignored (w : Option Text) (ds : Text) :
    w.map SizeSpec.literal ≠ some (.ignored ds) := by
  cases w <;> simp

/-- A lead without a position is read as it is. -/
theorem canonical_spec {l : Lead} (h : l.Proper) (v : Conversion) : (l.spec v).Canonical where
  written := {
    position := by rintro ds ⟨⟩
    width := written_literal fun ds hds => (h.width ds hds).1
    precision := written_literal h.precision }
  width := followsFlags_literal h
  position := fun _ _ => map_literal_ne_ignored l.width

/-- Whatever the lead is, the directive that is said to be read is in the form that reading
gives. -/
theorem canonical_glued {l : Lead} (h : l.Proper) {i : Nat} (hi : 0 < i) (v : Conversion) :
    (l.glued i v).Canonical := by
  -- the same three ways as for the output: precision, position, width
  cases hp : l.precision with
  | some ds =>
    rw [glued_of_precision hp]
    exact {
      written := {
        position := by rintro ds ⟨⟩
        width := written_literal fun ds hds => (h.width ds hds).1
        precision := by
          rintro z ⟨⟩
          exact IsDigits.append (h.precision ds hp).isDigits.2 (Numeral.isDigits_decimal i) }
      width := followsFlags_literal h
      position := fun _ _ => map_literal_ne_ignored l.width }
  | none =>
    by_cases hz : l.onlyZeros
    · rw [glued_of_onlyZeros hp hz]
      exact Spec.canonical_bare (by rintro ds ⟨⟩; exact isDigits_digits_append h hz i) v
    · rw [glued_of_not_onlyZeros hp hz]
      exact {
        written := {
          position := by rintro ds ⟨⟩
          width := by
            rintro z ⟨⟩
            exact isDigits_width_append h i
          precision := by rintro z ⟨⟩ }
        width := by
          rintro z ⟨⟩
          exact .inl (head?_width_append h hi)
        position := fun _ hall => absurd (onlyZeros_iff.2 hall) hz }

theorem source_spec (l : Lead) (v : Conversion) :
    (l.spec v).source = '%' :: (l.source ++ [v.letter]) := by
  obtain ⟨flags, width, precision⟩ := l
  cases width <;> cases precision <;> simp [spec, source, Spec.source, SizeSpec.source]

/-- The directive that is said to be read has the text of the lead with the position behind it.
-/
theorem source_glued (l : Lead) (i : Nat) (v : Conversion) :
    (l.glued i v).source = '%' :: (l.source ++ (Numeral.decimal i ++ ['$', v.letter])) := by
  cases hp : l.precision with
  | some ds =>
    rw [glued_of_precision hp]
    cases hw : l.width <;> simp [source, Spec.source, SizeSpec.source, hp, hw]
  | none =>
    by_cases hz : l.onlyZeros
    · rw [glued_of_onlyZeros hp hz]
      simp [source, digits, Spec.bare, Spec.source, hp]
    · rw [glued_of_not_onlyZeros hp hz]
      simp [source, Spec.source, SizeSpec.source, hp]

@[simp] theorem kept_of_precision {l : Lead} {ds : Text} (h : l.precision = some ds) :
    l.kept = { l with precision := none } := by
  rw [kept, h]
  rfl

@[simp] theorem kept_of_onlyZeros {l : Lead} (h : l.precision = none) (hz : l.onlyZeros) :
    l.kept = ⟨[], none, none⟩ := by
  rw [kept, h]
  exact if_pos hz

@[simp] theorem kept_of_not_onlyZeros {l : Lead} (h : l.precision = none) (hz : ¬ l.onlyZeros) :
    l.kept = ⟨l.flags, none, none⟩ := by
  rw [kept, h]
  exact if_neg hz

@[simp] theorem position_of_onlyZeros {l : Lead} (h : l.precision = none) (hz : l.onlyZeros)
    (i : Nat) : l.position i = digitsNumber (l.digits ++ Numeral.decimal i) := by
  rw [position, h, hz]
  rfl

theorem position_of_not {l : Lead} (h : l.precision.isSome ∨ ¬ l.onlyZeros) (i : Nat) :
    l.position i = .ok 1 := by
  rw [position, if_neg]
  rw [Bool.and_eq_true, Option.isNone_iff_eq_none]
  rintro ⟨hn, hz⟩
  rcases h with h | h
  · rw [hn] at h
    cases h
  · exact h hz

theorem kept_proper {l : Lead} (h : l.Proper) : l.kept.Proper := by
  cases hp : l.precision with
  | some ds =>
    rw [kept_of_precision hp]
    exact ⟨h.width, by rintro ds ⟨⟩⟩
  | none =>
    by_cases hz : l.onlyZeros
    · rw [kept_of_onlyZeros hp hz]
      exact proper_flags []
    · rw [kept_of_not_onlyZeros hp hz]
      exact proper_flags l.flags

/-! ## What is printed

Formatting sees only the directive that is read, so what is printed is what this directive prints.
For most leads it takes the next argument, whichever name the placeholder has, and the argument of
its own name is printed only where these two are the same or where all digits make up the position
(`Lead.KeepsValue`). -/

/-- A lead with a conversion, formatted with a single argument. -/
theorem formatWith_source [Nesting] (l : Lead) (v : Conversion) (x : Value) :
    formatWith ('%' :: (l.source ++ [v.letter])) (.tuple [x]) = format (l.spec v).source [x] := by
  rw [formatWith_tuple, source_spec]

/-- A lead that is written in front of a letter is the lead that is understood. -/
theorem formatWith_eq_output [Nesting] {l : Lead} (h : l.Proper) (v : Conversion) (x : Value) :
    formatWith ('%' :: (l.source ++ [v.letter])) (.tuple [x]) =
      (l.spec v).decode >>= fun d => d.output (d.operands (Cursor.start [x])).1 := by
  rw [formatWith_source, format_source (canonical_spec h v)]

end Lead

/-- A directive that takes the next argument and has no precision is understood when its width
is. -/
theorem Spec.decode_next {s : Spec} (hp : s.position = none)
    (hr : SizeSpec.decode? s.precision = .ok none) :
    s.decode = SizeSpec.decode? s.width >>= fun w =>
      .ok ⟨s.source, s.conversion, none, s.flags, w, none, s.length⟩ := by
  rw [decode, hp, hr]
  rfl

/-- A width that is a number is the same for all arguments, and takes none of them. -/
theorem SizeSpec.alike_literal (w : Option Text) :
    Fallible.Alike (fun r r' => r = r' ∧ ∃ o, ∀ c, Size.operand? c r = (o, c))
      (decode? (w.map literal)) (decode? (w.map literal)) := by
  refine Fallible.Alike.self fun r hr => ⟨rfl, ?_⟩
  cases w with
  | none =>
    cases hr
    exact ⟨none, fun _ => rfl⟩
  | some ds =>
    rw [Option.map_some, decode?, decode] at hr
    cases hd : digitsNumber ds with
    | error e =>
      rw [hd] at hr
      cases hr
    | ok n =>
      rw [hd] at hr
      cases hr
      exact ⟨some (.literal n), fun _ => rfl⟩

namespace Lead

/-- **What a placeholder with a lead prints**: the lead is cut, and the value is not always its
own. -/
theorem format_glued [Nesting] {l : Lead} (h : l.Proper) {i : Nat} (hi : 0 < i) (v : Conversion)
    (vs : List Value) : format (l.glued i v).source vs = l.position i >>= fun n =>
      formatWith ('%' :: (l.kept.source ++ [v.letter])) (.tuple [(Cursor.start vs).get n]) := by
  -- the index joins the precision, or the width, or it becomes a position
  cases hp : l.precision with
  | some ds =>
    rw [position_of_not (.inl (by rw [hp]; rfl)), Fallible.ok_bind, formatWith_source]
    refine format_source_congr (canonical_glued h hi v) (canonical_spec (kept_proper h) v) ?_
    rw [glued_of_precision hp, kept_of_precision hp, Spec.decode_next rfl rfl,
      Spec.decode_next rfl rfl]
    refine (SizeSpec.alike_literal l.width).bind fun w w' hw => ?_
    obtain ⟨rfl, o, ho⟩ := hw
    refine ⟨rfl, rfl, ?_⟩
    rw [Directive.operands, Directive.operands, ho, ho]
    rfl
  | none =>
    -- zeros in front and an index are a position, so the directive is bare
    by_cases hz : l.onlyZeros
    · rw [position_of_onlyZeros hp hz, kept_of_onlyZeros hp hz, glued_of_onlyZeros hp hz,
        format_source (glued_of_onlyZeros hp hz i v ▸ canonical_glued h hi v)]
      cases hd : digitsNumber (l.digits ++ Numeral.decimal i) with
      | error e =>
        rw [Spec.decode, Spec.bare, Option.mapM_some, hd]
        rfl
      | ok n =>
        rw [Spec.decode, Spec.bare, Option.mapM_some, hd, Fallible.ok_bind]
        refine Eq.trans ?_ (formatWith_letter v ((Cursor.start vs).get n)).symm
        exact Directive.format_eq_bareOutput (by rintro f ⟨⟩) _
    · rw [position_of_not (.inr hz), Fallible.ok_bind, formatWith_source]
      refine format_source_congr (canonical_glued h hi v) (canonical_spec (kept_proper h) v) ?_
      rw [glued_of_not_onlyZeros hp hz, kept_of_not_onlyZeros hp hz]
      exact ⟨rfl, rfl, rfl⟩

/-- The cases in which the own value is printed, for a name at position `i`. -/
def KeepsValue (l : Lead) (i : Nat) : Prop :=
  l.width = none ∧ l.precision = none ∧
    if l.onlyZeros then l.flags.length + Numeral.decimalLength i ≤ Numeral.digitLimit else i = 1

theorem map_char_of_onlyZeros {l : Lead} (hz : l.onlyZeros) :
    l.flags.map Flag.char = List.replicate l.flags.length '0' := by
  rw [List.eq_replicate_iff]
  refine ⟨List.length_map _, fun c hc => ?_⟩
  obtain ⟨f, hf, rfl⟩ := List.mem_map.1 hc
  rw [onlyZeros_iff.1 hz f hf]
  rfl

theorem KeepsValue.position_eq_ok {l : Lead} {i : Nat} (h : l.KeepsValue i) :
    l.position i = .ok i := by
  obtain ⟨hw, hp, hcase⟩ := h
  split at hcase
  · rename_i hz
    rw [position_of_onlyZeros hp hz, digits, map_char_of_onlyZeros hz, hw, Option.getD_none,
      List.append_nil, digitsNumber_zeros_append hcase]
  · rename_i hz
    rw [position_of_not (.inr hz), hcase]

/-- Flags that are all zeros change nothing on their own. -/
theorem formatWith_onlyZeros [Nesting] {l : Lead} (hw : l.width = none) (hp : l.precision = none)
    (hz : l.onlyZeros) (v : Conversion) (x : Value) :
    formatWith ('%' :: (l.source ++ [v.letter])) (.tuple [x]) = Directive.bareOutput v x := by
  obtain ⟨flags, width, precision⟩ := l
  cases hw
  cases hp
  rw [formatWith_source, format_source (canonical_spec (proper_flags flags) v)]
  exact Directive.format_eq_bareOutput (onlyZeros_iff.1 hz) x

/-- Where the own value is printed, what is cut from the lead does not matter. -/
theorem KeepsValue.formatWith_kept [Nesting] {l : Lead} {i : Nat} (h : l.KeepsValue i)
    (v : Conversion) (x : Value) :
    formatWith ('%' :: (l.kept.source ++ [v.letter])) (.tuple [x]) =
      formatWith ('%' :: (l.source ++ [v.letter])) (.tuple [x]) := by
  obtain ⟨hw, hp, -⟩ := h
  by_cases hz : l.onlyZeros
  · rw [kept_of_onlyZeros hp hz, formatWith_onlyZeros hw hp hz]
    exact formatWith_onlyZeros rfl rfl rfl v x
  · rw [kept_of_not_onlyZeros hp hz, ← hw]
    obtain ⟨flags, width, precision⟩ := l
    cases hw
    cases hp
    rfl

end Lead

/-- The values of names in order, read by position. -/
def FormatMap.valueAt (es : List (Value × Value)) (ns : List Text) (n : Nat) : Value :=
  (Cursor.start (ns.map fun name => Source.arguments.lookup name es)).get n

/-- The value at the position of a name is the value of the name. -/
theorem FormatMap.valueAt_of_indexOf? (es : List (Value × Value)) {ns : List Text} {name : Text}
    {i : Nat} (h : (names ns).indexOf? name = some (i : Int)) :
    0 < i ∧ valueAt es ns i = Source.arguments.lookup name es := by
  have hplaced : (names ns).IsPlaced := trivial
  obtain ⟨args, hargs, hget⟩ := exists_arguments hplaced es
  obtain ⟨h1, hvalue⟩ := hget name i h
  rw [arguments_names] at hargs
  cases hargs
  exact ⟨by omega, hvalue 0⟩

theorem Flag.isLead_char (f : Flag) : Placeholder.isLead f.char := by
  cases f <;> decide

/-- Flags and sizes make a lead. -/
theorem Lead.isLead_of_mem_source {l : Lead} (h : l.Proper) :
    ∀ c ∈ l.source, Placeholder.isLead c := by
  have hdigit {c : Char} (hc : c.isDigit) : Placeholder.isLead c := by
    rw [Placeholder.isLead, hc, Bool.true_or]
  intro c hc
  rw [source, List.mem_append, List.mem_append] at hc
  rcases hc with hc | hc | hc
  · obtain ⟨f, -, rfl⟩ := List.mem_map.1 hc
    exact f.isLead_char
  · exact hdigit (isDigit_of_mem_width h c hc)
  · cases hp : l.precision with
    | none =>
      rw [hp] at hc
      cases hc
    | some ds =>
      rw [hp] at hc
      rcases List.mem_cons.1 hc with rfl | hc
      · decide
      · exact hdigit ((h.precision ds hp).2 c hc)

/-- A placeholder with a lead is compiled to the directive that its position makes with the lead. -/
theorem FormatMap.compileNames_lead {ns : List Text} (hns : ∀ n ∈ ns, Placeholder.IsIdentifier n)
    {l : Lead} (hl : l.Proper) {name : Text} {i : Nat}
    (hi : (names ns).indexOf? name = some (i : Int)) (v : Conversion) :
    compileNames ns ('%' :: (l.source ++ (name ++ ['$', v.letter]))) =
      .ok (l.glued i v).source := by
  obtain ⟨k, hk, -⟩ := Option.map_eq_some_iff.1 hi
  have hp : Placeholder.Proper ⟨l.source, name, v⟩ :=
    ⟨l.isLead_of_mem_source hl, hns name (mem_of_positionFrom? hk)⟩
  have hproper : ∀ fr ∈ [Fragment.placeholder ⟨l.source, name, v⟩], fr.Proper := by
    intro fr hfr
    obtain rfl := List.mem_singleton.1 hfr
    exact hp
  have hdeclared : ∀ p, Fragment.placeholder p ∈ [Fragment.placeholder ⟨l.source, name, v⟩] →
      (names ns).Declares p.name := by
    intro p hp
    cases List.mem_singleton.1 hp
    exact Option.isSome_of_eq_some hi
  have htext : (names ns).indexText name = Numeral.decimal i := indexText_of_indexOf? hi
  have hsource : '%' :: (l.source ++ (name ++ ['$', v.letter])) =
      [Fragment.placeholder ⟨l.source, name, v⟩].flatMap Fragment.source := by
    simp [Fragment.source, Placeholder.source, Placeholder.sourceWith]
  rw [hsource, compileNames_flatMap_source hproper hdeclared, Lead.source_glued]
  simp [Fragment.sourceWith, Placeholder.sourceWith, htext]

/-- Formatting by name is formatting the values of the names by position. -/
theorem Formatter.formatNamed_eq_position [Nesting] {ns : List Text}
    (hns : ∀ n ∈ ns, Placeholder.IsIdentifier n) {l : Lead} (hl : l.Proper) {name : Text} {i : Nat}
    (hi : (FormatMap.names ns).indexOf? name = some (i : Int)) (v : Conversion) (f : Formatter)
    (es : List (Value × Value)) :
    (f.formatNamed Cache.empty ('%' :: (l.source ++ (name ++ ['$', v.letter]))) (.dict es)
      (.formatMap (.names ns))).1 = l.position i >>= fun n =>
        formatWith ('%' :: (l.kept.source ++ [v.letter])) (.tuple [FormatMap.valueAt es ns n]) := by
  rw [formatNamed_dict rfl (FormatMap.arguments_names es ns)
    (FormatMap.compileNames_lead hns hl hi v)]
  exact l.format_glued hl (FormatMap.valueAt_of_indexOf? es hi).1 v _

/-- **What formatting by name prints for a placeholder with a lead.**  The position of the name and
the lead are read as one, so what is left of the lead is printed for the value at `Lead.position`.
That is the own value in the cases of `Lead.KeepsValue`, and then nothing is missing. -/
theorem Formatter.formatNamed_lead [Nesting] {ns : List Text}
    (hns : ∀ n ∈ ns, Placeholder.IsIdentifier n) {l : Lead} (hl : l.Proper) {name : Text} {i : Nat}
    (hi : (FormatMap.names ns).indexOf? name = some (i : Int)) (v : Conversion) (f : Formatter)
    (es : List (Value × Value)) :
    let output := (f.formatNamed Cache.empty ('%' :: (l.source ++ (name ++ ['$', v.letter])))
      (.dict es) (.formatMap (.names ns))).1
    (output = l.position i >>= fun n =>
      formatWith ('%' :: (l.kept.source ++ [v.letter])) (.tuple [FormatMap.valueAt es ns n])) ∧
    (l.KeepsValue i → output =
      formatWith ('%' :: (l.source ++ [v.letter])) (.tuple [Source.arguments.lookup name es])) := by
  have houtput := formatNamed_eq_position hns hl hi v f es
  refine ⟨houtput, fun hk => ?_⟩
  rw [houtput, hk.position_eq_ok, Fallible.ok_bind,
    (FormatMap.valueAt_of_indexOf? es hi).2, hk.formatWith_kept]

theorem Placeholder.isIdentifier_of_mem_pair {c d : Char} (hc : isNameStart c)
    (hd : isNameStart d) : ∀ n ∈ [[c], [d]], IsIdentifier n := by
  intro n hn
  simp only [List.mem_cons, List.not_mem_nil, or_false] at hn
  rcases hn with rfl | rfl
  · exact ⟨c, [], rfl, hc, by simp⟩
  · exact ⟨d, [], rfl, hd, by simp⟩

/-- With a flag in front of it, the second name prints the value of the first. -/
theorem Formatter.formatNamed_lead_ne :
    (formatNamed ⟨.standard⟩ Cache.empty "%-b$s".toList
        (.dict [(.text ['a'], .text ['x']), (.text ['b'], .text ['y'])])
        (.formatMap (.names [['a'], ['b']]))).1 ≠
      formatWith "%-s".toList (.tuple [Source.arguments.lookup ['b']
        [(.text ['a'], .text ['x']), (.text ['b'], .text ['y'])]]) := by
  have hns := Placeholder.isIdentifier_of_mem_pair (c := 'a') (d := 'b') (by decide) (by decide)
  have hleft := Lead.proper_flags [.left]
  have hflag : ¬ Lead.onlyZeros ⟨[.left], none, none⟩ := by decide
  have htext : "%-b$s".toList = '%' :: (Lead.source ⟨[.left], none, none⟩ ++
      (['b'] ++ ['$', Conversion.string.letter])) := by decide
  have hfirst : (formatNamed ⟨.standard⟩ Cache.empty "%-b$s".toList
      (.dict [(.text ['a'], .text ['x']), (.text ['b'], .text ['y'])])
      (.formatMap (.names [['a'], ['b']]))).1 = .ok ['x'] := by
    rw [htext, formatNamed_eq_position hns hleft (i := 2) rfl, Lead.position_of_not (.inr hflag),
      Fallible.ok_bind, Lead.formatWith_eq_output (Lead.kept_proper hleft)]
    rfl
  have hown : formatWith "%-s".toList (.tuple [Source.arguments.lookup ['b']
      [(.text ['a'], .text ['x']), (.text ['b'], .text ['y'])]]) = .ok ['y'] :=
    Lead.formatWith_eq_output hleft .string _
  rw [hfirst, hown]
  intro h
  injection h with h
  exact absurd h (by decide)

/-- A minus gives the second name the value of the first, and a zero leaves it its own. -/
theorem Formatter.formatNamed_lead_second :
    (∀ n ∈ [['a'], ['b']], Placeholder.IsIdentifier n) ∧
      (FormatMap.names [['a'], ['b']]).indexOf? ['b'] = some ((2 : Nat) : Int) ∧
      Lead.Proper ⟨[.left], none, none⟩ ∧
      (formatNamed ⟨.standard⟩ Cache.empty "%-b$s".toList
        (.dict [(.text ['a'], .text ['x']), (.text ['b'], .text ['y'])])
        (.formatMap (.names [['a'], ['b']]))).1 = .ok ['x'] ∧
      Lead.Proper ⟨[.zero], none, none⟩ ∧ Lead.KeepsValue ⟨[.zero], none, none⟩ 2 ∧
      (formatNamed ⟨.standard⟩ Cache.empty "%0b$s".toList
        (.dict [(.text ['a'], .text ['x']), (.text ['b'], .text ['y'])])
        (.formatMap (.names [['a'], ['b']]))).1 = .ok ['y'] := by
  have hns := Placeholder.isIdentifier_of_mem_pair (c := 'a') (d := 'b') (by decide) (by decide)
  have hi : (FormatMap.names [['a'], ['b']]).indexOf? ['b'] = some ((2 : Nat) : Int) := rfl
  have hleft := Lead.proper_flags [.left]
  have hflag : ¬ Lead.onlyZeros ⟨[.left], none, none⟩ := by decide
  have hzero := Lead.proper_flags [.zero]
  have hkeeps : Lead.KeepsValue ⟨[.zero], none, none⟩ 2 := ⟨rfl, rfl, by decide⟩
  have hminus : "%-b$s".toList = '%' :: (Lead.source ⟨[.left], none, none⟩ ++
      (['b'] ++ ['$', Conversion.string.letter])) := by decide
  have htext : "%0b$s".toList = '%' :: (Lead.source ⟨[.zero], none, none⟩ ++
      (['b'] ++ ['$', Conversion.string.letter])) := by decide
  refine ⟨hns, hi, hleft, ?_, hzero, hkeeps, ?_⟩
  · rw [hminus, (formatNamed_lead hns hleft hi .string _ _).1, Lead.position_of_not (.inr hflag),
      Fallible.ok_bind, Lead.formatWith_eq_output (Lead.kept_proper hleft)]
    rfl
  · rw [htext, (formatNamed_lead hns hzero hi .string _ _).2 hkeeps,
      Lead.formatWith_eq_output hzero]
    rfl

end Stencil
