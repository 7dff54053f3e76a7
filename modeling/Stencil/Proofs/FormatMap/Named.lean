import Stencil.Proofs.FormatMap.Slots
import Stencil.Proofs.FormatMap.Substitution
import Stencil.Proofs.Template.Formatting

/-!
# Formatting by name

A template with named placeholders is compiled to one with positions, and the arguments come in the
order of the slots of the map.  Where both fit together, each placeholder is filled with the value
of its name (`Formatter.formatNamed_flatMap_source`), as if it stood alone and its value were the
only argument (`Fragment.fill`).

`FormatMap.Suits` says which templates and maps these are.  A list of identifiers suits every
template with declared placeholders without a lead.  For pairs it is needed, apart from each index
being used once, that the names are told apart in the template, because they are substituted one
after the other.
-/

set_option autoImplicit false

namespace Stencil

open Grammar

/-! ## A directive that has nothing but a position

This is what a placeholder without a lead becomes.  Zeros among its flags would make no difference
without a width, so they are allowed for. -/

namespace Spec

/-- A directive with at most a position. -/
def bare (position : Option Text) (v : Conversion) : Spec := ⟨position, [], none, none, none, v⟩

theorem canonical_bare {position : Option Text} (h : ∀ ds, position = some ds → IsDigits ds)
    (v : Conversion) : (bare position v).Canonical where
  written := {
    position := h
    width := by rintro z ⟨⟩
    precision := by rintro z ⟨⟩ }
  width := by rintro z ⟨⟩
  position := by rintro - - ds ⟨⟩

end Spec

namespace Directive

/-- The output for a value of a directive that has nothing but a conversion. -/
def bareOutput [Nesting] (v : Conversion) (x : Value) : Except Fault Text :=
  format ⟨['%', v.letter], v, none, [], none, none, none⟩ ⟨none, none, x⟩

theorem format_eq_bareOutput [Nesting] {d : Directive} (h : ∀ f ∈ d.flags, f = .zero) (x : Value) :
    d.format ⟨none, none, x⟩ = bareOutput d.conversion x := by
  refine format_of_onlyZeros ?_ h ?_ x
  · rfl
  · rintro f ⟨⟩

end Directive

/-- A directive that takes the only argument. -/
theorem formatWith_letter [Nesting] (v : Conversion) (x : Value) :
    formatWith ['%', v.letter] (.tuple [x]) = Directive.bareOutput v x := by
  have hc : (Spec.bare none v).Canonical := Spec.canonical_bare (by rintro ds ⟨⟩) v
  have hs : ['%', v.letter] = (Spec.bare none v).source := rfl
  rw [formatWith_tuple, hs, format_source hc]
  rfl

/-! ## What a fragment becomes

A fragment stands for a character or for a directive with the position of its name.  The positions
are written out, so the cursor does not matter and each fragment can be formatted by itself. -/

namespace Fragment

/-- A placeholder filled with the value of its name, as a directive of its own. -/
def fill [Nesting] (es : List (Value × Value)) : Fragment → Except Fault Text
  | char c => .ok [c]
  | placeholder p =>
    formatWith ['%', p.conversion.letter] (.tuple [Source.arguments.lookup p.name es])

/-- The template with positions is formatted fragment by fragment. -/
theorem formatAll_flatMap_sourceWith [Nesting] {σ : Text → Text} {es : List (Value × Value)}
    {c : Cursor} {frs : List Fragment} (hchars : ∀ ch, char ch ∈ frs → ch ≠ '%')
    (hleads : ∀ p, placeholder p ∈ frs → p.lead = [])
    (hnames : ∀ p, placeholder p ∈ frs → ∃ n : Nat, n < 10 ^ Numeral.digitLimit ∧
      σ p.name = Numeral.decimal n ∧ c.get n = Source.arguments.lookup p.name es) :
    Lexeme.formatAll (Lexeme.ofTemplate (frs.flatMap (sourceWith σ))) c =
      (frs.mapM (fill es)).map List.flatten := by
  -- by induction on the fragments: each is read off the front of the text, whatever follows it
  induction frs with
  | nil =>
    rw [List.flatMap_nil, Lexeme.ofTemplate]
    rfl
  | cons fr frs ih =>
    have ih := ih (fun ch h => hchars ch (List.mem_cons_of_mem fr h))
      (fun p h => hleads p (List.mem_cons_of_mem fr h))
      fun p h => hnames p (List.mem_cons_of_mem fr h)
    rw [List.flatMap_cons, List.mapM_cons]
    cases fr with
    | char ch =>
      rw [sourceWith, List.singleton_append,
        Lexeme.ofTemplate_char (hchars ch List.mem_cons_self), Lexeme.formatAll_consChar, ih, fill]
      cases frs.mapM (fill es) <;> rfl
    | placeholder p =>
      obtain ⟨n, hn, hσ, hget⟩ := hnames p List.mem_cons_self
      -- without a lead the compiled placeholder is a bare directive with a position
      have hc : (Spec.bare (some (Numeral.decimal n)) p.conversion).Canonical :=
        Spec.canonical_bare (by rintro ds ⟨⟩; exact Numeral.isDigits_decimal n) p.conversion
      have hsource : p.sourceWith (σ p.name) =
          (Spec.bare (some (Numeral.decimal n)) p.conversion).source := by
        rw [Placeholder.sourceWith, hleads p List.mem_cons_self, hσ]
        simp [Spec.source, Spec.bare]
      have hd : (Spec.bare (some (Numeral.decimal n)) p.conversion).decode =
          .ok ⟨(Spec.bare (some (Numeral.decimal n)) p.conversion).source, p.conversion, some n, [],
            none, none, none⟩ := by
        rw [Spec.decode, Spec.bare, Option.mapM_some, digitsNumber_decimal hn]
        rfl
      rw [sourceWith, hsource, Spec.source_eq, List.cons_append,
        Lexeme.ofTemplate_directive (Spec.readBody?_body_append hc _),
        Lexeme.formatAll_directive hd, fill, formatWith_letter, ← hget]
      show (Directive.format _ ⟨none, none, c.get n⟩ >>= fun s =>
        Lexeme.formatAll _ c >>= fun t => .ok (s ++ t)) = _
      rw [Directive.format_eq_bareOutput (by rintro f ⟨⟩), ih]
      -- a fault of one placeholder is the fault of the whole on both sides
      cases Directive.bareOutput p.conversion (c.get n) with
      | error e => rfl
      | ok s => cases frs.mapM (fill es) <;> rfl

end Fragment

/-! ## Formatting by name

The map is used twice, once to compile the template and once to put the arguments in order.  What
has to be shown is that both uses agree on the position of a name. -/

/-- A template that is not in the cache is compiled, and then formatted. -/
theorem Formatter.formatCompiled_of_get?_eq_none [Nesting] {c : Cache} {template : Text}
    (hc : c.get? template = none) (f : Formatter) (m : FormatMap) (args : Value) :
    (f.formatCompiled c (.formatMap m) template args).1 =
      m.compile template >>= fun compiled => formatWith compiled args := by
  have hchoose : f.chooseMap (.formatMap m) = .ok m := rfl
  have hc' : ({ c with misses := c.misses + 1 } : Cache).get? template = none := hc
  rw [formatCompiled, compile, hchoose]
  simp only [Cache.compile, hc, Fallible.ok_bind]
  cases m.compile template with
  | error e => rfl
  | ok compiled => simp only [Fallible.ok_bind, Cache.store, hc']

/-- With a dictionary the arguments come from the slots of the map. -/
theorem Formatter.formatNamed_dict_eq [Nesting] {c : Cache} {template : Text}
    (hc : c.get? template = none) {m : FormatMap} {es : List (Value × Value)} {args : List Value}
    (hargs : m.slots >>= Source.arguments (.dict es) = .ok args) (f : Formatter) :
    (f.formatNamed c template (.dict es) (.formatMap m)).1 =
      m.compile template >>= fun compiled => format compiled args := by
  have hchoose : f.chooseMap (.formatMap m) = .ok m := rfl
  have hlist (t : Text) : formatWith t (.list args) = format t args := formatWith_eq_format rfl t
  rw [Formatter.formatNamed, hchoose]
  show (f.render c template (.named (.dict es) (.formatMap m))).1 = _
  rw [Formatter.render, hargs]
  show (f.formatCompiled c (.formatMap m) template (.list args)).1 = _
  simp only [formatCompiled_of_get?_eq_none hc, hlist]

theorem Formatter.formatNamed_dict [Nesting] {c : Cache} {m : FormatMap} {template compiled : Text}
    {es : List (Value × Value)} {args : List Value} (hc : c.get? template = none)
    (hargs : m.slots >>= Source.arguments (.dict es) = .ok args)
    (hm : m.compile template = .ok compiled) (f : Formatter) :
    (f.formatNamed c template (.dict es) (.formatMap m)).1 = format compiled args := by
  rw [formatNamed_dict_eq hc hargs, hm, Fallible.ok_bind]

namespace FormatMap

/-- The names of the map are such that they are found in a template as the names of placeholders,
and only so. -/
def IsFoundIn (frs : List Fragment) : FormatMap → Prop
  | names ns =>
    (∀ n ∈ ns, Placeholder.IsIdentifier n) ∧ ns.length < 10 ^ Numeral.digitLimit
  | pairs ps =>
    (ps.map (·.1)).Nodup ∧ (∀ p ∈ ps, IsPlain p.1 ∧ '%' ∉ p.1) ∧
      ∀ p ∈ ps, Fragment.OccursAsName p.1 frs

/-- Identifiers in pairs only have to be told apart. -/
theorem isFoundIn_pairs {ps : List (Text × Int)} {frs : List Fragment}
    (hnd : (ps.map (·.1)).Nodup) (hid : ∀ p ∈ ps, Placeholder.IsIdentifier p.1)
    (hocc : ∀ p ∈ ps, Fragment.OccursAsName p.1 frs) : (pairs ps).IsFoundIn frs :=
  ⟨hnd, fun p hp => ⟨.of_isIdentifier (hid p hp), (hid p hp).percent_not_mem⟩, hocc⟩

/-- A map and a template that fit together: the template is made of literal characters and of
placeholders without a lead, whose names are declared. -/
structure Suits (m : FormatMap) (frs : List Fragment) : Prop where
  placed : m.IsPlaced
  found : m.IsFoundIn frs
  chars : ∀ c, Fragment.char c ∈ frs → c ≠ '%'
  leads : ∀ p, Fragment.placeholder p ∈ frs → p.lead = []
  declared : ∀ p, Fragment.placeholder p ∈ frs → m.Declares p.name

/-- A name that has a position is one of the names. -/
theorem mem_of_positionFrom? {name : Text} {k i : Nat} {ns : List Text}
    (h : positionFrom? name k ns = some i) : name ∈ ns := by
  obtain ⟨n, -, hn⟩ := getElem?_of_positionFrom? h
  exact List.mem_of_getElem? hn

theorem natAbs_lt_of_le {i : Int} (h1 : 1 ≤ i) (h2 : i ≤ 2 ^ 31) :
    i.natAbs < 10 ^ Numeral.digitLimit := by
  have hpow : (10 : Nat) ^ 10 ≤ 10 ^ Numeral.digitLimit :=
    Nat.pow_le_pow_right (by decide) (by decide)
  omega

/-- A template that suits its map is compiled. -/
theorem Suits.compile_eq_ok {m : FormatMap} {frs : List Fragment} (h : m.Suits frs) :
    m.compile (frs.flatMap Fragment.source) =
      .ok (frs.flatMap (Fragment.sourceWith m.indexText)) := by
  cases m with
  | names ns =>
    refine compileNames_flatMap_source (fun fr hfr => ?_) h.declared
    cases fr with
    | char c => exact h.chars c hfr
    | placeholder p =>
      obtain ⟨i, hi⟩ := Option.isSome_iff_exists.1 (h.declared p hfr)
      obtain ⟨n, hn, -⟩ := Option.map_eq_some_iff.1 hi
      exact ⟨by rw [h.leads p hfr]; simp, h.found.1 p.name (mem_of_positionFrom? hn)⟩
  | pairs ps =>
    obtain ⟨hnd, hplain, hocc⟩ := h.found
    refine compilePairs_flatMap_source {
      placeholders := fun p hp => ⟨by rw [h.leads p hp]; simp, ?_⟩
      names := hnd
      plain := fun p hp => (hplain p hp).1
      percent := fun p hp => (hplain p hp).2
      digits := fun p hp => Numeral.decimalLength_le (by decide) ?_
      occurs := hocc }
    · obtain ⟨i, hi⟩ := Option.isSome_iff_exists.1 (h.declared p hp)
      exact (hplain _ (exists_pair_of_indexOf? hi)).1.ne_nil
    · exact natAbs_lt_of_le (h.placed.2 p hp).1 (h.placed.2 p hp).2

/-- The position that is written for a name is the position of its value. -/
theorem Suits.exists_position {m : FormatMap} {frs : List Fragment} (h : m.Suits frs)
    {name : Text} (hd : m.Declares name) :
    ∃ n : Nat, n < 10 ^ Numeral.digitLimit ∧ m.indexOf? name = some (n : Int) ∧
      m.indexText name = Numeral.decimal n := by
  obtain ⟨i, hi⟩ := Option.isSome_iff_exists.1 hd
  cases m with
  | names ns =>
    obtain ⟨k, hk, rfl⟩ := Option.map_eq_some_iff.1 hi
    obtain ⟨n, rfl, hn⟩ := getElem?_of_positionFrom? hk
    have hlt : n < ns.length := (List.getElem?_eq_some_iff.1 hn).1
    have hlen := h.found.2
    exact ⟨1 + n, by omega, hi, indexText_of_indexOf? (n := 1 + n) hi⟩
  | pairs ps =>
    obtain ⟨h1, h2⟩ := h.placed.2 _ (exists_pair_of_indexOf? hi)
    have hi' : ((i.natAbs : Nat) : Int) = i := by omega
    rw [← hi'] at hi
    exact ⟨i.natAbs, natAbs_lt_of_le h1 h2, hi, indexText_of_indexOf? hi⟩

end FormatMap

/-- **Formatting by name fills each placeholder with the value of its name.**  The first one that
cannot be filled makes it fail, and for the same reason. -/
theorem Formatter.formatNamed_flatMap_source [Nesting] {m : FormatMap} {frs : List Fragment}
    (h : m.Suits frs) (f : Formatter) (es : List (Value × Value)) :
    (f.formatNamed Cache.empty (frs.flatMap Fragment.source) (.dict es) (.formatMap m)).1 =
      (frs.mapM (Fragment.fill es)).map List.flatten := by
  obtain ⟨args, hargs, hget⟩ := FormatMap.exists_arguments h.placed es
  rw [Formatter.formatNamed_dict rfl hargs h.compile_eq_ok, format]
  refine Fragment.formatAll_flatMap_sourceWith h.chars h.leads fun p hp => ?_
  obtain ⟨n, hn, hi, htext⟩ := h.exists_position (h.declared p hp)
  exact ⟨n, hn, htext, (hget p.name n hi).2 0⟩

/-- The pairs are out of order and leave a gap, and one name has no value. -/
theorem Formatter.formatNamed_gap :
    FormatMap.Suits (.pairs [(['b'], 3), (['a'], 1)])
        [.placeholder ⟨[], ['b'], .string⟩, .char '-', .placeholder ⟨[], ['a'], .string⟩] ∧
      (formatNamed ⟨.standard⟩ Cache.empty "%b$s-%a$s".toList (.dict [(.text ['a'], .text ['x'])])
        (.formatMap (.pairs [(['b'], 3), (['a'], 1)]))).1 = .ok "<undef>-x".toList := by
  have h : FormatMap.Suits (.pairs [(['b'], 3), (['a'], 1)])
      [.placeholder ⟨[], ['b'], .string⟩, .char '-', .placeholder ⟨[], ['a'], .string⟩] := {
    placed := ⟨by decide, by decide⟩
    found := by
      refine FormatMap.isFoundIn_pairs (by decide) ?_ ?_
      · intro p hp
        simp only [List.mem_cons, List.not_mem_nil, or_false] at hp
        rcases hp with rfl | rfl
        · exact ⟨'b', [], rfl, by decide, List.forall_mem_nil _⟩
        · exact ⟨'a', [], rfl, by decide, List.forall_mem_nil _⟩
      · intro p hp
        simp only [List.mem_cons, List.not_mem_nil, or_false] at hp
        rcases hp with rfl | rfl
        · refine Fragment.occursAsName_of_drop (by decide) fun k hk hp => ?_
          obtain rfl : k = 1 := by
            revert k
            decide
          exact ⟨[], _, _, rfl, rfl, rfl⟩
        · refine Fragment.occursAsName_of_drop (by decide) fun k hk hp => ?_
          obtain rfl : k = 6 := by
            revert k
            decide
          exact ⟨[.placeholder ⟨[], ['b'], .string⟩, .char '-'], _, _, rfl, rfl, rfl⟩
    chars := by simp
    leads := by simp
    declared := by simp [FormatMap.Declares, FormatMap.indexOf?] }
  refine ⟨h, (formatNamed_flatMap_source h _ _).trans ?_⟩
  simp only [List.mapM_cons, List.mapM_nil, Fragment.fill, formatWith_letter]
  rfl

end Stencil
