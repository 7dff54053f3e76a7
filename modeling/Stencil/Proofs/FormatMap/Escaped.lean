import Stencil.Proofs.FormatMap.Named
import Stencil.Proofs.FormatMap.Places

/-!
# Escaped templates with a list of names

A doubled percent sign is an escape for one percent sign where a template is formatted, but not
where it is compiled: a placeholder is found at the second percent sign of an escape as at any
other.  So the fragments of an escaped template are those of the template itself, each with one more
percent sign if it begins with one (`Fragment.ofTemplate_escaped`), and compiling goes through the
escapes (`FormatMap.compileNames_escaped`).

Formatting takes the escapes away again, and what is left is what compiling makes of the template
without them (`Formatter.formatNamed_escaped`).  An escaped template is its own output only where no
placeholder stands in it.
-/

set_option autoImplicit false

namespace Stencil

/-! ## Compiling goes through escapes

The fragments of an escaped text are those of the text, each escaped by itself, as dividing does not
know about escapes.  Positions have no percent sign, so it makes no difference whether they are
written before escaping or after. -/

/-- A text without a percent sign stands at the beginning if it does so after escaping. -/
theorem Text.prefix_of_prefix_escaped {w s : Text} (hw : '%' ∉ w) (h : w <+: s.escaped) :
    w <+: s := by
  induction w generalizing s with
  | nil => exact List.nil_prefix
  | cons d w ih =>
    rw [List.mem_cons, not_or] at hw
    cases s with
    | nil => exact absurd (List.prefix_nil.1 h) (List.cons_ne_nil d w)
    | cons c s =>
      by_cases hc : c = '%'
      · subst hc
        exact absurd (List.cons_prefix_cons.1 h).1 (Ne.symm hw.1)
      · rw [Text.escaped_char hc, List.cons_prefix_cons] at h
        exact List.cons_prefix_cons.2 ⟨h.1, ih hw.2 h.2⟩

namespace Fragment

/-- A fragment in an escaped template. -/
def escaped : Fragment → List Fragment
  | char c => if c = '%' then [char '%', char '%'] else [char c]
  | placeholder p => [char '%', placeholder p]

/-- **A template has the same placeholders after escaping.** -/
theorem ofTemplate_escaped (s : Text) : ofTemplate s.escaped = (ofTemplate s).flatMap escaped := by
  have hsecond (t : Text) : ofTemplate ('%' :: '%' :: t) = char '%' :: ofTemplate ('%' :: t) :=
    ofTemplate_percent (by rfl)
  fun_induction ofTemplate s with
  | case1 => simp [Text.escaped, ofTemplate]
  | case2 s p rest h ih =>
    have hp := Placeholder.proper_of_readBody? h
    have hs : Text.escaped s = p.body ++ rest.escaped := by
      have he := Placeholder.eq_of_readBody? h
      rw [p.source_eq, List.cons_append] at he
      rw [(List.cons.inj he).2, Text.escaped_append,
        Text.escaped_of_percent_not_mem hp.percent_not_mem_body]
    have hsource : '%' :: (p.body ++ rest.escaped) = p.source ++ rest.escaped := by
      rw [p.source_eq, List.cons_append]
    rw [Text.escaped_percent, hsecond, hs, hsource, ofTemplate_placeholder hp, ih]
    rfl
  | case3 s h ih =>
    have hnone : Placeholder.readBody? (Text.escaped s) = none := by
      refine Placeholder.readBody?_eq_none_iff.2 fun p hp hb => ?_
      exact Placeholder.readBody?_eq_none_iff.1 h p hp
        (Text.prefix_of_prefix_escaped hp.percent_not_mem_body hb)
    rw [Text.escaped_percent, hsecond, ofTemplate_percent hnone, ih]
    rfl
  | case4 c s hc ih =>
    rw [Text.escaped_char hc, ofTemplate_char hc, ih, List.flatMap_cons, escaped, if_neg hc]
    rfl

theorem placeholder_mem_flatMap_escaped {p : Placeholder} {frs : List Fragment} :
    placeholder p ∈ frs.flatMap escaped ↔ placeholder p ∈ frs := by
  have hfr (fr : Fragment) : placeholder p ∈ fr.escaped ↔ fr = placeholder p := by
    cases fr with
    | char c => by_cases hc : c = '%' <;> simp [escaped, hc]
    | placeholder q => simp [escaped, eq_comm]
  simp [List.mem_flatMap, hfr]

/-- Names may be replaced before escaping or after it. -/
theorem flatMap_sourceWith_escaped {σ : Text → Text}
    (hσ : ∀ name, ∀ c ∈ σ name, Placeholder.isLead c) {frs : List Fragment}
    (h : ∀ p, placeholder p ∈ frs → p.Proper) :
    (frs.flatMap escaped).flatMap (sourceWith σ) =
      Text.escaped (frs.flatMap (sourceWith σ)) := by
  induction frs with
  | nil => rfl
  | cons fr frs ih =>
    have ih := ih fun p hp => h p (List.mem_cons_of_mem fr hp)
    rw [List.flatMap_cons, List.flatMap_append, ih, List.flatMap_cons, Text.escaped_append]
    congr 1
    cases fr with
    | char c => by_cases hc : c = '%' <;> simp [escaped, sourceWith, Text.escaped, hc]
    | placeholder p =>
      have hp := percent_not_mem_sourceWith (h p List.mem_cons_self) (hσ p.name)
      show '%' :: p.sourceWith (σ p.name) ++ [] = Text.escaped (p.sourceWith (σ p.name))
      rw [List.append_nil, Placeholder.sourceWith, Text.escaped_percent,
        Text.escaped_of_percent_not_mem hp]

end Fragment

/-- The fault that names another template. -/
def Fault.inTemplate (template : Text) : Fault → Fault
  | undeclared name _ => undeclared name template
  | e => e

namespace FormatMap

variable {ns : List Text}

/-- **Compiling goes through escapes**, as if they were not there. -/
theorem compileNames_escaped (ns : List Text) (t : Text) :
    compileNames ns t.escaped =
      ((compileNames ns t).map Text.escaped).mapError (Fault.inTemplate t.escaped) := by
  cases hc : compileNames ns t with
  | ok compiled =>
    have hdeclared (p : Placeholder) (hp : .placeholder p ∈ Fragment.ofTemplate t.escaped) :
        p.name ∈ ns := by
      rw [Fragment.ofTemplate_escaped, Fragment.placeholder_mem_flatMap_escaped] at hp
      exact name_mem_of_compileNames_eq_ok hc hp
    rw [compileNames_eq_ok hdeclared, Fragment.ofTemplate_escaped, eq_of_compileNames_eq_ok hc,
      Fragment.flatMap_sourceWith_escaped (isLead_of_mem_position ns)
        fun p => Fragment.proper_of_mem_ofTemplate]
    rfl
  | error e =>
    obtain ⟨before, p, after, hfrs, hbefore, hp, rfl⟩ := compileNames_eq_error_iff.1 hc
    refine compileNames_eq_error_iff.2 ⟨before.flatMap Fragment.escaped ++ [.char '%'], p,
      after.flatMap Fragment.escaped, ?_, fun q hq => hbefore q ?_, hp, rfl⟩
    · rw [Fragment.ofTemplate_escaped, hfrs, List.flatMap_append, List.flatMap_cons,
        Fragment.escaped, List.append_assoc]
      rfl
    · simp only [List.mem_append, List.mem_singleton, reduceCtorEq, or_false] at hq
      exact Fragment.placeholder_mem_flatMap_escaped.1 hq

/-- A template that is one placeholder. -/
theorem compileNames_source {p : Placeholder} (h : p.Proper) (ns : List Text) :
    compileNames ns p.source =
      if p.name ∈ ns then .ok (p.sourceWith (position ns p.name))
      else .error (.undeclared p.name p.source) := by
  have hfrs : Fragment.ofTemplate p.source = [.placeholder p] := by
    have hp := Fragment.ofTemplate_placeholder h []
    rwa [List.append_nil, Fragment.ofTemplate] at hp
  split
  · rename_i hn
    rw [compileNames_eq_ok (by simp [hfrs, hn]), hfrs, List.flatMap_singleton]
    rfl
  · rename_i hn
    exact compileNames_eq_error_iff.2 ⟨[], p, [], hfrs, by simp, hn, rfl⟩

/-- Compiling leaves a template as it is exactly where no placeholder stands in it. -/
theorem compileNames_eq_self_iff (ns : List Text) {t : Text} :
    compileNames ns t = .ok t ↔ ∀ pre p, ¬ Placeholder.StandsIn p t pre := by
  rw [← Fragment.ofTemplate_eq_map_char_iff]
  constructor
  · intro h
    -- what has been compiled has no placeholders
    have hchars := Fragment.ofTemplate_flatMap_sourceWith (isLead_of_mem_position ns) t
    rwa [← eq_of_compileNames_eq_ok h] at hchars
  · exact compileNames_of_forall_char

end FormatMap

/-! ## Formatting takes the escapes away

What was compiled is the escape of what compiling makes of the template, so formatting gives just
this.  It is the template itself if compiling leaves it as it is. -/

namespace Formatter

variable {ns : List Text} {args : Value} {vs : List Value}

/-- A template that is not in the cache is compiled with the names, and formatted with some
arguments, by name or by position. -/
theorem exists_formatNamed_eq [Nesting] (h : args.items = .ok vs) {c : Cache} {template : Text}
    (hc : c.get? template = none) (f : Formatter) (ns : List Text) :
    ∃ vs', (f.formatNamed c template args (.formatMap (.names ns))).1 =
      FormatMap.compileNames ns template >>= fun compiled => format compiled vs' := by
  have hindexed : (f.formatCompiled c (.formatMap (.names ns)) template args).1 =
      FormatMap.compileNames ns template >>= fun compiled => format compiled vs := by
    simp only [f.formatCompiled_of_get?_eq_none hc, formatWith_eq_format h]
    rfl
  cases args with
  | dict es => exact ⟨_, formatNamed_dict_eq hc (FormatMap.arguments_names es ns) f⟩
  | _ => exact ⟨vs, hindexed⟩

theorem formatNamed_escaped_eq [Nesting] (h : args.items = .ok vs) (f : Formatter) (ns : List Text)
    (t : Text) :
    (f.formatNamed Cache.empty t.escaped args (.formatMap (.names ns))).1 =
      (FormatMap.compileNames ns t).mapError (Fault.inTemplate t.escaped) := by
  have hempty : Cache.empty.get? t.escaped = none := rfl
  obtain ⟨vs', hf⟩ := exists_formatNamed_eq h hempty f ns
  rw [hf, FormatMap.compileNames_escaped]
  cases FormatMap.compileNames ns t with
  | error e => rfl
  | ok compiled => exact format_escaped compiled vs'

/-- **The output of an escaped template is what compiling makes of the template**, so it is the
template only if no placeholder stands in it. -/
theorem formatNamed_escaped [Nesting] (h : args.items = .ok vs) (f : Formatter) (ns : List Text)
    (t : Text) :
    let output := (f.formatNamed Cache.empty t.escaped args (.formatMap (.names ns))).1
    output = ((FormatMap.names ns).compile t).mapError (Fault.inTemplate t.escaped) ∧
    (output = .ok t ↔ ∀ pre p, ¬ Placeholder.StandsIn p t pre) := by
  have houtput := formatNamed_escaped_eq h f ns t
  refine ⟨houtput, ?_⟩
  rw [← FormatMap.compileNames_eq_self_iff ns, houtput]
  cases FormatMap.compileNames ns t with
  | error e => exact ⟨nofun, nofun⟩
  | ok compiled => exact Iff.rfl

/-- The second percent sign of an escape begins a placeholder. -/
theorem formatNamed_escaped_ne :
    (formatNamed ⟨.standard⟩ Cache.empty "%%a$s".toList (.list [.text ['x']])
      (.formatMap (.names [['a']]))).1 ≠ .ok "%a$s".toList := by
  have hp : Placeholder.Proper ⟨[], ['a'], .string⟩ :=
    ⟨by simp, 'a', [], rfl, by decide, by simp⟩
  have htext : "%%a$s".toList = Text.escaped (Placeholder.source ⟨[], ['a'], .string⟩) := by decide
  have houtput : (formatNamed ⟨.standard⟩ Cache.empty "%%a$s".toList (.list [.text ['x']])
      (.formatMap (.names [['a']]))).1 = .ok "%1$s".toList := by
    rw [htext, formatNamed_escaped_eq rfl, FormatMap.compileNames_source hp]
    rfl
  rw [houtput]
  intro h
  injection h with h
  exact absurd h (by decide)

/-- A name that is not in the list is a fault, also in an escaped template. -/
theorem formatNamed_escaped_undeclared :
    (Value.list [.text ['x']]).items = .ok [.text ['x']] ∧
      (formatNamed ⟨.standard⟩ Cache.empty "%%a$s".toList (.list [.text ['x']])
        (.formatMap (.names [['b']]))).1 = .error (.undeclared ['a'] "%%a$s".toList) := by
  have hp : Placeholder.Proper ⟨[], ['a'], .string⟩ :=
    ⟨by simp, 'a', [], rfl, by decide, by simp⟩
  refine ⟨rfl, (formatNamed_escaped rfl ⟨.standard⟩ [['b']]
    (Placeholder.source ⟨[], ['a'], .string⟩)).1.trans ?_⟩
  rw [FormatMap.compile, FormatMap.compileNames_source hp]
  rfl

end Formatter
end Stencil
