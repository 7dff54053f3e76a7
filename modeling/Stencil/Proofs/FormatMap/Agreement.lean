import Stencil.Proofs.FormatMap.Places

/-!
# Names and pairs compile alike

A list of names is compiled in one pass over the placeholders of a template, and pairs by one
substitution in the text after the other, each in what the last one has left.  Where the declared
names stand in the template as names of placeholders and nowhere else (`FormatMap.Fits`), the two
come to the same, and the order of the pairs does not matter:
`FormatMap.exists_compile_eq`.

Both ways of compiling have a closed form over the fragments of the template
(`compileNames_eq_ok`, `compilePairs_flatMap_source`), in which something is written for each name.
So it is enough that this is the same text for each name, and pairs with different names give a
name the index that stands with it, wherever in the list that is (`indexOf?_pairs_of_mem`).
-/

set_option autoImplicit false

namespace Stencil

/-! ## Fragments and places

What is assumed of a template is said of places in its text, and what is proved uses the fragments
that it is divided into. -/

namespace Fragment

variable {template : Text} {frs : List Fragment}

theorem Divides.forall_standsIn_iff (h : Divides template frs) {P : Placeholder → Prop} :
    (∀ pre p, Placeholder.StandsIn p template pre → P p) ↔
      ∀ p, placeholder p ∈ frs → P p := by
  constructor
  · intro hall p hp
    obtain ⟨before, after, hfrs⟩ := List.append_of_mem hp
    exact hall _ p ((h.standsIn_iff _ p).2 ⟨before, after, hfrs, rfl⟩)
  · intro hall pre p hs
    obtain ⟨before, after, rfl, -⟩ := (h.standsIn_iff pre p).1 hs
    exact hall p (by simp)

/-- That a name occurs only as the name of a placeholder can be said of the fragments, or of the
places in the template. -/
theorem Divides.occursAsName_iff (h : Divides template frs) {name : Text} :
    OccursAsName name frs ↔ ∀ a b, template = a ++ name ++ b →
      ∃ pre p, Placeholder.StandsIn p template pre ∧ p.name = name ∧ a = pre ++ '%' :: p.lead := by
  rw [OccursAsName, h.source_eq]
  refine forall₃_congr fun a b _ => ?_
  constructor
  · rintro ⟨before, p, after, hfrs, hname, ha⟩
    exact ⟨_, p, (h.standsIn_iff _ p).2 ⟨before, after, hfrs, rfl⟩, hname, ha⟩
  · rintro ⟨pre, p, hs, hname, ha⟩
    obtain ⟨before, after, hfrs, rfl⟩ := (h.standsIn_iff pre p).1 hs
    exact ⟨before, p, after, hfrs, hname, ha⟩

end Fragment

namespace FormatMap

variable {ns : List Text} {template : Text}

/-! ## The pairs of a list of names

The position of a name is where it stands first.  Where no name occurs twice this is the only place.
-/

/-- The names of a list with their positions, counted from one. -/
def numbered (ns : List Text) : List (Text × Int) := ns.mapIdx fun k n => (n, (k : Int) + 1)

theorem mem_numbered {p : Text × Int} :
    p ∈ numbered ns ↔ ∃ k, ∃ h : k < ns.length, p = (ns[k], (k : Int) + 1) := by
  rw [numbered, List.mem_mapIdx]
  simp only [eq_comm]

@[simp] theorem map_fst_numbered (ns : List Text) : (numbered ns).map (·.1) = ns := by
  refine List.ext_getElem (by simp [numbered]) fun k _ _ => ?_
  simp [numbered]

theorem mem_numbered_idxOf {name : Text} (h : name ∈ ns) :
    (name, ((ns.idxOf name + 1 : Nat) : Int)) ∈ numbered ns :=
  mem_numbered.2 ⟨ns.idxOf name, List.idxOf_lt_length_of_mem h, by simp⟩

/-- Of different names each has the index that stands with it. -/
theorem indexOf?_pairs_of_mem {ps : List (Text × Int)} (hn : (ps.map (·.1)).Nodup)
    {name : Text} {i : Int} (h : (name, i) ∈ ps) : (pairs ps).indexOf? name = some i := by
  induction ps with
  | nil => cases h
  | cons p ps ih =>
    rw [List.map_cons, List.nodup_cons] at hn
    rw [indexOf?]
    by_cases hp : p.1 = name
    · rw [List.find?_cons_of_pos (by simpa using hp)]
      rcases List.mem_cons.1 h with rfl | hmem
      · rfl
      · exact absurd (List.mem_map.2 ⟨(name, i), hmem, hp.symm⟩) hn.1
    · rw [List.find?_cons_of_neg (by simpa using hp)]
      rcases List.mem_cons.1 h with rfl | hmem
      · exact absurd rfl hp
      · exact ih hn.2 hmem

/-! ## Agreement

Names that are identifiers have no percent sign and do not begin like a lead.  So they can be told
apart as the substitution needs it, and everything else is said by `Fits` directly. -/

/-- Different identifiers that are all the names of the placeholders in a template, and that stand
in it only as such.  There are no lists so long that a position could not be written out. -/
structure Fits (ns : List Text) (template : Text) : Prop where
  identifiers : ∀ n ∈ ns, Placeholder.IsIdentifier n
  nodup : ns.Nodup
  length_lt : ns.length < 10 ^ Numeral.digitLimit
  declared : ∀ pre p, Placeholder.StandsIn p template pre → p.name ∈ ns
  occurs : ∀ n ∈ ns, ∀ a b, template = a ++ n ++ b →
    ∃ pre p, Placeholder.StandsIn p template pre ∧ p.name = n ∧ a = pre ++ '%' :: p.lead

theorem Fits.apart (h : Fits ns template) {ps : List (Text × Int)} (hps : ps.Perm (numbered ns)) :
    Apart ps (Fragment.ofTemplate template) := by
  have hname {p : Text × Int} (hp : p ∈ ps) : p.1 ∈ ns := by
    rw [← map_fst_numbered ns]
    exact List.mem_map_of_mem (hps.mem_iff.1 hp)
  exact {
    placeholders := fun p hp => by
      have hproper := Fragment.proper_of_mem_ofTemplate hp
      exact ⟨hproper.lead, (IsPlain.of_isIdentifier hproper.name).ne_nil⟩
    names := by
      rw [(hps.map (·.1)).nodup_iff, map_fst_numbered]
      exact h.nodup
    plain := fun p hp => .of_isIdentifier (h.identifiers p.1 (hname hp))
    percent := fun p hp => (h.identifiers p.1 (hname hp)).percent_not_mem
    digits := fun p hp => by
      obtain ⟨k, hk, rfl⟩ := mem_numbered.1 (hps.mem_iff.1 hp)
      have hlt := h.length_lt
      exact Numeral.decimalLength_le (by decide) (by omega)
    occurs := fun p hp =>
      (Fragment.divides_ofTemplate template).occursAsName_iff.2 (h.occurs p.1 (hname hp)) }

/-- **A list of names and its pairs compile to the same text**, in whatever order the pairs are
substituted. -/
theorem exists_compile_eq (h : Fits ns template) :
    ∃ compiled, (names ns).compile template = .ok compiled ∧
      ∀ ps, ps.Perm (numbered ns) → (pairs ps).compile template = .ok compiled := by
  have hd := Fragment.divides_ofTemplate template
  have hdeclared := hd.forall_standsIn_iff.1 h.declared
  refine ⟨_, compileNames_eq_ok hdeclared, fun ps hps => ?_⟩
  have hapart := h.apart hps
  have hcompile := compilePairs_flatMap_source hapart
  rw [hd.source_eq] at hcompile
  have htext : ∀ fr ∈ Fragment.ofTemplate template,
      fr.sourceWith (pairs ps).indexText = fr.sourceWith (position ns) := by
    intro fr hfr
    cases fr with
    | char c => rfl
    | placeholder p =>
      have hmem := hps.mem_iff.2 (mem_numbered_idxOf (hdeclared p hfr))
      rw [Fragment.sourceWith, Fragment.sourceWith,
        indexText_of_indexOf? (indexOf?_pairs_of_mem hapart.names hmem)]
      rfl
  rw [compile, hcompile, List.flatMap_def, List.map_congr_left htext, ← List.flatMap_def]

/-- The second name comes first, in the template and among the pairs, and its placeholder has a
width, into which the index runs. -/
theorem exists_compile_eq_swapped :
    Fits [['a'], ['b', 'c']] "%-5bc$d, %a$s".toList ∧
      (names [['a'], ['b', 'c']]).compile "%-5bc$d, %a$s".toList = .ok "%-52$d, %1$s".toList ∧
      (pairs [(['b', 'c'], 2), (['a'], 1)]).compile "%-5bc$d, %a$s".toList =
        .ok "%-52$d, %1$s".toList := by
  let first : Placeholder := ⟨['-', '5'], ['b', 'c'], .decimal⟩
  let second : Placeholder := ⟨[], ['a'], .string⟩
  have hid : ∀ n ∈ [['a'], ['b', 'c']], Placeholder.IsIdentifier n := by
    simp [Placeholder.IsIdentifier]
    decide
  have hproper : ∀ fr ∈ [.placeholder first, .char ',', .char ' ', .placeholder second],
      Fragment.Proper fr := by
    simp [Fragment.Proper, first, second]
    exact ⟨⟨List.all_eq_true.1 (by decide), hid _ (by simp)⟩, ⟨nofun, hid _ (by simp)⟩⟩
  have hd : Fragment.Divides "%-5bc$d, %a$s".toList
      [.placeholder first, .char ',', .char ' ', .placeholder second] := by
    rw [← Fragment.ofTemplate_flatMap_source hproper]
    exact Fragment.divides_ofTemplate _
  have h : Fits [['a'], ['b', 'c']] "%-5bc$d, %a$s".toList := {
    identifiers := hid
    nodup := by decide
    length_lt := by
      have hpow : (10 : Nat) ^ 1 ≤ 10 ^ Numeral.digitLimit :=
        Nat.pow_le_pow_right (by decide) (by decide)
      exact Nat.lt_of_lt_of_le (by decide) hpow
    declared := hd.forall_standsIn_iff.2 (by simp [first, second])
    occurs := by
      simp only [← hd.occursAsName_iff, List.forall_mem_cons, List.not_mem_nil, false_implies,
        implies_true, and_true]
      constructor
      · refine Fragment.occursAsName_of_drop (by decide) fun k hk hp => ?_
        obtain rfl : k = 10 := by
          revert k
          decide
        exact ⟨[.placeholder first, .char ',', .char ' '], _, _, rfl, rfl, rfl⟩
      · refine Fragment.occursAsName_of_drop (by decide) fun k hk hp => ?_
        obtain rfl : k = 3 := by
          revert k
          decide
        exact ⟨[], _, _, rfl, rfl, rfl⟩ }
  obtain ⟨compiled, hnames, hpairs⟩ := exists_compile_eq h
  have htext : (names [['a'], ['b', 'c']]).compile "%-5bc$d, %a$s".toList =
      .ok "%-52$d, %1$s".toList :=
    compileNames_flatMap_source hproper (by simp [first, second, Declares, indexOf?, positionFrom?])
  rw [htext] at hnames
  cases hnames
  exact ⟨h, htext, hpairs _ (by decide)⟩

end FormatMap
end Stencil
