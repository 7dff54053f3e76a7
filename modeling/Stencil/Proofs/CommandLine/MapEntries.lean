import Stencil.CommandLine.Outcome
import Stencil.Proofs.Fallible
import Stencil.Proofs.Numeral.Index

/-!
# Map entries

A format map on the command line is a list of entries: names, or names with indices, if any entry
has an equals sign.  `Command.Declares` says which lists of entries are accepted and which map they
declare, without saying how they are read; `Command.formatMap_eq_ok_iff` is that this is what is
read.

An index is tested before it is read, and the test lets more through than the reading takes.
Between the two are the texts that are **overread** (`Numeral.Overread`): they pass the test, and
then reading them fails (`Command.mapEntry_eq_fault_iff`).
-/

set_option autoImplicit false

namespace Stencil

/-! ## Splitting

An entry is split at its first equals sign, so the name is what has none, and the index may have
more of them. -/

namespace Text

variable {mark : Char} {front back s : Text}

theorem splitAt?_append (h : mark ∉ front) :
    splitAt? mark (front ++ mark :: back) = some (front, back) := by
  induction front with
  | nil => simp [splitAt?]
  | cons c front ih =>
    have hc : c ≠ mark := fun hc => h (hc ▸ List.mem_cons_self)
    have hf := ih fun hm => h (List.mem_cons_of_mem c hm)
    rw [List.cons_append, splitAt?, if_neg hc, hf]
    rfl

theorem splitAt?_eq_none_iff : splitAt? mark s = none ↔ mark ∉ s := by
  constructor
  · intro h hm
    obtain ⟨front, back, rfl, hf⟩ := List.eq_append_cons_of_mem hm
    rw [splitAt?_append hf] at h
    cases h
  · intro h
    rw [Option.eq_none_iff_forall_ne_some]
    rintro ⟨front, back⟩ hs
    rw [(eq_of_splitAt?_eq_some hs).1] at h
    simp at h

end Text

/-! ## Entries

An entry meets one of three fates, and the lemmas say which by its text alone.  It is accepted if
its index can be read, overread if the test lets the index through and reading fails, and refused
otherwise. -/

namespace Command

open Numeral (IsIndex LooksNumeric Overread indexOf)

variable {e name index : Text} {f : Fault}

theorem mapEntry_append (hn : '=' ∉ name) (h : LooksNumeric index) :
    mapEntry (name ++ '=' :: index) = match Numeral.read index with
      | .ok n => .ok (name, n)
      | .error f => .error (.fault f) := by
  rw [mapEntry, Text.splitAt?_append hn]
  exact if_pos (Numeral.looksNumeric_iff.1 h)

theorem mapEntry_of_isIndex (hn : '=' ∉ name) (h : IsIndex index) :
    mapEntry (name ++ '=' :: index) = .ok (name, indexOf index) := by
  rw [mapEntry_append hn (Numeral.looksNumeric_of_isDigits h.1), Numeral.read_of_isIndex h]

theorem mapEntry_of_overread (hn : '=' ∉ name) (h : Overread index f) :
    mapEntry (name ++ '=' :: index) = .error (.fault f) := by
  rw [mapEntry_append hn h.looksNumeric, Numeral.read_of_overread h]

/-- An entry that is no name with something numeric behind its first equals sign is refused. -/
theorem mapEntry_of_not_looksNumeric
    (h : ∀ name index, e = name ++ '=' :: index → '=' ∉ name → ¬ LooksNumeric index) :
    mapEntry e = .error (.mapEntry e) := by
  rw [mapEntry]
  split
  · rename_i name index hs
    obtain ⟨he, hn⟩ := Text.eq_of_splitAt?_eq_some hs
    have hindex := h name index he hn
    exact if_neg (mt Numeral.looksNumeric_iff.2 hindex)
  · rfl

/-- An entry is accepted, overread or refused. -/
theorem mapEntry_cases (e : Text) :
    (∃ name index, e = name ++ '=' :: index ∧ '=' ∉ name ∧ IsIndex index) ∨
    (∃ name index f, e = name ++ '=' :: index ∧ '=' ∉ name ∧ Overread index f) ∨
    mapEntry e = .error (.mapEntry e) := by
  by_cases h : ∃ name index, e = name ++ '=' :: index ∧ '=' ∉ name ∧ LooksNumeric index
  · obtain ⟨name, index, rfl, hn, hl⟩ := h
    rcases hl.cases with hi | ⟨f, ho⟩
    · exact .inl ⟨name, index, rfl, hn, hi⟩
    · exact .inr (.inl ⟨name, index, f, rfl, hn, ho⟩)
  · exact .inr (.inr (mapEntry_of_not_looksNumeric fun name index he hn hl =>
      h ⟨name, index, he, hn, hl⟩))

/-- An entry is accepted with its name and the number of its index, and no entry otherwise. -/
theorem mapEntry_eq_ok_iff {p : Text × Int} :
    mapEntry e = .ok p ↔
      ∃ index, e = p.1 ++ '=' :: index ∧ '=' ∉ p.1 ∧ IsIndex index ∧ p.2 = indexOf index := by
  constructor
  · intro h
    rcases mapEntry_cases e with ⟨name, index, rfl, hn, hi⟩ | ⟨name, index, f, rfl, hn, ho⟩ | hr
    · rw [mapEntry_of_isIndex hn hi] at h
      cases h
      exact ⟨index, rfl, hn, hi, rfl⟩
    · rw [mapEntry_of_overread hn ho] at h
      cases h
    · rw [hr] at h
      cases h
  · obtain ⟨name, n⟩ := p
    rintro ⟨index, rfl, hn, hi, rfl⟩
    exact mapEntry_of_isIndex hn hi

/-- **An entry whose index is overread ends with the fault of reading it**, and no other entry with
a fault. -/
theorem mapEntry_eq_fault_iff :
    mapEntry e = .error (.fault f) ↔
      ∃ name index, e = name ++ '=' :: index ∧ '=' ∉ name ∧ Overread index f := by
  constructor
  · intro h
    rcases mapEntry_cases e with ⟨name, index, rfl, hn, hi⟩ | ⟨name, index, f, rfl, hn, ho⟩ | hr
    · rw [mapEntry_of_isIndex hn hi] at h
      cases h
    · rw [mapEntry_of_overread hn ho] at h
      cases h
      exact ⟨name, index, rfl, hn, ho⟩
    · rw [hr] at h
      cases h
  · rintro ⟨name, index, rfl, hn, ho⟩
    exact mapEntry_of_overread hn ho

/-! ## Maps

If no entry has an equals sign they are all names, and their order counts.  Otherwise each must be a
name with an index.  No entries at all are the first case. -/

/-- The map that a list of entries declares. -/
inductive Declares : List Text → FormatMap → Prop where
  | standard : Declares [] .standard
  | names {ns : List Text} (hne : ns ≠ []) (h : ∀ n ∈ ns, '=' ∉ n) : Declares ns (.names ns)
  /-- Names, each with an index after its equals sign. -/
  | indices {ps : List (Text × Text)} (hne : ps ≠ [])
      (h : ∀ p ∈ ps, '=' ∉ p.1 ∧ IsIndex p.2) :
      Declares (ps.map fun p => p.1 ++ '=' :: p.2) (.pairs (ps.map fun p => (p.1, indexOf p.2)))

theorem mapM_mapEntry {ps : List (Text × Text)} (h : ∀ p ∈ ps, '=' ∉ p.1 ∧ IsIndex p.2) :
    (ps.map fun p => p.1 ++ '=' :: p.2).mapM mapEntry =
      .ok (ps.map fun p => (p.1, indexOf p.2)) := by
  induction ps with
  | nil => rfl
  | cons p ps ih =>
    obtain ⟨⟨hn, hi⟩, hps⟩ := List.forall_mem_cons.1 h
    exact Fallible.mapM_cons_ok (mapEntry_of_isIndex hn hi) (ih hps)

/-- Entries that are accepted are names with indices. -/
theorem exists_of_mapM_mapEntry {es : List Text} {ps : List (Text × Int)}
    (h : es.mapM mapEntry = .ok ps) :
    ∃ qs : List (Text × Text), (∀ q ∈ qs, '=' ∉ q.1 ∧ IsIndex q.2) ∧
      es = (qs.map fun q => q.1 ++ '=' :: q.2) ∧ ps = qs.map fun q => (q.1, indexOf q.2) := by
  induction es generalizing ps with
  | nil =>
    cases h
    exact ⟨[], nofun, rfl, rfl⟩
  | cons e es ih =>
    obtain ⟨p, ps', hp, hps, rfl⟩ := Fallible.exists_of_mapM_cons h
    obtain ⟨index, rfl, hn, hi, hv⟩ := mapEntry_eq_ok_iff.1 hp
    obtain ⟨qs, hqs, rfl, rfl⟩ := ih hps
    refine ⟨(p.1, index) :: qs, List.forall_mem_cons.2 ⟨⟨hn, hi⟩, hqs⟩, rfl, ?_⟩
    rw [List.map_cons, ← hv]

/-- **The entries that are accepted, and the map they give.** -/
theorem formatMap_eq_ok_iff {es : List Text} {m : FormatMap} :
    formatMap es = .ok m ↔ Declares es m := by
  constructor
  · intro h
    rw [formatMap] at h
    split at h
    · rename_i hes
      cases h
      rw [List.isEmpty_iff.1 hes]
      exact .standard
    · rename_i hes
      have hne : es ≠ [] := fun he => hes (by rw [he]; rfl)
      split at h
      · cases hps : es.mapM mapEntry with
        | error r =>
          rw [hps] at h
          cases h
        | ok ps =>
          rw [hps] at h
          cases h
          obtain ⟨qs, hqs, rfl, rfl⟩ := exists_of_mapM_mapEntry hps
          exact .indices (fun hq => hne (by rw [hq]; rfl)) hqs
      -- no entry has an equals sign
      · rename_i hany
        cases h
        exact .names hne fun n hn hm => hany (List.any_eq_true.2 ⟨n, hn, decide_eq_true hm⟩)
  · intro h
    rw [formatMap]
    cases h with
    | standard => rfl
    | names hne h =>
      have hany : ¬ (es.any fun e => '=' ∈ e) = true := by
        simpa using h
      rw [if_neg (by simpa using hne), if_neg hany]
    | indices hne h =>
      rename_i ps
      obtain ⟨p, ps, rfl⟩ := List.exists_cons_of_ne_nil hne
      have hany : ((((p :: ps).map fun p => p.1 ++ '=' :: p.2)).any fun e => '=' ∈ e) = true := by
        simp
      rw [if_neg (by simp), if_pos hany, mapM_mapEntry h]
      rfl

end Command
end Stencil
