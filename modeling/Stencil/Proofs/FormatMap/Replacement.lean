import Stencil.FormatMap.Compile
import Stencil.Proofs.FormatMap.Substitution
import Stencil.Proofs.Numeral.Decimal

/-!
# Compiling a map of pairs is replacing texts

A map of pairs is compiled without looking at placeholders: for one pair after the other, the name
is replaced by the index wherever it stands.  `Text.replaceAll` is this replacement with nothing
else to it; it knows no leads.

Substitution does know them: it passes over the longest lead in front of a name, and takes the two
together.  For a plain name that makes no difference.  No character of a lead begins the name, so
the lead is kept character by character, and the name is met where it would have been met without
the lead.  Both go through the text by the same three equations, hence
`FormatMap.substitute_eq_replaceAll`, and for all pairs `FormatMap.compile_pairs_eq_foldl`.
-/

set_option autoImplicit false

namespace Stencil

/-! ## Replacement -/

/-- A text with every occurrence of a part replaced.  Occurrences are found from left to right, and
one that overlaps the one before it does not count. -/
def Text.replaceAll (part new : Text) : Text → Text
  | [] => []
  | c :: s =>
    if part <+: c :: s then new ++ replaceAll part new (s.drop (part.length - 1))
    else c :: replaceAll part new s
termination_by s => s.length
decreasing_by
  · simp only [List.length_drop, List.length_cons]; omega
  · simp

namespace Text

variable {part new : Text}

/-- Where the part does not stand, a character is kept. -/
theorem replaceAll_cons {c : Char} {s : Text} (h : ¬ part <+: c :: s) :
    replaceAll part new (c :: s) = c :: replaceAll part new s := by
  rw [replaceAll, if_neg h]

/-- Where the part stands, the new text takes its place, and the search goes on after it. -/
theorem replaceAll_append (hne : part ≠ []) (s : Text) :
    replaceAll part new (part ++ s) = new ++ replaceAll part new s := by
  obtain ⟨c, part, rfl⟩ := List.exists_cons_of_ne_nil hne
  have hp : c :: part <+: c :: (part ++ s) := List.prefix_append (c :: part) s
  rw [List.cons_append, replaceAll, if_pos hp, List.length_cons, Nat.add_sub_cancel,
    List.drop_left]

end Text

example : Text.replaceAll ['a', 'a'] ['1'] "xaaaaay".toList = "x11ay".toList := by cbv

/-! ## Substitution -/

namespace FormatMap

variable {name index : Text}

/-- **Substituting a plain name is replacing it**, whatever leads stand in the text. -/
theorem substitute_eq_replaceAll (h : IsPlain name) (s : Text) :
    substitute name index s = Text.replaceAll name index s := by
  induction hn : s.length using Nat.strongRecOn generalizing s with
  | _ n ih =>
    subst hn
    cases s with
    | nil => rw [substitute_nil h.ne_nil, Text.replaceAll]
    | cons c s =>
      by_cases hp : name <+: c :: s
      · obtain ⟨rest, hrest⟩ := hp
        have hlt : rest.length < (c :: s).length := by
          have := List.length_pos_iff.2 h.ne_nil
          rw [← hrest, List.length_append]
          omega
        rw [← hrest, substitute_append h, Text.replaceAll_append h.ne_nil, ih _ hlt rest rfl]
      · rw [substitute_cons h.ne_nil hp, Text.replaceAll_cons hp,
          ih _ (Nat.lt_succ_self s.length) s rfl]

/-- A name that begins with no flag, digit, point, star or percent sign is plain. -/
theorem IsPlain.of_head {c : Char} {s : Text} (hc : c ∉ "-%+ #'.*".toList) (hd : ¬ c.isDigit) :
    IsPlain (c :: s) := by
  refine ⟨c, s, rfl, ?_⟩
  simp only [isOpening, Placeholder.isLead, Bool.or_eq_false_iff]
  simpa [and_assoc, and_comm, and_left_comm] using And.intro hd hc

/-- **Compiling with a map of pairs is replacing each name by its index**, one pair after the other
in the order of the map, and cannot fail. -/
theorem compile_pairs_eq_foldl {ps : List (Text × Int)}
    (hname : ∀ p ∈ ps, ∃ c s, p.1 = c :: s ∧ c ∉ "-%+ #'.*".toList ∧ ¬ c.isDigit)
    (hindex : ∀ p ∈ ps, p.2.natAbs < 10 ^ Numeral.digitLimit) (template : Text) :
    (pairs ps).compile template =
      .ok (ps.foldl (fun s p => Text.replaceAll p.1 (Numeral.signedDecimal p.2) s) template) := by
  show ps.foldlM substituteIndex template = _
  induction ps generalizing template with
  | nil => rfl
  | cons p ps ih =>
    obtain ⟨c, s, hp, hc, hd⟩ := hname p List.mem_cons_self
    have hplain : IsPlain p.1 := hp ▸ IsPlain.of_head hc hd
    have hlength : Numeral.decimalLength p.2.natAbs ≤ Numeral.digitLimit :=
      Numeral.decimalLength_le (by decide) (hindex p List.mem_cons_self)
    rw [List.foldlM_cons, substituteIndex_eq_ok hplain.ne_nil hlength,
      substitute_eq_replaceAll hplain]
    exact ih (fun q hq => hname q (List.mem_cons_of_mem p hq))
      (fun q hq => hindex q (List.mem_cons_of_mem p hq)) _

/-- Leads, names that touch, a name that overlaps itself, and digits that make a name. -/
theorem compile_pairs_eq_foldl_overlap :
    (∀ p ∈ [("aa".toList, (12 : Int)), ("x12".toList, -3)],
      ∃ c s, p.1 = c :: s ∧ c ∉ "-%+ #'.*".toList ∧ ¬ c.isDigit) ∧
    (∀ p ∈ [("aa".toList, (12 : Int)), ("x12".toList, -3)],
      p.2.natAbs < 10 ^ Numeral.digitLimit) ∧
    (pairs [("aa".toList, 12), ("x12".toList, -3)]).compile "%-aaa$s %0xaaaa$d".toList =
      .ok "%-12a$s %0-312$d".toList := by
  have hname : ∀ p ∈ [("aa".toList, (12 : Int)), ("x12".toList, -3)],
      ∃ c s, p.1 = c :: s ∧ c ∉ "-%+ #'.*".toList ∧ ¬ c.isDigit := by
    simp
  have hindex : ∀ p ∈ [("aa".toList, (12 : Int)), ("x12".toList, -3)],
      p.2.natAbs < 10 ^ Numeral.digitLimit := by
    decide +kernel
  refine ⟨hname, hindex, ?_⟩
  rw [compile_pairs_eq_foldl hname hindex]
  simp only [List.foldl_cons, List.foldl_nil]
  cbv

end FormatMap
end Stencil
