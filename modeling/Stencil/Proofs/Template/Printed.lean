import Mathlib.Algebra.Group.Int.Defs
import Mathlib.Data.List.Basic
import Stencil.Proofs.Numeral.Decimal
import Stencil.Proofs.Template.Tokens

/-!
# Printed directives read back

`Directive.spec` writes a directive down with its numbers in decimal.  Every directive whose numbers
are natural numbers that are not too long can be written so, with one exception: a width of zero,
since a zero in the place of the width is a flag.

The spec is canonical, so it is read back from its source; its numbers are read back as they were
(`Directive.decode_spec`).  Both carry over to templates: items that are printed one after the other
are understood as these items again (`Item.read_back`).
-/

set_option autoImplicit false

namespace Stencil

open Grammar

/-! ## Sizes

A number is printed in decimal and without zeros in front, so it can stand behind flags unless it is
zero itself. -/

namespace Size

/-- A size as it is printed, its number in decimal. -/
def spec : Size → SizeSpec
  | literal n => .literal (Numeral.decimal n.toNat)
  | argument n => .argument (Numeral.decimal n.toNat)
  | next => .next

/-- The number of a size, if it has one, is a natural number that can be read. -/
def Printable : Size → Prop
  | literal n | argument n => 0 ≤ n ∧ n < 10 ^ Numeral.digitLimit
  | next => True

theorem written_spec (z : Size) : z.spec.Written := by
  cases z with
  | literal n => exact Numeral.isDigits_decimal n.toNat
  | argument n => exact Numeral.isDigits_decimal n.toNat
  | next => trivial

theorem spec_ne_ignored (z : Size) (ds : Text) : z.spec ≠ .ignored ds := by
  cases z <;> simp [spec]

/-- A printed size is never taken for flags, unless it is zero. -/
theorem followsFlags_spec {z : Size} (hp : z.Printable) (h0 : z ≠ literal 0) :
    z.spec.FollowsFlags := by
  cases z with
  | literal n =>
    have hn : n ≠ 0 := fun he => h0 (by rw [he])
    have := hp.1
    exact Numeral.head?_decimal_ne_zero (by omega)
  | argument n => trivial
  | next => trivial

/-- A number of the right size is read back from its numeral. -/
theorem digitsNumber_toNat {n : Int} (h : 0 ≤ n ∧ n < 10 ^ Numeral.digitLimit) :
    digitsNumber (Numeral.decimal n.toNat) = .ok n.toNat := by
  refine digitsNumber_decimal ?_
  have h2 : (n.toNat : Int) < ((10 ^ Numeral.digitLimit : Nat) : Int) := by
    rw [Int.toNat_of_nonneg h.1, Int.natCast_pow]
    exact h.2
  exact Int.ofNat_lt.1 h2

theorem decode_spec {z : Size} (h : z.Printable) : z.spec.decode = .ok (some z) := by
  cases z with
  | literal n =>
    rw [spec, SizeSpec.decode, digitsNumber_toNat h]
    show Except.ok (some (literal n.toNat)) = _
    rw [Int.toNat_of_nonneg h.1]
  | argument n =>
    rw [spec, SizeSpec.decode, digitsNumber_toNat h]
    show Except.ok (some (argument n.toNat)) = _
    rw [Int.toNat_of_nonneg h.1]
  | next => rfl

theorem decode?_map_spec {z? : Option Size} (h : ∀ z, z? = some z → z.Printable) :
    SizeSpec.decode? (z?.map spec) = .ok z? := by
  cases z? with
  | none => rfl
  | some z => exact decode_spec (h z rfl)

end Size

/-! ## Directives

The source that a directive carries is not used for printing.  A directive that is `Printed` has the
source that its parts make up, and only such directives can come out again as they were. -/

namespace Directive

/-- A directive as it is printed, its numbers in decimal. -/
def spec (d : Directive) : Spec where
  position := d.position.map Numeral.decimal
  flags := d.flags
  width := d.width.map Size.spec
  precision := d.precision.map Size.spec
  length := d.length
  conversion := d.conversion

/-- A directive that stands for what is printed of it: its source is the text of its parts, its
numbers can be read, and a width that is a literal is at least one. -/
structure Printed (d : Directive) : Prop where
  source : d.source = d.spec.source
  position : ∀ n, d.position = some n → n < 10 ^ Numeral.digitLimit
  width : ∀ z, d.width = some z → z.Printable ∧ z ≠ .literal 0
  precision : ∀ z, d.precision = some z → z.Printable

variable {d : Directive}

theorem written_spec (d : Directive) : d.spec.Written where
  position := by
    intro ds hds
    obtain ⟨n, -, rfl⟩ := Option.map_eq_some_iff.1 hds
    exact Numeral.isDigits_decimal n
  width := by
    intro y hy
    obtain ⟨z, -, rfl⟩ := Option.map_eq_some_iff.1 hy
    exact z.written_spec
  precision := by
    intro y hy
    obtain ⟨z, -, rfl⟩ := Option.map_eq_some_iff.1 hy
    exact z.written_spec

theorem Printed.canonical_spec (h : d.Printed) : d.spec.Canonical where
  written := d.written_spec
  width := by
    intro y hy
    obtain ⟨z, hz, rfl⟩ := Option.map_eq_some_iff.1 hy
    exact Size.followsFlags_spec (h.width z hz).1 (h.width z hz).2
  position := by
    intro _ _ ds hds
    obtain ⟨z, -, hz⟩ := Option.map_eq_some_iff.1 hds
    exact z.spec_ne_ignored ds hz

/-- **A printed directive is understood as what it was.** -/
theorem Printed.decode_spec (h : d.Printed) : d.spec.decode = .ok d := by
  have hp : (d.position.map Numeral.decimal).mapM digitsNumber = .ok d.position := by
    cases hd : d.position with
    | none => rfl
    | some n =>
      rw [Option.map_some, Option.mapM_some, digitsNumber_decimal (h.position n hd)]
      rfl
  have hw : SizeSpec.decode? (d.width.map Size.spec) = .ok d.width :=
    Size.decode?_map_spec fun z hz => (h.width z hz).1
  have hr : SizeSpec.decode? (d.precision.map Size.spec) = .ok d.precision :=
    Size.decode?_map_spec h.precision
  have hs := h.source
  rw [Spec.decode, ← hs, spec, hp, hw, hr]
  rfl

end Directive

/-! ## Items

Two items of literal text in a row would be read as one, and an empty one would not be read at all.
Otherwise items are independent of each other: whatever is printed behind a directive, it ends with
its conversion letter. -/

namespace Item

/-- An item as it is printed. -/
def lexeme : Item → Lexeme
  | literal s => .literal s
  | escape => .escape
  | directive d => .directive d.spec

/-- Items that stand for what is printed of them.  Literal text is not empty, has no percent sign
and is in one piece. -/
structure Printed (items : List Item) : Prop where
  literal : ∀ s, literal s ∈ items → s ≠ [] ∧ '%' ∉ s
  separated : ∀ before s t after, items ≠ before ++ .literal s :: .literal t :: after
  directive : ∀ d, directive d ∈ items → d.Printed

theorem Printed.tail {item : Item} {items : List Item} (h : Printed (item :: items)) :
    Printed items where
  literal s hs := h.literal s (List.mem_cons_of_mem item hs)
  separated before s t after he := h.separated (item :: before) s t after (by rw [he]; rfl)
  directive d hd := h.directive d (List.mem_cons_of_mem item hd)

theorem source_lexeme {item : Item} (h : ∀ d, item = .directive d → d.Printed) :
    item.lexeme.source = item.source := by
  cases item with
  | literal s => rfl
  | escape => rfl
  | directive d => exact (h d rfl).source.symm

/-- An item is understood from what is printed of it. -/
theorem decode_lexeme {item : Item} (h : ∀ d, item = .directive d → d.Printed) :
    item.lexeme.decode = .ok item := by
  cases item with
  | literal s => rfl
  | escape => rfl
  | directive d =>
    rw [lexeme, Lexeme.decode, (h d rfl).decode_spec]
    rfl

variable {items : List Item}

theorem Printed.wellCut (h : Printed items) :
    Chunk.WellCut ((items.map lexeme).map Lexeme.chunk) := by
  induction items with
  | nil => trivial
  | cons item items ih =>
    have hcut := ih h.tail
    cases item with
    | literal s =>
      obtain ⟨hs, hp⟩ := h.literal s List.mem_cons_self
      refine ⟨hs, fun t ht => ?_, fun a b hab => ?_, hcut⟩
      · -- the next item would be literal text as well
        cases items with
        | nil => cases ht
        | cons next items =>
          cases next with
          | literal u => exact h.separated [] s u items rfl
          | escape => cases ht
          | directive d => cases ht
      · rw [hab] at hp
        exact absurd (List.mem_append_right a List.mem_cons_self) hp
    | escape => exact ⟨.escape, hcut⟩
    | directive d => exact ⟨Spec.isDirective_source d.written_spec, hcut⟩

theorem Printed.ofTemplate_flatMap_source (h : Printed items) :
    Item.ofTemplate (items.flatMap source) = .ok items := by
  have hd (item : Item) (hm : item ∈ items) : ∀ d, item = .directive d → d.Printed := by
    rintro d rfl
    exact h.directive d hm
  have hsource : items.flatMap source = (items.map lexeme).flatMap Lexeme.source := by
    rw [List.flatMap_map]
    exact List.flatMap_congr fun item hm => (source_lexeme (hd item hm)).symm
  have hcanon : ∀ spec, Lexeme.directive spec ∈ items.map lexeme → spec.Canonical := by
    intro spec hm
    obtain ⟨item, hi, he⟩ := List.mem_map.1 hm
    cases item with
    | literal s => cases he
    | escape => cases he
    | directive d =>
      cases he
      exact (h.directive d hi).canonical_spec
  have hdecode : (items.map lexeme).mapM Lexeme.decode = .ok items := by
    rw [List.mapM_map]
    exact (Fallible.mapM_eq_ok fun item hm => decode_lexeme (hd item hm)).trans
      (congrArg Except.ok (List.map_id items))
  rw [Item.ofTemplate, hsource, Lexeme.ofTemplate_flatMap_source h.wellCut hcanon, hdecode]

/-- **What was printed is read back**: a directive on its own, with the parts that it has, and items
one after the other, as these items. -/
theorem read_back :
    (∀ d : Directive, d.Printed → ofText? d.source = .ok (some (directive d))) ∧
      ∀ items : List Item, Printed items → ofTemplate (items.flatMap source) = .ok items := by
  refine ⟨fun d h => ?_, fun items h => h.ofTemplate_flatMap_source⟩
  have hs := Lexeme.ofText?_source (l := .directive d.spec) (by rintro s ⟨⟩)
    (by rintro spec ⟨⟩; exact h.canonical_spec)
  rw [Lexeme.decode, h.decode_spec] at hs
  rw [h.source]
  exact hs

/-- All parts at once, and literal text, an escape and zero flags beside them. -/
theorem read_back_mixed :
    let d : Directive := ⟨"%3$-05.*7$lld".toList, .decimal, some 3, [.left, .zero],
      some (.literal 5), some (.argument 7), some .longLong⟩
    let e : Directive := ⟨"%00*.0hX".toList, .hexUpper, none, [.zero, .zero], some .next,
      some (.literal 0), some .short⟩
    (d.Printed ∧ ofText? d.source = .ok (some (directive d))) ∧
      Printed [literal "0$".toList, directive d, escape, directive e, literal "d".toList] ∧
      ofTemplate "0$%3$-05.*7$lld%%%00*.0hXd".toList = .ok
        [literal "0$".toList, directive d, escape, directive e, literal "d".toList] := by
  intro d e
  have hsize {n : Int} (h0 : 0 ≤ n) (h : n < 10) : 0 ≤ n ∧ n < 10 ^ Numeral.digitLimit := by
    have hlimit : (10 : Int) ≤ 10 ^ Numeral.digitLimit := by decide +kernel
    exact ⟨h0, by omega⟩
  have hd : d.Printed := {
    source := by decide +kernel
    position := by
      rintro n ⟨⟩
      decide +kernel
    width := by
      rintro z ⟨⟩
      exact ⟨hsize (by decide) (by decide), by decide⟩
    precision := by
      rintro z ⟨⟩
      exact hsize (by decide) (by decide) }
  have he : e.Printed := {
    source := by decide +kernel
    position := by
      rintro n ⟨⟩
    width := by
      rintro z ⟨⟩
      exact ⟨trivial, by decide⟩
    precision := by
      rintro z ⟨⟩
      exact hsize (by decide) (by decide) }
  have hall : Printed [literal "0$".toList, directive d, escape, directive e,
      literal "d".toList] := by
    refine ⟨by simp, fun before s t after hb => ?_, by simp [hd, he]⟩
    rcases before with _ | ⟨_, _ | ⟨_, _ | ⟨_, _ | ⟨_, before⟩⟩⟩⟩ <;> simp at hb
    have hl := congrArg List.length hb.2.2.2.2
    simp only [List.length_append, List.length_cons, List.length_nil] at hl
    omega
  exact ⟨⟨hd, read_back.1 d hd⟩, hall, read_back.2 _ hall⟩

end Item
end Stencil
