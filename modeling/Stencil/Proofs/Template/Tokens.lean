import Stencil.Proofs.Directive.Numbers
import Stencil.Proofs.Fallible
import Stencil.Proofs.Template.Division

/-!
# The items of a template

What dividing a template promises, said of the pieces alone (`Chunk.Divides`): nothing is lost,
literal text is in as few pieces as possible, every other piece is a directive, and each percent
sign is where it belongs.  The last point is the hard one.  A percent sign that is not the second
half of an escape is literal text exactly when no directive begins with it; otherwise it begins a
piece, and this piece is the only directive that begins there.

`Item.ofTemplate_spec` says it of the items that a template is understood as, together with the one
reason for which it is not understood: a number with too many digits.
-/

set_option autoImplicit false

namespace Stencil

open Grammar

namespace Chunk

/-! ## Places in a template

A place is given by the text in front of it.  The pieces are in order, so a place belongs to a piece
or stands between two of them, and what stands there can be said without counting pieces. -/

/-- A piece stands among others right after the text `pre`. -/
def Stands (cs : List Chunk) (pre : Text) (c : Chunk) : Prop :=
  ∃ before after, cs = before ++ c :: after ∧ before.flatMap source = pre

/-- The text `pre` ends inside literal text, with a character of it still to come. -/
def InLiteral (cs : List Chunk) (pre : Text) : Prop :=
  ∃ p a c b, Stands cs p (literal (a ++ c :: b)) ∧ pre = p ++ a

/-- The text `pre` ends between the two percent signs of an escape. -/
def InEscape (cs : List Chunk) (pre : Text) : Prop :=
  ∃ p, Stands cs p (directive ['%', '%']) ∧ pre = p ++ ['%']

/-- The pieces of a template, divided as they should be. -/
structure Divides (template : Text) (cs : List Chunk) : Prop where
  /-- Nothing is lost, doubled or moved. -/
  source_eq : cs.flatMap source = template
  /-- No literal text is empty. -/
  ne_nil : ∀ s, literal s ∈ cs → s ≠ []
  /-- No literal text follows another. -/
  separated : ∀ before s t after, cs ≠ before ++ literal s :: literal t :: after
  /-- All other pieces are directives. -/
  isDirective : ∀ s, directive s ∈ cs → IsDirective s
  /-- A percent sign is literal when no directive begins with it. -/
  inLiteral_iff : ∀ pre post, template = pre ++ '%' :: post → ¬ InEscape cs pre →
    (InLiteral cs pre ↔ ∀ t, t <+: '%' :: post → ¬ IsDirective t)
  /-- Any other percent sign begins a directive, and only one. -/
  stands : ∀ pre post, template = pre ++ '%' :: post → ¬ InEscape cs pre → ¬ InLiteral cs pre →
    ∃ s, Stands cs pre (directive s) ∧ IsDirective s ∧ s <+: '%' :: post ∧
      ∀ t, t <+: '%' :: post → IsDirective t → t = s

theorem Stands.cons {cs : List Chunk} {pre : Text} {c : Chunk} (h : Stands cs pre c) (d : Chunk) :
    Stands (d :: cs) (d.source ++ pre) c := by
  obtain ⟨before, after, rfl, rfl⟩ := h
  exact ⟨d :: before, after, rfl, by rw [List.flatMap_cons]⟩

theorem stands_head (c : Chunk) (cs : List Chunk) : Stands (c :: cs) [] c := ⟨[], cs, rfl, rfl⟩

/-- Each percent sign of a text is in the middle of an escape, in literal text, or begins a
directive. -/
theorem WellCut.percent_cases {cs : List Chunk} (h : WellCut cs) {pre post : Text}
    (ht : cs.flatMap source = pre ++ '%' :: post) :
    InEscape cs pre ∨ InLiteral cs pre ∨
      ∃ s, Stands cs pre (directive s) ∧ IsDirective s ∧ s <+: '%' :: post := by
  induction cs generalizing pre with
  | nil => simp at ht
  | cons c cs ih =>
    have h' : WellCut ([c] ++ cs) := h
    have hcs := h'.of_append
    rw [List.flatMap_cons, List.append_eq_append_iff] at ht
    rcases ht with ⟨pre', rfl, hr⟩ | ⟨rest, hc, hr⟩
    · -- the percent sign is behind the first piece
      rcases ih hcs hr with ⟨p, hp, rfl⟩ | ⟨p, a, d, b, hp, rfl⟩ | ⟨s, hs, hd⟩
      · exact .inl ⟨c.source ++ p, hp.cons c, by rw [List.append_assoc]⟩
      · exact .inr (.inl ⟨c.source ++ p, a, d, b, hp.cons c, by rw [List.append_assoc]⟩)
      · exact .inr (.inr ⟨s, hs.cons c, hd⟩)
    · cases rest with
      | nil =>
        -- it begins the second piece
        rw [List.append_nil] at hc
        subst hc
        have hr' : cs.flatMap source = [] ++ '%' :: post := hr.symm
        rcases ih hcs hr' with ⟨p, -, he⟩ | ⟨p, a, d, b, hp, he⟩ | ⟨s, hs, hd⟩
        · exact absurd he (by simp)
        · refine .inr (.inl ⟨c.source ++ p, a, d, b, hp.cons c, ?_⟩)
          rw [List.append_assoc, ← he, List.append_nil]
        · exact .inr (.inr ⟨s, by simpa using hs.cons c, hd⟩)
      | cons d rest =>
        -- it is inside the first piece
        obtain ⟨rfl, rfl⟩ := List.cons.inj hr
        cases c with
        | literal s =>
          refine .inr (.inl ⟨[], pre, '%', rest, ?_, rfl⟩)
          rw [← show s = pre ++ '%' :: rest from hc]
          exact stands_head _ cs
        | directive s =>
          have hs : s = pre ++ '%' :: rest := hc
          cases pre with
          | nil =>
            subst hs
            exact .inr (.inr ⟨_, stands_head _ cs, h.1, List.prefix_append ('%' :: rest) _⟩)
          | cons e pre =>
            rcases h.1.eq_escape_or with he | ⟨spec, hspec, he⟩
            · rw [he] at hs
              obtain ⟨rfl, hs⟩ := List.cons.inj hs
              have hpre : pre = [] := by
                cases pre with
                | nil => rfl
                | cons x pre => simp at hs
              subst hpre
              exact .inl ⟨[], he ▸ stands_head _ cs, rfl⟩
            · rw [he] at hs
              have hb : spec.body = pre ++ '%' :: rest := (List.cons.inj hs).2
              refine absurd ?_ (Spec.percent_not_mem_body hspec.written)
              rw [hb]
              exact List.mem_append_right pre List.mem_cons_self

/-- No directive begins in literal text. -/
theorem WellCut.not_begins {cs : List Chunk} (h : WellCut cs) {pre post : Text}
    (ht : cs.flatMap source = pre ++ '%' :: post) (hl : InLiteral cs pre) : ¬ Begins post := by
  obtain ⟨p, a, c, b, ⟨before, after, rfl, rfl⟩, rfl⟩ := hl
  obtain ⟨-, -, hb, -⟩ := h.of_append
  rw [List.flatMap_append, List.flatMap_cons, List.append_assoc] at ht
  have ht' : (a ++ c :: b) ++ after.flatMap source = a ++ '%' :: post :=
    List.append_cancel_left ht
  rw [List.append_assoc] at ht'
  obtain ⟨rfl, rfl⟩ := List.cons.inj (List.append_cancel_left ht')
  exact hb a b rfl

/-- **Well cut pieces divide their text.** -/
theorem WellCut.divides {cs : List Chunk} (h : WellCut cs) : Divides (cs.flatMap source) cs where
  source_eq := rfl
  ne_nil s hs := by
    obtain ⟨before, after, rfl⟩ := List.append_of_mem hs
    exact h.of_append.1
  separated before s t after hcs := by
    rw [hcs] at h
    exact h.of_append.2.1 t rfl
  isDirective s hs := by
    obtain ⟨before, after, rfl⟩ := List.append_of_mem hs
    exact h.of_append.1
  inLiteral_iff pre post ht he := by
    constructor
    · intro hl t htp htd
      exact h.not_begins ht hl ⟨t, htd, htp⟩
    · intro hn
      rcases h.percent_cases ht with hc | hc | ⟨s, -, hd, hp⟩
      · exact absurd hc he
      · exact hc
      · exact absurd hd (hn s hp)
  stands pre post ht he hl := by
    rcases h.percent_cases ht with hc | hc | ⟨s, hs, hd, hp⟩
    · exact absurd hc he
    · exact absurd hc hl
    · exact ⟨s, hs, hd, hp, fun t htp htd => htd.eq_of_prefix hd htp hp⟩

end Chunk

/-! ## Items

An item is what is understood of a piece, and shows as much of it as the lexeme did.  So what has
been said of pieces holds of the items, as soon as all lexemes are understood. -/

/-- What is seen of an item. -/
def Item.chunk : Item → Chunk
  | literal s => .literal s
  | escape => .directive ['%', '%']
  | directive d => .directive d.source

namespace Lexeme

/-- A number of the lexeme has more digits than can be read. -/
def HasLongNumber (l : Lexeme) : Prop := ∃ spec, l = directive spec ∧ spec.HasLongNumber

theorem decode_cases {l : Lexeme} (h : ∀ spec, l = directive spec → spec.Canonical) :
    (∃ item, l.decode = .ok item ∧ item.chunk = l.chunk ∧ ¬ l.HasLongNumber) ∨
      (l.decode = .error .numeralTooLong ∧ l.HasLongNumber) := by
  cases l with
  | literal s => exact .inl ⟨_, rfl, rfl, by simp [HasLongNumber]⟩
  | escape => exact .inl ⟨_, rfl, rfl, by simp [HasLongNumber]⟩
  | directive spec =>
    rcases Spec.decode_cases (h spec rfl).written with ⟨d, hd, hs, hn⟩ | ⟨he, hn⟩
    · refine .inl ⟨.directive d, by rw [decode, hd]; rfl, ?_, by simpa [HasLongNumber] using hn⟩
      rw [Item.chunk, hs, chunk]
    · exact .inr ⟨by rw [decode, he]; rfl, spec, rfl, hn⟩

theorem chunk_of_decode {l : Lexeme} (h : ∀ spec, l = directive spec → spec.Canonical)
    {item : Item} (hd : l.decode = .ok item) : item.chunk = l.chunk := by
  rcases decode_cases h with ⟨item', hd', hc, -⟩ | ⟨he, -⟩
  · rw [hd] at hd'
    cases hd'
    exact hc
  · rw [hd] at he
    cases he

/-- Reading the text of a lexeme once more understands the same directive. -/
theorem ofText?_source {l : Lexeme} (hl : ∀ s, l ≠ literal s)
    (h : ∀ spec, l = directive spec → spec.Canonical) :
    Item.ofText? l.source = l.decode.map some := by
  cases l with
  | literal s => exact absurd rfl (hl s)
  | escape => rfl
  | directive spec =>
    have hb := Spec.readBody?_body_append (h spec rfl) []
    rw [List.append_nil] at hb
    have hr : Spec.read? spec.source = some (spec, []) := hb
    have hne : spec.source ≠ ['%', '%'] := by
      intro he
      rw [he] at hr
      cases hr
    rw [source, Item.ofText?, if_neg hne, hr, decode]
    show (do return some (Item.directive (← spec.decode))) = _
    cases spec.decode <;> rfl

end Lexeme

namespace Item

@[simp] theorem source_chunk (item : Item) : item.chunk.source = item.source := by
  cases item <;> rfl

/-- **How a template is understood.**  If none of its directives has a number with too many digits,
then as items that divide the template, and the text of each directive on its own is understood as
the same directive.  Otherwise it is divided all the same, but not understood, for this reason. -/
theorem ofTemplate_spec (template : Text) :
    (∃ items, ofTemplate template = .ok items ∧ Chunk.Divides template (items.map chunk) ∧
        (∀ item ∈ items, (∀ s, item ≠ literal s) → ofText? item.source = .ok (some item)) ∧
        ∀ l ∈ Lexeme.ofTemplate template, ¬ l.HasLongNumber) ∨
      (ofTemplate template = .error .numeralTooLong ∧
        Chunk.Divides template ((Lexeme.ofTemplate template).map Lexeme.chunk) ∧
        ∃ l ∈ Lexeme.ofTemplate template, l.HasLongNumber) := by
  -- the division of the text is the same in both outcomes; only the numbers decide between them
  have hcanon : ∀ l ∈ Lexeme.ofTemplate template, ∀ spec, l = .directive spec → spec.Canonical := by
    rintro _ hl spec rfl
    exact Lexeme.canonical_of_mem_ofTemplate hl
  have hcases := fun l hl => Lexeme.decode_cases (hcanon l hl)
  have hdivides := (Chunk.wellCut_ofTemplate template).divides
  rw [Lexeme.flatMap_source_map_chunk, Lexeme.flatMap_source_ofTemplate] at hdivides
  -- every fault of decoding is that of a long number, so the first one is as good as any
  by_cases hlong : ∃ l ∈ Lexeme.ofTemplate template, l.HasLongNumber
  · right
    obtain ⟨l, hl, hn⟩ := hlong
    have hf : l.decode = .error .numeralTooLong := by
      rcases hcases l hl with ⟨_, -, -, hn'⟩ | ⟨he, -⟩
      · exact absurd hn hn'
      · exact he
    refine ⟨Fallible.mapM_eq_error (fun x hx => ?_) hl hf, hdivides, l, hl, hn⟩
    rcases hcases x hx with ⟨item, hd, -⟩ | ⟨he, -⟩
    · exact .inr ⟨item, hd⟩
    · exact .inl he
  · left
    -- without long numbers each lexeme has its item, and the item prints what was read
    have hshort : ∀ l ∈ Lexeme.ofTemplate template, ¬ l.HasLongNumber :=
      fun l hl hn => hlong ⟨l, hl, hn⟩
    obtain ⟨items, hitems⟩ : ∃ items, ofTemplate template = .ok items := by
      refine Fallible.exists_mapM_eq_ok fun l hl => ?_
      rcases hcases l hl with ⟨item, hd, -⟩ | ⟨-, hn⟩
      · exact ⟨item, hd⟩
      · exact absurd hn (hshort l hl)
    have hchunks : items.map chunk = (Lexeme.ofTemplate template).map Lexeme.chunk :=
      Fallible.map_eq_of_mapM_eq_ok
        (fun l hl _ hd => Lexeme.chunk_of_decode (hcanon l hl) hd) hitems
    refine ⟨items, hitems, ?_, fun item hm hne => ?_, hshort⟩
    · rwa [hchunks]
    · obtain ⟨l, hl, hd⟩ := Fallible.exists_mem_of_mapM_eq_ok hitems hm
      have hlit : ∀ s, l ≠ .literal s := by
        rintro s rfl
        cases hd
        exact hne s rfl
      rw [← source_chunk, Lexeme.chunk_of_decode (hcanon l hl) hd, Lexeme.source_chunk,
        Lexeme.ofText?_source hlit (hcanon l hl), hd]
      rfl

end Item
end Stencil
