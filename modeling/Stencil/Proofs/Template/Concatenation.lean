import Stencil.Proofs.Template.Accesses

/-!
# One template after the other

Two templates that are written one after the other are formatted one after the other: the second
gets the arguments that the first has not taken (`formatWith_append`).  Two things could stand in
the way.

* A percent sign at the end of the first template might begin a directive together with the second.
  Where no percent sign lies in literal text, the last lexeme is complete, and the division of the
  first template does not change (`Lexeme.formatAll_ofTemplate_append`).
* The second template might refer back to arguments by position.  Where it takes all its arguments
  in order, it does not matter whether the cursor has moved on or the arguments are gone
  (`Cursor.agreeOn_drop`).
-/

set_option autoImplicit false

namespace Stencil

/-! ## Dividing the first template -/

/-- A directive is read in the same way when more text follows. -/
theorem Spec.readBody?_append {s rest : Text} {spec : Spec}
    (h : Spec.readBody? s = some (spec, rest)) (t : Text) :
    Spec.readBody? (s ++ t) = some (spec, rest ++ t) := by
  have hs : s = spec.body ++ rest := by
    have he := Spec.eq_of_readBody? h
    rw [Spec.source_eq] at he
    exact (List.cons.inj he).2
  rw [hs, List.append_assoc]
  exact Spec.readBody?_body_append (Spec.canonical_of_readBody? h) (rest ++ t)

/-- An item that is no literal text with a percent sign in it. -/
def Item.Plain : Item → Prop
  | literal s => '%' ∉ s
  | escape | directive _ => True

instance (i : Item) : Decidable i.Plain :=
  match i with
  | .literal s => inferInstanceAs (Decidable ('%' ∉ s))
  | .escape | .directive _ => .isTrue trivial

namespace Lexeme

/-- No percent sign lies in the literal text that formatting reaches. -/
def PlainLiterals (ls : List Lexeme) : Prop := ∀ i ∈ understood ls, i.Plain

instance (ls : List Lexeme) : Decidable (PlainLiterals ls) :=
  inferInstanceAs (Decidable (∀ i ∈ understood ls, i.Plain))

theorem plainLiterals_literal_iff {s : Text} {ls : List Lexeme} :
    PlainLiterals (literal s :: ls) ↔ '%' ∉ s ∧ PlainLiterals ls := List.forall_mem_cons

theorem PlainLiterals.of_escape {ls : List Lexeme} (h : PlainLiterals (escape :: ls)) :
    PlainLiterals ls := (List.forall_mem_cons.1 h).2

theorem PlainLiterals.of_directive {spec : Spec} {d : Directive} {ls : List Lexeme}
    (h : PlainLiterals (directive spec :: ls)) (hd : spec.decode = .ok d) : PlainLiterals ls := by
  rw [PlainLiterals, understood_directive hd] at h
  exact (List.forall_mem_cons.1 h).2

theorem plainLiterals_consChar_iff {ch : Char} {ls : List Lexeme} :
    PlainLiterals (consChar ch ls) ↔ ch ≠ '%' ∧ PlainLiterals ls := by
  unfold consChar
  split
  · rw [plainLiterals_literal_iff, plainLiterals_literal_iff, List.mem_cons, not_or, and_assoc]
    exact and_congr_left' ne_comm
  · rw [plainLiterals_literal_iff, List.mem_singleton]
    exact and_congr_left' ne_comm

@[simp] theorem accesses_consChar (ch : Char) (ls : List Lexeme) :
    accesses (consChar ch ls) = accesses ls := by
  unfold consChar
  split <;> rfl

/-! ## Formatting the two templates -/

/-- The output of one part and the output of the next. -/
def joined (x y : Except Fault Text) : Except Fault Text := do return (← x) ++ (← y)

@[simp] theorem joined_nil (y : Except Fault Text) : joined (.ok []) y = y := by
  cases y <;> rfl

theorem joined_map_append (w : Text) (x y : Except Fault Text) :
    joined (x.map (w ++ ·)) y = (joined x y).map (w ++ ·) := by
  cases x with
  | error e => rfl
  | ok u =>
    cases y with
    | error e => rfl
    | ok v => exact congrArg Except.ok (List.append_assoc w u v)

theorem joined_bind (x : Except Fault Text) (f : Text → Except Fault Text) (y : Except Fault Text) :
    joined (x >>= f) y = x >>= fun u => joined (f u) y := by
  cases x <;> rfl

/-- **What follows a template does not change how it is formatted**, as long as no percent sign is
left over in its literal text. -/
theorem formatAll_ofTemplate_append [Nesting] {s : Text} (h : PlainLiterals (ofTemplate s))
    (t : Text) (c : Cursor) :
    formatAll (ofTemplate (s ++ t)) c = joined (formatAll (ofTemplate s) c)
      (formatAll (ofTemplate t) (c.skip (Access.taken (accesses (ofTemplate s))))) := by
  fun_induction ofTemplate s generalizing c with
  | case1 => exact (joined_nil _).symm
  | case2 s ih =>
    rw [List.cons_append, List.cons_append, ofTemplate_escape, formatAll_escape, formatAll_escape,
      ih h.of_escape, accesses_escape]
    exact (joined_map_append ['%'] _ _).symm
  | case3 s _ spec rest hr ih =>
    rw [List.cons_append, ofTemplate_directive (Spec.readBody?_append hr t)]
    cases hd : spec.decode with
    | error e =>
      rw [formatAll_directive_error hd, formatAll_directive_error hd]
      rfl
    | ok d =>
      rw [formatAll_directive hd, formatAll_directive hd, ih (h.of_directive hd),
        accesses_directive hd, Access.taken_append, Cursor.skip_add, d.reads_operands.moves,
        joined_bind]
      exact congrArg _ (funext fun u => (joined_map_append u _ _).symm)
  | case4 s _ _ ih => exact absurd rfl (plainLiterals_consChar_iff.1 h).1
  | case5 ch s _ hne ih =>
    obtain ⟨hch, hs⟩ := plainLiterals_consChar_iff.1 h
    rw [List.cons_append, ofTemplate_char hch, formatAll_consChar, formatAll_consChar, ih hs,
      accesses_consChar]
    exact (joined_map_append [ch] _ _).symm

end Lexeme

/-! ## The arguments that are left -/

/-- Taking arguments in order from a later place is taking them from what is left. -/
theorem Cursor.agreeOn_drop {as : List Access} (h : ∀ a ∈ as, a = .next) (vs : List Value)
    (k j : Nat) : AgreeOn as ⟨vs, k + j⟩ ⟨vs.drop k, j⟩ := by
  induction as generalizing j with
  | nil => trivial
  | cons a as ih =>
    obtain ⟨rfl, has⟩ := List.forall_mem_cons.1 h
    refine ⟨?_, ih has (j + 1)⟩
    show (start vs).get ((k + j + 1 : Nat) : Int) = (start (vs.drop k)).get ((j + 1 : Nat) : Int)
    rw [get_start_of_pos (by omega), get_start_of_pos (by omega), List.getElem?_drop]
    congr 2

/-- **Formatting goes through templates one after the other.**  If no percent sign is left over in
the literal text of the first, and the second takes all its arguments in order, then both together
have the output of the first and the output of the second for the arguments that are left.  The
first fault of the two is the fault of both together. -/
theorem formatWith_append [Nesting] {s t : Text} (hs : Lexeme.PlainLiterals (Lexeme.ofTemplate s))
    (ht : ∀ a ∈ t.accesses, a = .next) {args : Value} {vs : List Value}
    (hvs : args.items = .ok vs) :
    formatWith (s ++ t) args = do
      return (← formatWith s args) ++ (← formatWith t (.list (vs.drop s.taken))) := by
  have hrest : Lexeme.formatAll (Lexeme.ofTemplate t) ((Cursor.start vs).skip s.taken) =
      format t (vs.drop s.taken) := by
    refine Lexeme.formatAll_congr ?_
    rw [Cursor.skip, Cursor.start, Nat.add_comm]
    exact Cursor.agreeOn_drop ht vs s.taken 0
  have hdrop : formatWith t (.list (vs.drop s.taken)) = format t (vs.drop s.taken) :=
    formatWith_eq_format rfl t
  rw [formatWith_eq_format hvs, formatWith_eq_format hvs, hdrop, ← hrest]
  exact Lexeme.formatAll_ofTemplate_append hs t (Cursor.start vs)

/-- The first template takes two arguments, one of them for a star, and one by position, so the star
of the second is the third argument. -/
theorem formatWith_append_stars :
    let x : Value := .float (.finite false 5629499534213120 (-51) (by decide))
    let s : Text := "%-*d|%1$s%%".toList
    let t : Text := "%.*f%".toList
    s.taken = 2 ∧ formatWith s (.list [.int 5, .int 42, .int 1, x]) = .ok "42   |5%".toList ∧
      formatWith t (.list [.int 1, x]) = .ok "2.5%".toList ∧
      formatWith (s ++ t) (.list [.int 5, .int 42, .int 1, x]) = .ok "42   |5%2.5%".toList := by
  intro x s t
  have htaken : s.taken = 2 := by decide +kernel
  have hs : formatWith s (.list [.int 5, .int 42, .int 1, x]) = .ok "42   |5%".toList := by
    decide +kernel
  have ht : formatWith t (.list [.int 1, x]) = .ok "2.5%".toList := by decide +kernel
  have hplain : Lexeme.PlainLiterals (Lexeme.ofTemplate s) := by decide +kernel
  have hnext : ∀ a ∈ t.accesses, a = .next := by decide +kernel
  refine ⟨htaken, hs, ht, ?_⟩
  rw [formatWith_append hplain hnext rfl, htaken, hs]
  show (formatWith t (.list [.int 1, x]) >>= fun v => .ok ("42   |5%".toList ++ v)) = _
  rw [ht]
  rfl

end Stencil
