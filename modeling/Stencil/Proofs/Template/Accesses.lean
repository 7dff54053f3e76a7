import Mathlib.Data.List.Basic
import Stencil.Proofs.Template.Formatting

/-!
# The arguments that a template reads

Which arguments a template reads is settled by its text.  `Text.accesses` lists the reads of its
directives in order, each of them of the next argument or of the one at a position, and
`Text.positions` is the list of all positions that can be read.

What a reader of arguments needs to be is said once (`Cursor.Reads`): its result depends on the
arguments of its accesses alone, and it moves the cursor by as many as are taken in order, whatever
their values.  Sizes, values and directives are such readers, and so the output of a template is
the same from any two cursors that agree on its accesses (`Lexeme.formatAll_congr`).  In particular
it depends on the arguments at its positions alone (`formatWith_congr_positions`).
-/

set_option autoImplicit false

namespace Stencil

/-! ## Accesses

An access is all that a directive says about where an argument comes from.  Those at a position
leave the cursor where it is. -/

/-- A read of an argument: of the next one, or of the one at a position. -/
inductive Access where
  | next
  | position (n : Int)
  deriving DecidableEq, Repr

namespace Access

/-- The position that is written out in an access. -/
def position? : Access → Option Int
  | next => none
  | position n => some n

/-- How many of the accesses take the next argument. -/
def taken (as : List Access) : Nat := as.count next

@[simp] theorem taken_cons_next (as : List Access) : taken (next :: as) = taken as + 1 :=
  List.count_cons_self

@[simp] theorem taken_cons_position (n : Int) (as : List Access) :
    taken (position n :: as) = taken as :=
  List.count_cons_of_ne (by simp)

@[simp] theorem taken_append (as bs : List Access) : taken (as ++ bs) = taken as + taken bs :=
  List.count_append

end Access

/-! ## What is read

The reads are listed up to the first directive that is not understood.  The others are never
reached, as formatting fails there. -/

/-- The read that a size stands for; a literal reads nothing. -/
def Size.accesses : Size → List Access
  | literal _ => []
  | argument n => [.position n]
  | next => [.next]

/-- The reads of a directive: width, precision and value, in this order. -/
def Directive.accesses (d : Directive) : List Access :=
  d.width.elim [] Size.accesses ++ (d.precision.elim [] Size.accesses ++
    [d.position.elim .next fun n => .position n])

/-- The reads of an item. -/
def Item.accesses : Item → List Access
  | literal _ | escape => []
  | directive d => d.accesses

namespace Lexeme

/-- The items of lexemes up to the first that is not understood.  Formatting reaches no others. -/
def understood : List Lexeme → List Item
  | [] => []
  | l :: ls =>
    match l.decode with
    | .ok item => item :: understood ls
    | .error _ => []

/-- The reads of lexemes, one after the other. -/
def accesses (ls : List Lexeme) : List Access := (understood ls).flatMap Item.accesses

end Lexeme

namespace Text

/-- The reads of a template, one after the other. -/
def accesses (template : Text) : List Access := Lexeme.accesses (Lexeme.ofTemplate template)

/-- How many arguments a template takes in order. -/
def taken (template : Text) : Nat := Access.taken template.accesses

/-- The positions that a template reads: those that it writes out, and the first ones, as many as it
takes in order. -/
def positions (template : Text) : List Int :=
  template.accesses.filterMap Access.position? ++
    (List.range template.taken).map fun i : Nat => (i : Int) + 1

end Text

/-! ## Cursors that agree

Agreement is defined along the accesses, each from where the cursors have come to after those before
it. -/

namespace Cursor

/-- The argument of an access, and the cursor after it. -/
def access (c : Cursor) : Access → Value × Cursor
  | .next => c.next
  | .position n => (c.get n, c)

/-- The cursor after `n` more arguments were taken. -/
def skip (c : Cursor) (n : Nat) : Cursor := { c with offset := c.offset + n }

/-- Two cursors from which the accesses give the same arguments, one after the other. -/
def AgreeOn : List Access → Cursor → Cursor → Prop
  | [], _, _ => True
  | a :: as, c, c' => (c.access a).1 = (c'.access a).1 ∧ AgreeOn as (c.access a).2 (c'.access a).2

theorem skip_add (c : Cursor) (m n : Nat) : c.skip (m + n) = (c.skip m).skip n := by
  rw [skip, skip, skip, Nat.add_assoc]

/-- An access takes an argument in order, or none. -/
theorem access_skip (c : Cursor) (a : Access) (as : List Access) :
    (c.access a).2.skip (Access.taken as) = c.skip (Access.taken (a :: as)) := by
  cases a with
  | next =>
    rw [Access.taken_cons_next, Nat.add_comm, skip_add]
    rfl
  | position n => rw [Access.taken_cons_position, access]

theorem agreeOn_append {as bs : List Access} {c c' : Cursor} :
    AgreeOn (as ++ bs) c c' ↔
      AgreeOn as c c' ∧ AgreeOn bs (c.skip (Access.taken as)) (c'.skip (Access.taken as)) := by
  induction as generalizing c c' with
  | nil => exact (and_iff_right trivial).symm
  | cons a as ih =>
    rw [List.cons_append, AgreeOn, AgreeOn, ih, access_skip, access_skip, and_assoc]

/-! ## Readers

Readers are put together from single accesses.  What holds of the parts holds of the whole, so for
each reader of the program it is enough to write down its accesses. -/

/-- A reader of arguments with the given accesses: its result depends on the arguments of these
alone, and it moves the cursor whatever their values. -/
structure Reads {α : Type} (as : List Access) (read : Cursor → α × Cursor) : Prop where
  congr : ∀ c c', AgreeOn as c c' → (read c).1 = (read c').1
  moves : ∀ c, (read c).2 = c.skip (Access.taken as)

namespace Reads

variable {α β : Type} {as bs : List Access} {f : Cursor → α × Cursor} {g : Cursor → β × Cursor}

theorem nothing (a : α) : Reads [] fun c => (a, c) := ⟨fun _ _ _ => rfl, fun _ => rfl⟩

/-- A single access, and what is made of its argument. -/
theorem access (a : Access) (h : Value → α) :
    Reads [a] fun c => (h (c.access a).1, (c.access a).2) where
  congr _ _ hc := congrArg h hc.1
  moves c := by
    rw [← access_skip]
    rfl

/-- One reader after the other. -/
theorem pair (hf : Reads as f) (hg : Reads bs g) :
    Reads (as ++ bs) fun c => (((f c).1, (g (f c).2).1), (g (f c).2).2) where
  congr c c' h := by
    obtain ⟨has, hbs⟩ := agreeOn_append.1 h
    rw [← hf.moves c, ← hf.moves c'] at hbs
    exact Prod.ext (hf.congr c c' has) (hg.congr _ _ hbs)
  moves c := by
    rw [Access.taken_append, skip_add, hg.moves, hf.moves]

theorem map (hf : Reads as f) (h : α → β) : Reads as fun c => (h (f c).1, (f c).2) where
  congr c c' hc := congrArg h (hf.congr c c' hc)
  moves := hf.moves

end Reads
end Cursor

open Cursor

theorem Size.reads_operand? (z? : Option Size) :
    Reads (z?.elim [] Size.accesses) fun c => Size.operand? c z? := by
  rcases z? with _ | n | n | _
  · exact .nothing none
  · exact .nothing (some (SizeOperand.literal n))
  · exact .access (.position n) fun v => some (SizeOperand.argument v)
  · exact .access .next fun v => some (SizeOperand.argument v)

namespace Directive

theorem reads_value (d : Directive) :
    Reads [d.position.elim .next fun n => .position n] d.value := by
  obtain ⟨_, _, position, _, _, _, _⟩ := d
  rcases position with _ | n
  · exact .access .next id
  · exact .access (.position n) id

/-- **A directive reads its accesses and nothing else.** -/
theorem reads_operands (d : Directive) : Reads d.accesses d.operands :=
  ((Size.reads_operand? d.width).pair ((Size.reads_operand? d.precision).pair d.reads_value)).map
    fun r => Operands.mk r.1 r.2.1 r.2.2

end Directive

/-! ## The same output

By induction on the lexemes: each directive reads the same from both cursors and moves them alike.
-/

namespace Lexeme

@[simp] theorem accesses_literal (s : Text) (ls : List Lexeme) :
    accesses (literal s :: ls) = accesses ls :=
  rfl

@[simp] theorem accesses_escape (ls : List Lexeme) : accesses (escape :: ls) = accesses ls := rfl

theorem understood_directive {spec : Spec} {d : Directive} (h : spec.decode = .ok d)
    (ls : List Lexeme) : understood (directive spec :: ls) = .directive d :: understood ls := by
  rw [understood, decode, h]
  rfl

theorem accesses_directive {spec : Spec} {d : Directive} (h : spec.decode = .ok d)
    (ls : List Lexeme) : accesses (directive spec :: ls) = d.accesses ++ accesses ls := by
  rw [accesses, understood_directive h, List.flatMap_cons]
  rfl

/-- **Formatting depends on what is read alone**, wherever the cursors stand. -/
theorem formatAll_congr [Nesting] {ls : List Lexeme} {c c' : Cursor}
    (h : AgreeOn (accesses ls) c c') : formatAll ls c = formatAll ls c' := by
  induction ls generalizing c c' with
  | nil => rfl
  | cons l ls ih =>
    rcases l with s | _ | spec
    · rw [accesses_literal] at h
      rw [formatAll_literal, formatAll_literal, ih h]
    · rw [accesses_escape] at h
      rw [formatAll_escape, formatAll_escape, ih h]
    · cases hd : spec.decode with
      | error e => rw [formatAll_directive_error hd, formatAll_directive_error hd]
      | ok d =>
        rw [accesses_directive hd, agreeOn_append, ← d.reads_operands.moves,
          ← d.reads_operands.moves] at h
        obtain ⟨hd', hls⟩ := h
        rw [formatAll_directive hd, formatAll_directive hd, d.reads_operands.congr c c' hd',
          ih hls]

end Lexeme

/-! ## The positions alone

The accesses in order are those at the first positions, as many as are taken.  So a list of
positions says as much as the list of accesses, for arguments that are read from the beginning. -/

namespace Cursor

/-- Arguments that are the same at all positions that can be read are the same for the accesses. -/
theorem agreeOn_of_get {vs vs' : List Value} {as : List Access} {k : Nat}
    (hn : ∀ n, .position n ∈ as → (start vs).get n = (start vs').get n)
    (hk : ∀ i : Nat, k < i → i ≤ k + Access.taken as → (start vs).get i = (start vs').get i) :
    AgreeOn as ⟨vs, k⟩ ⟨vs', k⟩ := by
  induction as generalizing k with
  | nil => trivial
  | cons a as ih =>
    have hn' : ∀ n, .position n ∈ as → (start vs).get n = (start vs').get n :=
      fun n h => hn n (List.mem_cons_of_mem a h)
    cases a with
    | next =>
      rw [Access.taken_cons_next] at hk
      have hnext := hk (k + 1) (by omega) (by omega)
      have hrest : ∀ i : Nat, k + 1 < i → i ≤ k + 1 + Access.taken as →
          (start vs).get i = (start vs').get i :=
        fun i h1 h2 => hk i (by omega) (by omega)
      exact ⟨hnext, ih hn' hrest⟩
    | position n =>
      rw [Access.taken_cons_position] at hk
      exact ⟨hn n List.mem_cons_self, ih hn' hk⟩

theorem get_start_of_pos {n : Int} (h : 1 ≤ n) (vs : List Value) :
    (start vs).get n = vs[n.toNat - 1]?.getD .null := by
  rw [get, if_pos h, List.getD_eq_getElem?_getD]
  rfl

theorem get_start_of_not_pos {n : Int} (h : ¬ 1 ≤ n) (vs : List Value) :
    (start vs).get n = .null := if_neg h

/-- No argument is lost when others follow. -/
theorem get_append {vs : List Value} (more : List Value) {n : Int} (h : n ≤ vs.length) :
    (start (vs ++ more)).get n = (start vs).get n := by
  by_cases hn : 1 ≤ n
  · rw [get_start_of_pos hn, get_start_of_pos hn, List.getElem?_append_left (by omega)]
  · rw [get_start_of_not_pos hn, get_start_of_not_pos hn]

/-- Missing arguments count as null. -/
@[simp] theorem get_append_replicate_null (vs : List Value) (k : Nat) (n : Int) :
    (start (vs ++ List.replicate k .null)).get n = (start vs).get n := by
  by_cases h : n ≤ vs.length
  · exact get_append _ h
  · have hn : 1 ≤ n := by omega
    rw [get_start_of_pos hn, get_start_of_pos hn, List.getElem?_append_right (by omega),
      List.getElem?_eq_none (l := vs) (by omega), List.getElem?_replicate]
    split <;> rfl

end Cursor

namespace Text

theorem mem_positions_of_mem_accesses {template : Text} {n : Int}
    (h : .position n ∈ template.accesses) : n ∈ template.positions :=
  List.mem_append_left _ (List.mem_filterMap.2 ⟨_, h, rfl⟩)

theorem mem_positions_of_le_taken {template : Text} {i : Nat} (h : 0 < i)
    (hi : i ≤ template.taken) : (i : Int) ∈ template.positions :=
  List.mem_append_right _ (List.mem_map.2 ⟨i - 1, List.mem_range.2 (by omega), by omega⟩)

end Text

theorem format_congr_positions [Nesting] {template : Text} {vs vs' : List Value}
    (h : ∀ n ∈ template.positions, (start vs).get n = (start vs').get n) :
    format template vs = format template vs' := by
  refine Lexeme.formatAll_congr (agreeOn_of_get (fun n hn => ?_) fun i hpos hi => ?_)
  · exact h n (Text.mem_positions_of_mem_accesses hn)
  · rw [Nat.zero_add] at hi
    exact h i (Text.mem_positions_of_le_taken hpos hi)

/-- **A template sees its arguments at its positions alone.**  Arguments that are the same there
have the same output or the same fault; a missing argument counts as null.  So it does not matter
what follows behind all positions, or how many nulls follow. -/
theorem formatWith_congr_positions [Nesting] (template : Text) :
    (∀ (args args' : Value) (vs vs' : List Value), args.items = .ok vs → args'.items = .ok vs' →
      (∀ n ∈ template.positions, (start vs).get n = (start vs').get n) →
      formatWith template args = formatWith template args') ∧
    (∀ vs more : List Value, (∀ n ∈ template.positions, n ≤ vs.length) →
      formatWith template (.list (vs ++ more)) = formatWith template (.list vs)) ∧
    ∀ (vs : List Value) (k : Nat), formatWith template (.list (vs ++ List.replicate k .null)) =
      formatWith template (.list vs) := by
  have hlist (vs : List Value) : formatWith template (.list vs) = format template vs :=
    formatWith_eq_format rfl template
  refine ⟨fun args args' vs vs' hvs hvs' h => ?_, fun vs more h => ?_, fun vs k => ?_⟩
  · rw [formatWith_eq_format hvs, formatWith_eq_format hvs']
    exact format_congr_positions h
  · rw [hlist, hlist]
    exact format_congr_positions fun n hn => get_append more (h n hn)
  · rw [hlist, hlist]
    exact format_congr_positions fun n _ => get_append_replicate_null vs k n

/-- The third argument is read twice, for a width by its position and in order; the fourth is not
read, the fifth is missing on one side, and nothing is read behind the fifth. -/
theorem formatWith_congr_positions_unread :
    let template : Text := "%*3$s|%.*f|%5$d".toList
    let vs : List Value := [.text ['x'], .int 1, .int 4, .text "unread".toList]
    let vs' : List Value := [.text ['x'], .int 1, .int 4, .bool true, .null]
    (template.positions = [3, 5, 1, 2, 3] ∧ ∀ n ∈ template.positions,
        (start vs).get n = (start vs').get n) ∧
      formatWith template (.list vs) = .ok "   x|4.0|0".toList ∧
      formatWith template (.tuple vs') = .ok "   x|4.0|0".toList ∧
      formatWith template (.list (vs' ++ [.int 9])) = .ok "   x|4.0|0".toList := by
  intro template vs vs'
  have hpositions : template.positions = [3, 5, 1, 2, 3] := by decide +kernel
  have hsame : ∀ n ∈ template.positions, (start vs).get n = (start vs').get n := by
    rw [hpositions]
    simp only [List.forall_mem_cons]
    exact ⟨rfl, rfl, rfl, rfl, rfl, nofun⟩
  have hout : formatWith template (.list vs) = .ok "   x|4.0|0".toList := by decide +kernel
  have hlast : ∀ n ∈ template.positions, n ≤ vs'.length := by
    rw [hpositions]
    decide
  obtain ⟨hcongr, hmore, -⟩ := formatWith_congr_positions template
  have htuple := hcongr (.list vs) (.tuple vs') vs vs' rfl rfl hsame
  have hlist := hcongr (.list vs) (.list vs') vs vs' rfl rfl hsame
  refine ⟨⟨hpositions, hsame⟩, hout, htuple.symm.trans hout, ?_⟩
  rw [hmore vs' [.int 9] hlast, ← hlist, hout]

end Stencil
