import Stencil.Proofs.Number.Nearest
import Stencil.Proofs.Template.Formatting
import Stencil.Proofs.Template.Printed

/-!
# Sizes from arguments

A star takes a width or a precision from an argument.  The argument is read as a double, its sign
is split off, and the cursor moves on when the star has no number; a size that is written out goes
through none of this.  Still the two have the same output (`format_eq_of_literals`), whatever else
the directive asks for, as long as the double holds the integer exactly:

* a width from an argument is its magnitude, with the flag for filling after where the argument is
  negative (`LiteralWidth`);
* a precision from an argument is the argument, or no precision where it is negative
  (`LiteralPrecision`).

Formatting sees its sizes only through the field, so the proof is one equation between two fields
(`Field.ofOperands_congr`), and one lemma each for what a width and a precision resolve to.
-/

set_option autoImplicit false

namespace Stencil

/-! ## Places

Which argument a star reads depends on the stars before it, and on nothing that those read.  So it
can be said of the directive as it is written. -/

namespace SizeSpec

/-- The position of the argument that a star reads after `k` arguments were taken. -/
def place? (k : Nat) : SizeSpec → Option Nat
  | next => some (k + 1)
  | argument ds => (digitsNumber ds).toOption
  | literal _ | ignored _ => none

/-- How many arguments a size takes in order. -/
def taken : Option SizeSpec → Nat
  | some next => 1
  | _ => 0

end SizeSpec

/-- The position of the value of a directive after `k` arguments were taken. -/
def Spec.valuePlace? (k : Nat) (s : Spec) : Option Nat :=
  match s.position with
  | none => some (k + 1)
  | some ds => (digitsNumber ds).toOption

/-! ## Literals for stars

There is one case for each way in which a size can be written, and for a star one more for each sign
of its argument. -/

/-- A width and the literal that stands for it: the magnitude of the argument that its star reads.
The flag says whether the argument is negative.  What is no star stands for itself. -/
inductive LiteralWidth (args : List Value) : Option SizeSpec → Option SizeSpec → Bool → Prop where
  | kept {z? : Option SizeSpec} (h : ∀ z, z? = some z → z.place? 0 = none) :
    LiteralWidth args z? z? false
  | star {z : SizeSpec} {n : Nat} {w : Int} (hz : z.place? 0 = some n)
    (hw : (Cursor.start args).get n = .int w) (hpos : 1 ≤ w.natAbs) (hle : w.natAbs ≤ 2 ^ 53) :
    LiteralWidth args (some z) (some (.literal (Numeral.decimal w.natAbs))) (w < 0)

/-- A precision after `k` arguments, and the literal that stands for it: the argument that its star
reads, and nothing where the argument is negative.  What is no star stands for itself. -/
inductive LiteralPrecision (args : List Value) (k : Nat) :
    Option SizeSpec → Option SizeSpec → Prop where
  | kept {z? : Option SizeSpec} (h : ∀ z, z? = some z → z.place? k = none) :
    LiteralPrecision args k z? z?
  | star {z : SizeSpec} {n : Nat} {p : Int} (hz : z.place? k = some n)
    (hp : (Cursor.start args).get n = .int p) (hle : p.natAbs ≤ 2 ^ 53) :
    LiteralPrecision args k (some z)
      (if p < 0 then none else some (.literal (Numeral.decimal p.toNat)))

/-! ## What sizes resolve to

Integers up to `2 ^ 53` are doubles, so nothing is lost when a size is read as one.  A star takes
its argument and the literal takes none, but both resolve to the same number, up to its sign. -/

/-- An integer that a double holds is read as a size. -/
theorem SizeOperand.read_int {n : Int} (h : n.natAbs ≤ 2 ^ 53) :
    (SizeOperand.argument (.int n)).read = .ok (some n) := by
  have hsize : (Value.int n).toSize = .ok (.good (some n)) := by
    have hok : (Coerced.good (Binary64.ofInt n)).ok = true := rfl
    have ht : (Coerced.good (Binary64.ofInt n)).value.truncate? = some n :=
      Binary64.truncate?_ofInt h
    rw [Value.toSize, Value.toFloat, Fallible.ok_bind, if_pos hok, ht]
    rfl
  rw [read, hsize]
  rfl

namespace Size

/-- After `k` of the arguments were taken, the size can be read, it resolves to `n?`, and then `k'`
were taken. -/
structure Resolves (vs : List Value) (k : Nat) (z? : Option Size) (n? : Option Int) (k' : Nat) :
    Prop where
  size : (operand? ⟨vs, k⟩ z?).1.bind SizeOperand.resolve = n?
  cursor : (operand? ⟨vs, k⟩ z?).2 = ⟨vs, k'⟩
  reads : ∀ z, (operand? ⟨vs, k⟩ z?).1 = some z → ∃ n, z.read = .ok n

/-- A literal is the size that it says, and no argument is taken for it. -/
theorem resolves_literal (vs : List Value) (k : Nat) (n : Int) :
    Resolves vs k (some (literal n)) (some n) k where
  size := rfl
  cursor := rfl
  reads := by
    rintro z ⟨⟩
    exact ⟨some n, rfl⟩

/-- A size that is not there is none. -/
theorem resolves_none (vs : List Value) (k : Nat) : Resolves vs k none none k :=
  ⟨rfl, rfl, nofun⟩

/-- An argument that is an integer is read as it is. -/
theorem resolves_int {vs : List Value} {k k' : Nat} {z : Size} {m : Int}
    (h : operand? ⟨vs, k⟩ (some z) = (some (.argument (.int m)), ⟨vs, k'⟩))
    (hm : m.natAbs ≤ 2 ^ 53) : Resolves vs k (some z) (some m) k' where
  size := by
    rw [h, Option.bind_some, SizeOperand.resolve, SizeOperand.read_int hm]
  cursor := by rw [h]
  reads := by
    rw [h]
    rintro z ⟨⟩
    exact ⟨some m, SizeOperand.read_int hm⟩

end Size

namespace SizeSpec

variable {vs vs' : List Value} {k k' : Nat}

theorem lt_of_natAbs_le {n : Nat} (h : n ≤ 2 ^ 53) : n < 10 ^ Numeral.digitLimit := by
  have hlt : 2 ^ 53 < 10 ^ Numeral.digitLimit := by decide +kernel
  omega

theorem decode_literal_decimal {n : Nat} (h : n ≤ 2 ^ 53) :
    (literal (Numeral.decimal n)).decode = .ok (some (.literal n)) := by
  rw [decode, digitsNumber_decimal (lt_of_natAbs_le h)]
  rfl

/-- A star resolves to the integer at its place. -/
theorem exists_decode_star {z : SizeSpec} {n : Nat} (hz : z.place? k = some n) {m : Int}
    (hm : (Cursor.start vs).get n = .int m) (hle : m.natAbs ≤ 2 ^ 53) :
    ∃ r, z.decode = .ok r ∧ Size.Resolves vs k r (some m) (k + taken (some z)) := by
  cases z with
  | next =>
    cases hz
    refine ⟨_, rfl, Size.resolves_int ?_ hle⟩
    show (some (SizeOperand.argument ((Cursor.start vs).get ((k + 1 : Nat) : Int))), _) = _
    rw [hm]
    rfl
  | argument ds =>
    cases hd : digitsNumber ds with
    | error e =>
      rw [place?, hd] at hz
      cases hz
    | ok i =>
      rw [place?, hd] at hz
      cases hz
      refine ⟨some (.argument n), by rw [decode, hd]; rfl, Size.resolves_int ?_ hle⟩
      show (some (SizeOperand.argument ((Cursor.start vs).get n)), _) = _
      rw [hm]
      rfl
  | literal ds => cases hz
  | ignored ds => cases hz

/-- What is no star resolves to a natural number or to nothing, whatever the arguments. -/
theorem resolves_of_place?_eq_none {z? : Option SizeSpec}
    (h : ∀ z, z? = some z → z.place? k = none) {r : Option Size} (hr : decode? z? = .ok r) :
    ∃ n? : Option Nat, ∀ vs k, Size.Resolves vs k r (n?.map Int.ofNat) k := by
  cases z? with
  | none =>
    cases hr
    exact ⟨none, Size.resolves_none⟩
  | some z =>
    cases z with
    | next => cases h _ rfl
    | argument ds =>
      have hz := h _ rfl
      rw [decode?, decode] at hr
      obtain ⟨n, hn, -⟩ := Fallible.exists_of_bind hr
      rw [place?, hn] at hz
      cases hz
    | literal ds =>
      rw [decode?, decode] at hr
      obtain ⟨n, -, hn⟩ := Fallible.exists_of_bind hr
      cases hn
      exact ⟨some n, fun vs k => Size.resolves_literal vs k n⟩
    | ignored ds =>
      cases hr
      exact ⟨none, Size.resolves_none⟩

theorem taken_of_place?_eq_none {z? : Option SizeSpec}
    (h : ∀ z, z? = some z → z.place? k = none) : taken z? = 0 := by
  cases z? with
  | none => rfl
  | some z =>
    cases z with
    | next => cases h _ rfl
    | _ => rfl

end SizeSpec

open SizeSpec

variable {args : List Value}

/-- A width and its literal are understood alike, and resolve to the same magnitude. -/
theorem LiteralWidth.alike_decode? {z? z'? : Option SizeSpec} {left : Bool}
    (h : LiteralWidth args z? z'? left) (args' : List Value) :
    Fallible.Alike (fun r r' => ∃ w? : Option Int, left = w?.any (· < 0) ∧
      Size.Resolves args 0 r w? (taken z?) ∧
      Size.Resolves args' 0 r' (w?.map fun w => (w.natAbs : Int)) 0)
      (decode? z?) (decode? z'?) := by
  cases h with
  | kept h =>
    refine Fallible.Alike.self fun r hr => ?_
    obtain ⟨n?, hn⟩ := resolves_of_place?_eq_none h hr
    have hany : (n?.map Int.ofNat).any (· < 0) = false := by cases n? <;> simp
    rw [taken_of_place?_eq_none h]
    refine ⟨n?.map Int.ofNat, hany.symm, hn args 0, ?_⟩
    rw [Option.map_map]
    exact hn args' 0
  | @star z n w hz hw hpos hle =>
    obtain ⟨r, hr, hres⟩ := exists_decode_star hz hw hle
    have hr' : decode? (some (literal (Numeral.decimal w.natAbs))) =
        .ok (some (.literal w.natAbs)) := decode_literal_decimal hle
    rw [hr', decode?, hr]
    rw [Nat.zero_add] at hres
    exact ⟨some w, rfl, hres, Size.resolves_literal args' 0 w.natAbs⟩

/-- A precision and its literal are understood alike, and resolve to the same natural number. -/
theorem LiteralPrecision.alike_decode? {k : Nat} {z? z'? : Option SizeSpec}
    (h : LiteralPrecision args k z? z'?) (args' : List Value) :
    Fallible.Alike (fun r r' => ∃ p? : Option Int,
      Size.Resolves args k r p? (k + taken z?) ∧
      Size.Resolves args' 0 r' (p?.filter (0 ≤ ·)) 0)
      (decode? z?) (decode? z'?) := by
  cases h with
  | kept h =>
    refine Fallible.Alike.self fun r hr => ?_
    obtain ⟨n?, hn⟩ := resolves_of_place?_eq_none h hr
    have hfilter : (n?.map Int.ofNat).filter (0 ≤ ·) = n?.map Int.ofNat := by cases n? <;> simp
    rw [taken_of_place?_eq_none h]
    refine ⟨n?.map Int.ofNat, hn args k, ?_⟩
    rw [hfilter]
    exact hn args' 0
  | @star z n p hz hp hle =>
    obtain ⟨r, hr, hres⟩ := exists_decode_star hz hp hle
    rw [decode?, hr]
    split
    · rename_i hneg
      refine ⟨some p, hres, ?_⟩
      rw [Option.filter_some_neg (by simpa using hneg)]
      exact Size.resolves_none args' 0
    · rename_i hnonneg
      have hp' : ((p.toNat : Nat) : Int) = p := Int.toNat_of_nonneg (by omega)
      rw [decode?, decode_literal_decimal (by omega), hp']
      refine ⟨some p, hres, ?_⟩
      rw [Option.filter_some_pos (by simpa using hnonneg)]
      exact Size.resolves_literal args' 0 p

/-! ## The same field

Two things are left of the sign of a size when its field is made: on which side the fill goes, and
whether there is a precision at all. -/

/-- Sizes with their signs taken off give the same field: the sign of the width has become the flag
for filling after, and a negative precision has become none. -/
theorem Field.ofOperands_congr {d d' : Directive} {o o' : Operands} {w? p? : Option Int}
    (hw : o.width.bind SizeOperand.resolve = w?)
    (hw' : o'.width.bind SizeOperand.resolve = w?.map fun w => (w.natAbs : Int))
    (hp : o.precision.bind SizeOperand.resolve = p?)
    (hp' : o'.precision.bind SizeOperand.resolve = p?.filter (0 ≤ ·))
    (hl : d'.left = (d.left || w?.any (· < 0)))
    (hz : d'.flags.contains .zero = d.flags.contains .zero) :
    Field.ofOperands d' o' = Field.ofOperands d o := by
  have hany : (w?.map fun w => (w.natAbs : Int)).any (· < 0) = false := by
    cases w? with
    | none => rfl
    | some w => simp
  simp only [ofOperands, hw, hw', hp, hp', hany, Directive.zero, hl, hz, Option.map_map,
    Option.filter_filter, Bool.or_false, Bool.and_self]
  congr 1
  cases d.left <;> simp

namespace Directive

/-- In one field, a conversion depends on the flags only through the sign and the alternate form. -/
theorem formatValue_congr_flags [Nesting] {d d' : Directive} (hc : d'.conversion = d.conversion)
    (h : ∀ f, f ≠ .left → (f ∈ d'.flags ↔ f ∈ d.flags)) (f : Field) (x : Value) :
    d'.formatValue f x = d.formatValue f x := by
  have hcontains {g : Flag} (hg : g ≠ .left) : d'.flags.contains g = d.flags.contains g := by
    rw [Bool.eq_iff_iff, List.contains_iff_mem, List.contains_iff_mem]
    exact h g hg
  have hs : d'.sign = d.sign := by
    funext negative
    rw [sign, sign, hcontains (g := .plus) (by decide), hcontains (g := .space) (by decide)]
  have ha : d'.alternate = d.alternate := hcontains (g := .alternate) (by decide)
  simp only [formatValue, formatText, formatInteger, integerLead, formatFloat, truthText, inCase,
    hc, hs, ha]

end Directive

/-! ## The same value

Stars without a number come before the value and move it on by one each.  Without them the value
needs its position written out, or the arguments need to be without those that the stars take. -/

/-- The value is the argument at its place, wherever the cursor has come to. -/
theorem Directive.value_of_valuePlace? {s : Spec} {d : Directive}
    (hd : s.position.mapM digitsNumber = .ok d.position) {vs : List Value} {k : Nat} {x : Value}
    (hx : ∀ n, s.valuePlace? k = some n → (Cursor.start vs).get n = x) :
    (d.value ⟨vs, k⟩).1 = x := by
  cases hp : s.position with
  | none =>
    rw [hp] at hd
    have hnone : d.position = none := (Except.ok.inj hd).symm
    have hplace := hx (k + 1) (by rw [Spec.valuePlace?, hp])
    rw [value, hnone]
    exact hplace
  | some ds =>
    rw [hp, Option.mapM_some] at hd
    obtain ⟨n, hn, hd⟩ := Fallible.exists_of_bind hd
    have hsome : d.position = some n := (Except.ok.inj hd).symm
    have hplace := hx n (by rw [Spec.valuePlace?, hp]; exact congrArg Except.toOption hn)
    rw [value, hsome]
    exact hplace

/-! ## The literals can be read

A literal is written with a natural number, and it stands where the star did.  A width of zero would
be read as a flag, and is excluded. -/

theorem LiteralWidth.written {z? z'? : Option SizeSpec} {left : Bool}
    (h : LiteralWidth args z? z'? left) (hz : ∀ z, z? = some z → z.Written ∧ z.FollowsFlags) :
    ∀ z, z'? = some z → z.Written ∧ z.FollowsFlags := by
  cases h with
  | kept => exact hz
  | star _ _ hpos _ =>
    rintro z ⟨⟩
    exact ⟨Numeral.isDigits_decimal _, Numeral.head?_decimal_ne_zero (by omega)⟩

theorem LiteralPrecision.written {k : Nat} {z? z'? : Option SizeSpec}
    (h : LiteralPrecision args k z? z'?) (hz : ∀ z, z? = some z → z.Written) :
    ∀ z, z'? = some z → z.Written := by
  cases h with
  | kept => exact hz
  | star =>
    intro z hz'
    split at hz'
    · cases hz'
    · cases hz'
      exact Numeral.isDigits_decimal _

/-- Literals in the place of stars leave a spec canonical. -/
theorem Spec.Canonical.literals {s : Spec} (hs : s.Canonical) {flags : List Flag}
    {width precision : Option SizeSpec} {left : Bool} {k : Nat}
    (hw : LiteralWidth args s.width width left)
    (hp : LiteralPrecision args k s.precision precision)
    (hf : ∀ f, f ∈ flags ↔ f ∈ s.flags ∨ left = true ∧ f = .left) :
    { s with flags := flags, width := width, precision := precision : Spec }.Canonical := by
  obtain ⟨position, flags₀, width₀, precision₀, length, conversion⟩ := s
  have hwidth := hw.written fun z hz => ⟨hs.written.width z hz, hs.width z hz⟩
  refine ⟨⟨hs.written.position, fun z hz => (hwidth z hz).1, hp.written hs.written.precision⟩,
    fun z hz => (hwidth z hz).2, fun hpos hzero ds => ?_⟩
  cases hw with
  | kept => exact hs.position hpos (fun f hm => hzero f ((hf f).2 (.inl hm))) ds
  | star => rintro ⟨⟩

/-! ## The same output

The two directives are understood alike, read the same value, and have the same field. -/

namespace Directive

variable {args' : List Value} {w? p? : Option Int}

/-- What a directive reads, by what its sizes resolve to. -/
theorem operands_of_resolves {d : Directive} {k₁ k₂ : Nat}
    (hw : Size.Resolves args 0 d.width w? k₁) (hp : Size.Resolves args k₁ d.precision p? k₂) :
    ∃ o : Operands, (d.operands (Cursor.start args)).1 = o ∧ o.readSizes = .ok () ∧
      o.width.bind SizeOperand.resolve = w? ∧ o.precision.bind SizeOperand.resolve = p? ∧
      o.value = (d.value ⟨args, k₂⟩).1 := by
  have hprecision : (d.operands (Cursor.start args)).1.precision =
      (Size.operand? ⟨args, k₁⟩ d.precision).1 := by
    show (Size.operand? (Size.operand? ⟨args, 0⟩ d.width).2 d.precision).1 = _
    rw [hw.cursor]
  refine ⟨_, rfl, Operands.readSizes_eq_ok hw.reads (hprecision ▸ hp.reads), hw.size,
    hprecision ▸ hp.size, ?_⟩
  show (d.value (Size.operand? (Size.operand? ⟨args, 0⟩ d.width).2 d.precision).2).1 = _
  rw [hw.cursor, hp.cursor]

/-- Two directives that differ in the signs of their sizes have the same output. -/
theorem output_eq_of_resolves [Nesting] {d d' : Directive} {k₁ k₂ : Nat}
    (hc : d'.conversion = d.conversion)
    (hf : ∀ f, f ∈ d'.flags ↔ f ∈ d.flags ∨ w?.any (· < 0) = true ∧ f = .left)
    (hw : Size.Resolves args 0 d.width w? k₁)
    (hw' : Size.Resolves args' 0 d'.width (w?.map fun w => (w.natAbs : Int)) 0)
    (hp : Size.Resolves args k₁ d.precision p? k₂)
    (hp' : Size.Resolves args' 0 d'.precision (p?.filter (0 ≤ ·)) 0)
    (hx : (d'.value ⟨args', 0⟩).1 = (d.value ⟨args, k₂⟩).1) :
    d'.output (d'.operands (Cursor.start args')).1 =
      d.output (d.operands (Cursor.start args)).1 := by
  obtain ⟨o, ho, hread, how, hop, hox⟩ := operands_of_resolves hw hp
  obtain ⟨o', ho', hread', how', hop', hox'⟩ := operands_of_resolves hw' hp'
  have hl : d'.left = (d.left || w?.any (· < 0)) := by
    rw [Bool.eq_iff_iff, Bool.or_eq_true, left, left, List.contains_iff_mem,
      List.contains_iff_mem, hf, and_iff_left rfl]
  have hz : d'.flags.contains .zero = d.flags.contains .zero := by
    rw [Bool.eq_iff_iff, List.contains_iff_mem, List.contains_iff_mem, hf]
    simp
  have hflags (f : Flag) (hne : f ≠ .left) : f ∈ d'.flags ↔ f ∈ d.flags := by
    rw [hf, or_iff_left fun h => hne h.2]
  rw [ho, ho', output_eq_format hread, output_eq_format hread', format, format,
    Field.ofOperands_congr how how' hop hop' hl hz, hox', hox, hx,
    formatValue_congr_flags hc hflags]

end Directive

/-- **A star is worth the literal of the integer that it reads**, with the same output and the same
faults: a width from an argument is its magnitude, filled after the output where the argument is
negative, and a precision from an argument is none where it is negative.  Width and precision may
both be stars, with a number or without. -/
theorem format_eq_of_literals [Nesting] {s : Spec} (hs : s.Canonical) {args args' : List Value}
    {width precision : Option SizeSpec} {flags : List Flag} {left : Bool} {x : Value}
    (hw : LiteralWidth args s.width width left)
    (hp : LiteralPrecision args (taken s.width) s.precision precision)
    (hf : ∀ f, f ∈ flags ↔ f ∈ s.flags ∨ left = true ∧ f = .left)
    (hx : ∀ n, s.valuePlace? (taken s.width + taken s.precision) = some n →
      (Cursor.start args).get n = x)
    (hx' : ∀ n, s.valuePlace? 0 = some n → (Cursor.start args').get n = x) :
    format s.source args =
      format { s with flags := flags, width := width, precision := precision : Spec }.source
        args' := by
  -- both directives are decoded side by side, and where both succeed their outputs agree
  let s' : Spec := { s with flags := flags, width := width, precision := precision }
  have halike : Fallible.Alike (fun d d' =>
      d.output (d.operands (Cursor.start args)).1 = d'.output (d'.operands (Cursor.start args')).1)
      s.decode s'.decode := by
    refine Fallible.Alike.bind (Fallible.Alike.self (R := fun n n' => n = n' ∧
      s.position.mapM digitsNumber = .ok n) fun n hn => ⟨rfl, hn⟩) ?_
    rintro n _ ⟨rfl, hn⟩
    -- the width first and the precision after it, which is also the order of their faults
    refine (hw.alike_decode? args').bind ?_
    rintro w w' ⟨w?, rfl, hrw, hrw'⟩
    refine (hp.alike_decode? args').bind ?_
    rintro p p' ⟨p?, hrp, hrp'⟩
    -- the two directives differ in their sizes and flags only, and these resolve to the same
    let d : Directive := ⟨s.source, s.conversion, n, s.flags, w, p, s.length⟩
    let d' : Directive := ⟨s'.source, s.conversion, n, flags, w', p', s.length⟩
    have hv : (d.value ⟨args, taken s.width + taken s.precision⟩).1 = x :=
      Directive.value_of_valuePlace? hn hx
    have hv' : (d'.value ⟨args', 0⟩).1 = x := Directive.value_of_valuePlace? hn hx'
    have hd : d'.output (d'.operands (Cursor.start args')).1 =
        d.output (d.operands (Cursor.start args)).1 :=
      Directive.output_eq_of_resolves rfl hf hrw hrw' hrp hrp' (hv'.trans hv.symm)
    exact hd.symm
  rw [format_source hs, format_source (hs.literals hw hp hf)]
  rcases halike.cases with ⟨d, d', he, he', hd⟩ | ⟨e, he, he'⟩
  · rw [he, he']
    exact hd
  · rw [he, he']
    rfl

/-- A negative width without a number and a precision with one: the minus fills after the output and
takes the zeros away. -/
theorem format_eq_of_literals_negative :
    let s : Spec := ⟨none, [.zero, .plus], some .next, some (.argument ['3']), none, .decimal⟩
    let args : List Value := [.int (-8), .int 42, .int 5]
    (s.Canonical ∧ LiteralWidth args s.width (some (.literal ['8'])) true ∧
      LiteralPrecision args 1 s.precision (some (.literal ['5'])) ∧
      (∀ n, s.valuePlace? 1 = some n → (Cursor.start args).get n = .int 42)) ∧
    format "%0+*.*3$d".toList args = format "%0-+8.5d".toList [.int 42] ∧
    format "%0-+8.5d".toList [.int 42] = .ok "+00042  ".toList := by
  intro s args
  have hs : s.Canonical := {
    written := {
      position := nofun
      width := by
        rintro z ⟨⟩
        trivial
      precision := by
        rintro z ⟨⟩
        exact Numeral.isDigits_decimal 3 }
    width := by
      rintro z ⟨⟩
      trivial
    position := by rintro - - ds ⟨⟩ }
  have hw : LiteralWidth args s.width (some (.literal ['8'])) true :=
    .star (z := .next) (n := 1) (w := -8) rfl rfl (by decide) (by decide)
  have hp : LiteralPrecision args 1 s.precision (some (.literal ['5'])) :=
    .star (z := .argument ['3']) (n := 3) (p := 5) rfl rfl (by decide)
  have hx : ∀ n, s.valuePlace? 1 = some n → (Cursor.start args).get n = .int 42 := by
    rintro n ⟨⟩
    rfl
  have hx' : ∀ n, s.valuePlace? 0 = some n → (Cursor.start [.int 42]).get n = .int 42 := by
    rintro n ⟨⟩
    rfl
  have hf (f : Flag) : f ∈ [Flag.zero, .left, .plus] ↔ f ∈ s.flags ∨ true = true ∧ f = .left := by
    cases f <;> decide
  exact ⟨⟨hs, hw, hp, hx⟩, format_eq_of_literals hs hw hp hf hx hx', by decide +kernel⟩

end Stencil
