import Stencil.Directive.Basic

/-!
# Reading directives

`Spec.read?` reads the directive at the beginning of a text, part by part from left to right.  The
parts share characters, and two rules settle who gets them:

* digits right after the percent sign that are followed by a dollar sign are the position; a zero
  is otherwise a flag as long as only flags stand before it;
* where a dollar sign follows the flags directly, the last flag, if it is a zero, is the number
  before that dollar sign, so that it stands in the place of the width.

Nothing is read where the text does not begin with a whole directive, and no directive is the
beginning of another.
-/

set_option autoImplicit false

namespace Stencil

/-- The digits at the beginning of a text and what follows them and a dollar sign, if there are
any and the dollar sign is there. -/
def Text.dollarNumber? (s : Text) : Option (Text × Text) :=
  match Text.run Text.isDecimalDigit s with
  | (d :: ds, '$' :: rest) => some (d :: ds, rest)
  | _ => none

namespace Flag

/-- The flags at the beginning of a text, and the rest. -/
def readAll : Text → List Flag × Text
  | [] => ([], [])
  | c :: s =>
    match ofChar? c with
    | some f => (f :: (readAll s).1, (readAll s).2)
    | none => ([], c :: s)

end Flag

namespace SizeSpec

/-- The size at the beginning of a text, and the rest. -/
def read? (s : Text) : Option (SizeSpec × Text) :=
  match s with
  | '*' :: s =>
    match Text.dollarNumber? s with
    | some (ds, rest) => some (argument ds, rest)
    | none => some (next, s)
  | s =>
    match Text.dollarNumber? s with
    | some (ds, rest) => some (ignored ds, rest)
    | none =>
      match Text.run Text.isDecimalDigit s with
      | ([], _) => none
      | (ds, rest) => some (literal ds, rest)

end SizeSpec

namespace Length

/-- The length modifier at the beginning of a text, and the rest. -/
def read : Text → Option Length × Text
  | 'h' :: 'h' :: s => (some byte, s)
  | 'h' :: s => (some short, s)
  | 'l' :: 'l' :: s => (some longLong, s)
  | 'l' :: s => (some long, s)
  | 'L' :: s => (some longDouble, s)
  | s => (none, s)

end Length

namespace Spec

/-- The position at the beginning of a text, and the rest. -/
def readPosition (s : Text) : Option Text × Text :=
  match Text.dollarNumber? s with
  | some (ds, rest) => (some ds, rest)
  | none => (none, s)

/-- The flags and the width at the beginning of a text, and the rest. -/
def readFlagsWidth (s : Text) : List Flag × Option SizeSpec × Text :=
  match Flag.readAll s with
  | (flags, '$' :: rest) =>
    if flags.getLast? = some .zero then (flags.dropLast, some (.ignored ['0']), rest)
    else (flags, none, '$' :: rest)
  | (flags, s) =>
    match SizeSpec.read? s with
    | some (width, rest) => (flags, some width, rest)
    | none => (flags, none, s)

/-- The precision at the beginning of a text, and the rest.  A point must be followed by a size. -/
def readPrecision? : Text → Option (Option SizeSpec × Text)
  | '.' :: s => (SizeSpec.read? s).map fun (p, rest) => (some p, rest)
  | s => some (none, s)

/-- Reads what follows the percent sign of a directive. -/
def readBody? (s : Text) : Option (Spec × Text) :=
  let p := readPosition s
  let f := readFlagsWidth p.2
  match readPrecision? f.2.2 with
  | none => none
  | some (precision, s) =>
    match Length.read s with
    | (_, []) => none
    | (length, c :: rest) =>
      (Conversion.ofLetter? c).map fun conversion =>
        (⟨p.1, f.1, f.2.1, precision, length, conversion⟩, rest)

/-- Reads the directive at the beginning of a text. -/
def read? : Text → Option (Spec × Text)
  | '%' :: s => readBody? s
  | _ => none

end Spec

/-! ## Nothing is lost in reading

Each reader splits its text: what it reads is written as the part of the text in front of the rest.
-/

theorem Text.eq_of_dollarNumber? {s ds rest : Text} (h : dollarNumber? s = some (ds, rest)) :
    s = ds ++ '$' :: rest := by
  unfold dollarNumber? at h
  split at h
  · rename_i hr
    cases h
    simpa [hr] using (run_append isDecimalDigit s).symm
  · cases h

theorem Flag.readAll_append (s : Text) : (readAll s).1.map char ++ (readAll s).2 = s := by
  induction s with
  | nil => rfl
  | cons c s ih =>
    unfold readAll
    split
    · rename_i f hf
      simp [ih, char_of_ofChar? hf]
    · rfl

theorem SizeSpec.eq_of_read? {s rest : Text} {z : SizeSpec} (h : read? s = some (z, rest)) :
    s = z.source ++ rest := by
  unfold read? at h
  split at h
  · split at h
    · rename_i hd
      cases h
      simp [source, Text.eq_of_dollarNumber? hd]
    · cases h
      rfl
  · split at h
    · rename_i hd
      cases h
      simp [source, Text.eq_of_dollarNumber? hd]
    · split at h
      · cases h
      · rename_i hr
        cases h
        simpa [hr, source] using (Text.run_append Text.isDecimalDigit s).symm

theorem Length.read_append (s : Text) : (read s).1.elim [] letters ++ (read s).2 = s := by
  unfold read
  split <;> rfl

namespace Spec

theorem readPosition_append (s : Text) :
    (readPosition s).1.elim [] (· ++ ['$']) ++ (readPosition s).2 = s := by
  unfold readPosition
  split
  · rename_i hd
    simp [Text.eq_of_dollarNumber? hd]
  · rfl

theorem readFlagsWidth_append (s : Text) :
    (readFlagsWidth s).1.map Flag.char ++
      ((readFlagsWidth s).2.1.elim [] SizeSpec.source ++ (readFlagsWidth s).2.2) = s := by
  have hf := Flag.readAll_append s
  unfold readFlagsWidth
  split
  · rename_i flags rest hr
    rw [hr] at hf
    split
    · rename_i hz
      obtain ⟨front, rfl⟩ := List.getLast?_eq_some_iff.1 hz
      simpa [SizeSpec.source, Flag.char] using hf
    · simpa using hf
  · rename_i hr
    rw [hr] at hf
    split
    · rename_i hz
      simpa [← SizeSpec.eq_of_read? hz] using hf
    · simpa using hf

theorem eq_of_readPrecision? {s rest : Text} {p : Option SizeSpec}
    (h : readPrecision? s = some (p, rest)) :
    s = p.elim [] (fun p => '.' :: p.source) ++ rest := by
  unfold readPrecision? at h
  split at h
  · obtain ⟨⟨z, r⟩, hz, hr⟩ := Option.map_eq_some_iff.1 h
    cases hr
    simp [SizeSpec.eq_of_read? hz]
  · cases h
    rfl

/-- **What is read is what was written**: the text is the source of the directive and the rest. -/
theorem eq_of_readBody? {s rest : Text} {spec : Spec} (h : readBody? s = some (spec, rest)) :
    '%' :: s = spec.source ++ rest := by
  have h1 := readPosition_append s
  have h2 := readFlagsWidth_append (readPosition s).2
  unfold readBody? at h
  simp only at h
  split at h
  · cases h
  · rename_i hp
    rw [eq_of_readPrecision? hp] at h2
    split at h
    · cases h
    · rename_i t _ l c r hl
      have h3 := Length.read_append t
      rw [hl] at h3
      obtain ⟨v, hv, he⟩ := Option.map_eq_some_iff.1 h
      cases he
      rw [← h3] at h2
      rw [← h2] at h1
      refine (congrArg (List.cons '%') h1.symm).trans ?_
      simp only [source, Conversion.letter_of_ofLetter? hv, List.append_assoc, List.cons_append,
        List.nil_append]

/-- **What is read is what was written**: the text is the source of the directive and the rest. -/
theorem eq_of_read? {s rest : Text} {spec : Spec} (h : read? s = some (spec, rest)) :
    s = spec.source ++ rest := by
  unfold read? at h
  split at h
  · exact eq_of_readBody? h
  · cases h

theorem length_lt_of_readBody? {s rest : Text} {spec : Spec}
    (h : readBody? s = some (spec, rest)) : rest.length < s.length := by
  have := congrArg List.length (eq_of_readBody? h)
  simp only [source, List.length_append, List.length_cons] at this
  omega

end Spec
end Stencil
