import Stencil.Directive.Reader

/-!
# Templates

A template is literal text with directives in it.  A doubled percent sign is an escape for one
percent sign; a percent sign that begins neither is literal text.

`Lexeme.ofTemplate` divides a template, and the sources of the lexemes are the template again.
`Item.ofTemplate` understands each lexeme in turn, and fails at the first directive with a number
that has too many digits.
-/

set_option autoImplicit false

namespace Stencil

/-! ## As it is written -/

/-- A piece of a template as it is written. -/
inductive Lexeme where
  | literal (s : Text)
  | escape
  | directive (spec : Spec)
  deriving DecidableEq, Repr

namespace Lexeme

/-- The text a lexeme is written as. -/
def source : Lexeme → Text
  | literal s => s
  | escape => ['%', '%']
  | directive spec => spec.source

/-- Puts a literal character in front, into the first lexeme if that is literal. -/
def consChar (c : Char) : List Lexeme → List Lexeme
  | literal s :: ls => literal (c :: s) :: ls
  | ls => literal [c] :: ls

end Lexeme

namespace Lexeme

/-- Divides a template into its lexemes, from left to right. -/
def ofTemplate (s : Text) : List Lexeme :=
  match s with
  | [] => []
  | '%' :: '%' :: s => escape :: ofTemplate s
  | '%' :: s =>
    match _h : Spec.readBody? s with
    | some (spec, rest) => directive spec :: ofTemplate rest
    | none => consChar '%' (ofTemplate s)
  | c :: s => consChar c (ofTemplate s)
termination_by s.length
decreasing_by
  · simp only [List.length_cons]; omega
  · have := Spec.length_lt_of_readBody? ‹_›
    simp only [List.length_cons]; omega
  · simp
  · simp

@[simp] theorem flatMap_source_consChar (c : Char) (ls : List Lexeme) :
    (consChar c ls).flatMap source = c :: ls.flatMap source := by
  unfold consChar
  split <;> rfl

/-- The lexemes of a template are the template. -/
@[simp] theorem flatMap_source_ofTemplate (s : Text) : (ofTemplate s).flatMap source = s := by
  fun_induction ofTemplate s with
  | case1 => rfl
  | case2 s ih => rw [List.flatMap_cons, ih]; rfl
  | case3 s _ spec rest h ih =>
    rw [List.flatMap_cons, ih]
    exact (Spec.eq_of_readBody? h).symm
  | case4 s _ h ih => rw [flatMap_source_consChar, ih]
  | case5 c s _ _ ih => rw [flatMap_source_consChar, ih]

end Lexeme

/-! ## As it is understood -/

/-- A piece of a template as it is understood. -/
inductive Item where
  | literal (s : Text)
  | escape
  | directive (d : Directive)
  deriving DecidableEq, Repr

namespace Item

/-- The text an item was written as. -/
def source : Item → Text
  | literal s => s
  | escape => ['%', '%']
  | directive d => d.source

end Item

namespace Lexeme

/-- Understands a lexeme. -/
def decode : Lexeme → Except Fault Item
  | literal s => .ok (.literal s)
  | escape => .ok .escape
  | directive spec => do return .directive (← spec.decode)

end Lexeme

namespace Item

/-- Understands a template, up to the first number with too many digits. -/
def ofTemplate (s : Text) : Except Fault (List Item) := (Lexeme.ofTemplate s).mapM Lexeme.decode

/-- Understands a text that is one directive, or one escape, and nothing else. -/
def ofText? (s : Text) : Except Fault (Option Item) :=
  if s = ['%', '%'] then .ok (some escape)
  else match Spec.read? s with
    | some (spec, []) => do return some (directive (← spec.decode))
    | _ => .ok none

end Item
end Stencil
