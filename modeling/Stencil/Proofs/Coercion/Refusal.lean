import Stencil.Coercion.Text
import Stencil.Proofs.Coercion.Raised

/-!
# Readings that fail

An argument that cannot be read as what is needed is read as a default.  A default stands for
exceptions of some classes only, and an object that is asked for something may raise one of any
class.  Whether a reading holds it back depends on whom it asks for what, and in which order.

`Value.Refuses` says for each kind of reading whose exceptions get past it: those of an object that
is asked for its integer, for its double, or for its truth, those that are raised for the text of a
value, and those that are raised for the texts of the elements of a set that is written as JSON.
`Value.read_eq_ok_iff` says that this is all: of each kind of reading and of each value, whether it
gives a result, and otherwise with which exception it fails.
-/

set_option autoImplicit false

namespace Stencil

open Fallible Nesting

variable {e : ErrorClass} {f : Fault}

/-! ## What an object is asked for

The two questions for a number are asked in one order for an integer, and in the other for a double.
-/

namespace Fault

theorem ofAnswer_eq_error_iff {α : Type} {r : Except ErrorClass α} :
    ofAnswer r = .error f ↔ ∃ e, r = .error e ∧ f = .raised e := by
  cases r with
  | ok a => exact iff_of_false nofun (by rintro ⟨_, ⟨⟩, -⟩)
  | error e => exact ⟨fun h => ⟨e, rfl, (Except.error.inj h).symm⟩, by rintro ⟨_, ⟨⟩, rfl⟩; rfl⟩

/-- Only an object asks to end the program. -/
theorem eq_raised_of_not_isException (h : f.errorClass.isException = false) :
    ∃ e, f = .raised e := by
  cases f with
  | raised e => exact ⟨e, rfl⟩
  | _ => cases h

end Fault

namespace Foreign

variable {o : Foreign}

/-- The object raises an exception where it is asked for a double: for the double itself, or, if it
gives none, for its integer. -/
def RaisesDouble (o : Foreign) (e : ErrorClass) : Prop :=
  o.float = some (.error e) ∨ o.float = none ∧ o.index = some (.error e)

/-- The object is read as an integer, and its exception is not held back: that for its integer,
unless it is of the wrong type; or else that for its double, if it is asked for one. -/
def RefusesInteger (o : Foreign) (e : ErrorClass) : Prop :=
  (o.index = some (.error e) ∧ e ≠ .wrongType) ∨
    (o.index = none ∨ o.index = some (.error .wrongType)) ∧ o.isReal = true ∧
      o.float = some (.error e) ∧ e.isNoNumber = false

/-- What is caught where the integer is asked for leaves it to the double. -/
theorem toInt_eq_error_iff : o.toInt = .error f ↔
    (∃ e, f = .raised e ∧ o.index = some (.error e)) ∨ f = .notInteger ∧ o.index = none := by
  rw [toInt]
  split
  · rename_i r hr
    rw [hr, Fault.ofAnswer_eq_error_iff, or_iff_left (by rintro ⟨-, ⟨⟩⟩)]
    exact exists_congr fun e =>
      ⟨fun h => ⟨h.2, congrArg some h.1⟩, fun h => ⟨Option.some.inj h.2, h.1⟩⟩
  · rename_i hn
    rw [hn, or_iff_right (by rintro ⟨_, -, ⟨⟩⟩)]
    exact ⟨fun h => ⟨(Except.error.inj h).symm, rfl⟩, fun h => h.1 ▸ rfl⟩

/-- What is not caught where the double is asked for is an exception of the object. -/
theorem toDouble_eq_error_iff : o.toDouble = .error f ∧ f.errorClass.isNoNumber = false ↔
    ∃ e, f = .raised e ∧ o.RaisesDouble e ∧ e.isNoNumber = false := by
  constructor
  · rintro ⟨h, hf⟩
    rw [toDouble] at h
    split at h
    · rename_i hr
      obtain ⟨e, rfl, rfl⟩ := Fault.ofAnswer_eq_error_iff.1 h
      exact ⟨e, rfl, .inl hr, hf⟩
    · rename_i hfloat hindex
      rcases bind_eq_error_iff.1 h with h | ⟨n, -, h⟩
      · obtain ⟨e, rfl, rfl⟩ := Fault.ofAnswer_eq_error_iff.1 h
        exact ⟨e, rfl, .inr ⟨hfloat, hindex⟩, hf⟩
      · split at h <;> cases h
        cases hf
    · cases h
      cases hf
  · rintro ⟨e, rfl, h | ⟨hfloat, hindex⟩, he⟩
    · exact ⟨by rw [toDouble, h]; rfl, he⟩
    · exact ⟨by rw [toDouble, hfloat, hindex]; rfl, he⟩

theorem foreignInteger_eq_error_iff :
    Value.foreignInteger o = .error f ↔ ∃ e, f = .raised e ∧ o.RefusesInteger e := by
  -- the second attempt, by way of the double, is made for reals only
  have hdouble : (if o.isReal then
        Fault.catching ErrorClass.isNoNumber
          (o.toDouble.map fun x => Coerced.ofOption 0 x.truncate?) (.ok (.fallback 0))
      else .ok (.fallback 0)) = .error f ↔
      o.isReal = true ∧ ∃ e, f = .raised e ∧ o.RaisesDouble e ∧ e.isNoNumber = false := by
    rw [← toDouble_eq_error_iff]
    split
    · rename_i hr
      rw [Fault.catching_eq_error_iff, map_eq_error_iff, or_iff_left (by rintro ⟨-, ⟨⟩⟩),
        and_iff_right hr]
    · rename_i hr
      exact iff_of_false nofun fun h => hr h.1
  rw [Value.foreignInteger, Fault.catching_eq_error_iff, hdouble]
  simp only [map_eq_error_iff, toInt_eq_error_iff]
  constructor
  -- either the first attempt failed with what is not caught, or it was caught and the second failed
  · rintro (⟨⟨e, rfl, he⟩ | ⟨rfl, -⟩, hc⟩ | ⟨⟨g, hg, hc⟩, hreal, e, rfl, hraises, he⟩)
    · exact ⟨e, rfl, .inl ⟨he, by rintro rfl; cases hc⟩⟩
    · cases hc
    · have hindex : o.index = none ∨ o.index = some (.error .wrongType) := by
        rcases hg with ⟨e', rfl, hi⟩ | ⟨-, hi⟩
        · cases e' <;> first | exact .inr hi | cases hc
        · exact .inl hi
      refine ⟨e, rfl, .inr ⟨hindex, hreal, hraises.resolve_right ?_, he⟩⟩
      rintro ⟨-, hi⟩
      rcases hindex with h | h <;> cases h.symm.trans hi
      cases he
  · rintro ⟨e, rfl, ⟨hi, hne⟩ | ⟨hindex, hreal, hfloat, he⟩⟩
    · refine .inl ⟨.inl ⟨e, rfl, hi⟩, ?_⟩
      cases e <;> first | rfl | exact absurd rfl hne
    · refine .inr ⟨?_, hreal, e, rfl, .inl hfloat, he⟩
      rcases hindex with hi | hi
      · exact ⟨.notInteger, .inr ⟨rfl, hi⟩, rfl⟩
      · exact ⟨.raised .wrongType, .inl ⟨_, rfl, hi⟩, rfl⟩

end Foreign

/-! ## What else can go wrong

Apart from the exceptions of objects, a value has no text because of a numeral that is too long or
of a level that is missing, and no JSON form because of these or of something in it that has none.
The defaults stand for all of these.
-/

/-- A fault that is held back where JSON is written, or an exception of an object. -/
def Fault.IsNoJson (f : Fault) : Prop := f.errorClass.isNoJson = true ∨ ∃ e, f = .raised e

variable {levels : Nat}

open FailsOnly

theorem failsOnly_enter {α : Type} {g : Nat → Except Fault α}
    (h : ∀ n, FailsOnly Fault.IsNoJson (g n)) :
    FailsOnly Fault.IsNoJson (enter .tooDeep levels g) := by
  cases levels with
  | zero => exact error (.inl rfl)
  | succ n => exact h n

theorem failsOnly_limitedText (n : Int) : FailsOnly Fault.IsNoJson (Numeral.limitedText n) := by
  rw [Numeral.limitedText]
  split
  · exact ok _
  · exact error (.inl rfl)

namespace Value

theorem failsOnly_formatMapText (levels : Nat) (m : FormatMap) :
    FailsOnly Fault.IsNoJson (formatMapText levels m) := by
  cases m with
  | names ns => exact failsOnly_enter fun _ => failsOnly_enter fun _ => ok _
  | pairs ps =>
    exact failsOnly_enter fun _ => failsOnly_enter fun _ =>
      (mapM fun p _ => failsOnly_enter fun _ => (failsOnly_limitedText p.2).bind_pure _).bind_pure _

theorem failsOnly_quotedWithin (levels : Nat) (v : Value) :
    FailsOnly Fault.IsNoJson (v.quotedWithin levels) := by
  have hparts (n : Nat) : FailsOnly Fault.IsNoJson (v.parts.mapM (quotedWithin n)) :=
    mapM fun p hp =>
      have : sizeOf p < sizeOf v := sizeOf_lt_of_mem_parts hp
      failsOnly_quotedWithin n p
  cases v with
  | int n => exact failsOnly_limitedText n
  | fraction x =>
    exact (failsOnly_limitedText x.num).bind fun _ _ => (failsOnly_limitedText x.den).bind_pure _
  | list vs | tuple vs | set frozen vs =>
    refine failsOnly_enter fun n => ?_
    rw [quotedItems_eq_mapM]
    exact (hparts n).bind_pure _
  | dict es =>
    exact failsOnly_enter fun n =>
      bind_pure (fun f hf => hparts n f (quotedEntries_eq_error_iff.1 hf)) _
  | record type fs =>
    exact failsOnly_enter fun n =>
      bind_pure (fun f hf => hparts n f (quotedFields_eq_error_iff.1 hf)) _
  | object o =>
    intro f hf
    obtain ⟨e, -, hf⟩ := Fault.ofAnswer_eq_error_iff.1 hf
    exact .inr ⟨e, hf⟩
  | formatMap m => exact failsOnly_formatMapText levels m
  | _ => exact ok _
termination_by sizeOf v

theorem failsOnly_quotedItems (levels : Nat) (vs : List Value) :
    FailsOnly Fault.IsNoJson (quotedItems levels vs) := by
  rw [quotedItems_eq_mapM]
  exact mapM fun v _ => failsOnly_quotedWithin levels v

end Value

namespace Json

theorem failsOnly_key (v : Value) : FailsOnly Fault.IsNoJson (key v) := by
  cases v with
  | int n => exact failsOnly_limitedText n
  | float x =>
    rw [key]
    split
    · exact ok _
    · exact error (.inl rfl)
  | text s | bool b | null => exact ok _
  | _ => exact error (.inl rfl)

theorem failsOnly_ofFormatMap (levels : Nat) (m : FormatMap) :
    FailsOnly Fault.IsNoJson (ofFormatMap levels m) := by
  cases m with
  | names ns => exact failsOnly_enter fun _ => failsOnly_enter fun _ => ok _
  | pairs ps =>
    exact failsOnly_enter fun _ => failsOnly_enter fun _ =>
      (mapM fun p _ => failsOnly_enter fun _ => (failsOnly_limitedText p.2).bind_pure _).bind_pure _

theorem failsOnly_lookThrough (levels : Nat) (vs : List Value) :
    FailsOnly Fault.IsNoJson (lookThrough levels vs) := by
  rw [lookThrough]
  split
  · exact error (.inl rfl)
  · exact ok _

theorem failsOnly_takeApart (levels : Nat) (fs : List (Text × Value)) :
    FailsOnly Fault.IsNoJson (takeApart levels fs) := by
  rw [takeApart]
  split
  · exact error (.inl rfl)
  · split
    · exact error (.inl rfl)
    · exact ok _

theorem failsOnly_writeEntries {es : List (Value × Value)}
    (h : ∀ e ∈ es, FailsOnly Fault.IsNoJson (writeWithin levels e.2)) :
    FailsOnly Fault.IsNoJson (writeEntries levels es) := by
  induction es with
  | nil => exact ok _
  | cons entry es ih =>
    obtain ⟨hv, hes⟩ := List.forall_mem_cons.1 h
    exact (failsOnly_key entry.1).bind fun _ _ => hv.bind fun _ _ => (ih hes).bind_pure _

theorem failsOnly_writeWithin (levels : Nat) (v : Value) :
    FailsOnly Fault.IsNoJson (writeWithin levels v) := by
  have hpart (n : Nat) (p : Value) (hp : p ∈ v.parts) :
      FailsOnly Fault.IsNoJson (writeWithin n p) :=
    have : sizeOf p < sizeOf v := Value.sizeOf_lt_of_mem_parts hp
    failsOnly_writeWithin n p
  cases v with
  | int n => exact failsOnly_limitedText n
  | list vs | tuple vs =>
    refine failsOnly_enter fun n => ?_
    rw [writeItems_eq_mapM]
    exact (mapM (hpart n)).bind_pure _
  | set frozen vs =>
    refine failsOnly_enter fun n => (Value.failsOnly_quotedItems n vs).bind fun keys _ =>
      (failsOnly_lookThrough n vs).bind fun _ _ => ?_
    rw [mapM_sortedByKey_attempts]
    exact (mapM fun p hp => hpart n p (mem_of_mem_sortedByKey hp)).bind_pure _
  | dict es =>
    exact failsOnly_enter fun n => (failsOnly_writeEntries fun e he =>
      hpart n e.2 (List.mem_flatMap.2 ⟨e, he, by simp⟩)).bind_pure _
  | record type fs =>
    exact failsOnly_enter fun n => (failsOnly_takeApart n fs).bind fun _ _ =>
      bind_pure (fun f hf => mapM (hpart n) f (writeFields_eq_error_iff.1 hf)) _
  | formatMap m => exact failsOnly_ofFormatMap levels m
  | complex re im | recordType type | object o => exact error (.inl rfl)
  | _ => exact ok _
termination_by sizeOf v

theorem failsOnly_write [Nesting] (v : Value) : FailsOnly Fault.IsNoJson (write v) :=
  (failsOnly_lookThrough _ _).bind fun _ _ => failsOnly_writeWithin _ v

end Json

/-! ## All kinds of reading

For each kind there is one lemma that says with which exceptions it fails, and for the kinds that
read by way of another one it is the same lemma.  A reading of a value that is no object does not
ask anybody, so it never fails, unless objects stand inside of the value. -/

/-- What an argument is taken for. -/
def Kind.Target : Kind → Type
  | integer => Int
  | float => Binary64
  | size => Option Int
  | text | json => Text
  | char => Char
  | truth => Bool

namespace Value

theorem toInteger_eq_error_iff {v : Value} :
    v.toInteger = .error f ↔ ∃ e, f = .raised e ∧ ∃ o, v = object o ∧ o.RefusesInteger e := by
  cases v with
  | object o =>
    rw [toInteger, Foreign.foreignInteger_eq_error_iff]
    simp only [object.injEq, exists_eq_left']
  | bytes buffer bs => cases buffer <;> exact iff_of_false nofun (by rintro ⟨_, -, _, ⟨⟩, -⟩)
  | _ => exact iff_of_false nofun (by rintro ⟨_, -, _, ⟨⟩, -⟩)

/-- A character fails as the integer that it is read from. -/
theorem toChar_eq_error_iff {v : Value} : v.toChar = .error f ↔ v.toInteger = .error f := by
  cases v with
  | text s => exact iff_of_false nofun nofun
  | _ => exact bind_pure_eq_error_iff

theorem toFloat_eq_error_iff {v : Value} : v.toFloat = .error f ↔
    ∃ e, f = .raised e ∧ ∃ o, v = object o ∧ o.RaisesDouble e ∧ e.isNoNumber = false := by
  cases v with
  | object o =>
    rw [toFloat, Coerced.guarded_eq_error_iff, Foreign.toDouble_eq_error_iff]
    simp only [object.injEq, exists_eq_left']
  | bytes buffer bs => cases buffer <;> exact iff_of_false nofun (by rintro ⟨_, -, _, ⟨⟩, -⟩)
  | _ => exact iff_of_false nofun (by rintro ⟨_, -, _, ⟨⟩, -⟩)

/-- A size fails as the double that it is read from. -/
theorem toSize_eq_error_iff {v : Value} : v.toSize = .error f ↔ v.toFloat = .error f := by
  rw [toSize, bind_eq_error_iff]
  refine or_iff_left ?_
  rintro ⟨x, -, hx⟩
  split at hx
  · split at hx <;> cases hx
  · cases hx

theorem toTruth_eq_error_iff {v : Value} : v.toTruth = .error f ↔
    ∃ e, f = .raised e ∧ ∃ o, v = object o ∧ o.truth = .error e ∧ e.isException = false := by
  cases v with
  | object o =>
    rw [toTruth, Coerced.guarded_eq_error_iff, Fault.ofAnswer_eq_error_iff]
    constructor
    · rintro ⟨⟨e, ho, rfl⟩, he⟩
      exact ⟨e, rfl, o, rfl, ho, he⟩
    · rintro ⟨e, rfl, _, ⟨⟩, ho, he⟩
      exact ⟨⟨e, ho, rfl⟩, he⟩
  | _ => exact iff_of_false nofun (by rintro ⟨_, -, _, ⟨⟩, -⟩)

variable [Nesting]

/-- Reads an argument as a value of a kind. -/
def read (v : Value) : (kind : Kind) → Except Fault (Coerced kind.Target)
  | .integer => v.toInteger
  | .float => v.toFloat
  | .size => v.toSize
  | .text => v.toText
  | .char => v.toChar
  | .truth => v.toTruth
  | .json => v.toJson

/-- An exception is raised for the text of the value on its own. -/
def RaisesText (e : ErrorClass) : Value → Prop
  | object o => o.display = .error e
  | v => v.RaisesWithin e displayLimit

/-- The value refuses to be read: an exception is raised, and the default does not stand for it. -/
def Refuses (v : Value) (kind : Kind) (e : ErrorClass) : Prop :=
  match kind with
  | .integer | .char => ∃ o, v = object o ∧ o.RefusesInteger e
  | .float | .size => ∃ o, v = object o ∧ o.RaisesDouble e ∧ e.isNoNumber = false
  | .text => v.RaisesText e ∧ e.isException = false
  | .truth => ∃ o, v = object o ∧ o.truth = .error e ∧ e.isException = false
  | .json => Json.Raises e v ∧ e.isNoJson = false

theorem raisesText_iff {v : Value} (h : ∀ o, v ≠ object o) :
    v.RaisesText e ↔ v.quoted = .error (.raised e) := by
  rw [RaisesText, quoted, quotedWithin_eq_raised_iff]
  exact h

theorem plain_fraction_ne_raised (x : Rat) : (fraction x).plain ≠ .error (.raised e) := by
  intro h
  rcases bind_eq_error_iff.1 h with h | ⟨_, -, h⟩
  · exact Numeral.limitedText_ne_raised x.num h
  · split at h
    · cases h
    · exact Numeral.limitedText_ne_raised _ (bind_pure_eq_error_iff.1 h)

theorem plain_eq_raised_iff {v : Value} : v.plain = .error (.raised e) ↔ v.RaisesText e := by
  have hno (hv : ∀ o, v ≠ object o)
      (h : v.plain = .error (.raised e) ↔ v.quoted = .error (.raised e)) :
      v.plain = .error (.raised e) ↔ v.RaisesText e := h.trans (raisesText_iff hv).symm
  cases v with
  | object o =>
    rw [plain, Fault.ofAnswer_eq_error_iff]
    exact ⟨fun ⟨_, h, he⟩ => Fault.raised.inj he ▸ h, fun h => ⟨e, h, rfl⟩⟩
  | text s | scientific x => exact hno (fun _ => nofun) (iff_of_false nofun nofun)
  | fraction x =>
    exact hno (fun _ => nofun)
      (iff_of_false (plain_fraction_ne_raised x) (quotedWithin_fraction_ne_raised displayLimit x))
  | _ => exact hno (fun _ => nofun) .rfl

theorem toText_eq_error_iff {v : Value} : v.toText = .error f ↔
    ∃ e, f = .raised e ∧ v.RaisesText e ∧ e.isException = false := by
  have hguarded : Coerced.guarded ErrorClass.isException v.address v.plain = .error f ↔
      ∃ e, f = .raised e ∧ v.RaisesText e ∧ e.isException = false := by
    rw [Coerced.guarded_eq_error_iff]
    constructor
    · rintro ⟨hplain, hf⟩
      obtain ⟨e, rfl⟩ := Fault.eq_raised_of_not_isException hf
      exact ⟨e, rfl, plain_eq_raised_iff.1 hplain, hf⟩
    · rintro ⟨e, rfl, hraises, he⟩
      exact ⟨plain_eq_raised_iff.2 hraises, he⟩
  cases v with
  | null | text s | bool b =>
    refine iff_of_false nofun ?_
    rintro ⟨e, -, hraises, -⟩
    cases plain_eq_raised_iff.2 hraises
  | int n =>
    refine iff_of_false nofun ?_
    rintro ⟨e, -, hraises, -⟩
    exact Numeral.limitedText_ne_raised n (plain_eq_raised_iff.2 hraises)
  | _ => exact hguarded

theorem toJson_eq_error_iff {v : Value} : v.toJson = .error f ↔
    ∃ e, f = .raised e ∧ Json.Raises e v ∧ e.isNoJson = false := by
  rw [toJson, Coerced.guarded_eq_error_iff]
  constructor
  · rintro ⟨hwrite, hf⟩
    rcases Json.failsOnly_write v f hwrite with h | ⟨e, rfl⟩
    · cases h.symm.trans hf
    · exact ⟨e, rfl, Json.write_eq_raised_iff.1 hwrite, hf⟩
  · rintro ⟨e, rfl, hraises, he⟩
    exact ⟨Json.write_eq_raised_iff.2 hraises, he⟩

theorem read_eq_error_iff {v : Value} {kind : Kind} :
    v.read kind = .error f ↔ ∃ e, f = .raised e ∧ v.Refuses kind e := by
  cases kind with
  | integer => exact toInteger_eq_error_iff
  | float => exact toFloat_eq_error_iff
  | size => exact toSize_eq_error_iff.trans toFloat_eq_error_iff
  | text => exact toText_eq_error_iff
  | char => exact toChar_eq_error_iff.trans toInteger_eq_error_iff
  | truth => exact toTruth_eq_error_iff
  | json => exact toJson_eq_error_iff

theorem exists_read_eq_ok {v : Value} {kind : Kind} (h : ∀ e, ¬ v.Refuses kind e) :
    ∃ r, v.read kind = .ok r := by
  cases hr : v.read kind with
  | ok r => exact ⟨r, rfl⟩
  | error f =>
    obtain ⟨e, -, he⟩ := read_eq_error_iff.1 hr
    exact absurd he (h e)

end Value

namespace Value

end Value
end Stencil
