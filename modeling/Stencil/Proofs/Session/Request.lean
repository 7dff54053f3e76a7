import Stencil.Proofs.Fallible
import Stencil.Session

/-!
# What an operation asks of its cache

An operation of a session works on one cache, and all that it asks of this cache is one `Request`:
a compiled form, the entry of one, whether there is one, or to forget them all.  What else it reads
(the map, the arguments, the formatter of a name) does not depend on any cache.

`Session.request?` says which cache an operation works on and what it asks of it.  The operations
are gone through only once, in `Step.exists_through`: what makes nothing works through a formatter
or on a cache, and its request describes what it does there.  `Session.step_of_request?` follows,
that the operation is this request and nothing else: the answer depends on the compiled forms that
the cache holds, and no other cache is touched.  Operations without a request make a formatter or a
cache, or name something that does not exist; they leave every cache as it is
(`Session.cache_step_of_request?_eq_none`).
-/

set_option autoImplicit false

namespace Stencil

/-! ## Requests

What a request asks for may need a map and may use the compiled form.  Both are carried along as
computations, so that a request can be answered from the compiled forms alone. -/

/-- What an operation asks of the cache it works on. -/
inductive Request where
  /-- The compiled form of a template, from the cache or else from the map, of which the answer is
  then made. -/
  | compile (template : Text) (map : Except Fault FormatMap) (use : Text → Except Fault Text)
  /-- To enter a compiled form. -/
  | store (template compiled : Text)
  /-- To forget all compiled forms. -/
  | clear
  /-- Whether a template has a compiled form. -/
  | has (template : Text)
  /-- The compiled form that a template has. -/
  | get (template : Text)
  /-- Nothing, for the answer is known without the cache. -/
  | nothing (answer : Except Fault Answer)

namespace Request

/-- The compiled form of a template: the one that is kept, or else what the map makes of it. -/
def compiled (kept : Option Text) (map : Except Fault FormatMap) (template : Text) :
    Except Fault Text :=
  match kept with
  | some s => .ok s
  | none => do (← map).compile template

/-- The answer of a request where `kept` are the compiled forms that the cache holds. -/
def answer (kept : Text → Option Text) : Request → Except Fault Answer
  | compile template map use => (compiled (kept template) map template >>= use).map .text
  | store template s => .ok (.text ((kept template).getD s))
  | clear => .ok .nothing
  | has template => .ok (.truth (kept template).isSome)
  | get template => .ok (((kept template).map Answer.text).getD .nothing)
  | nothing a => a

/-- The cache after a request. -/
def leave (c : Cache) : Request → Cache
  | compile template map _ => (c.compile map template).2
  | store template s => (c.store template s).2
  | clear => Cache.empty
  | has _ | get _ | nothing _ => c

end Request

/-! ## The requests of a formatter

These follow the definitions of the operations of a formatter.  Whatever fails before the cache is
reached becomes a request for nothing that has failed. -/

namespace Formatter

/-- Asking for the compiled form of a template with a map that has to be read first. -/
def compileRequest [Nesting] (f : Formatter) (map : Value) (template : Text)
    (use : Text → Except Fault Text) : Request :=
  match f.chooseMap map with
  | .ok m => .compile template (.ok m) use
  | .error e => .nothing (.error e)

/-- What formatting arguments from a source asks of the cache. -/
def renderRequest [Nesting] (f : Formatter) (template : Text) : Source → Request
  | .sequential values => .nothing ((formatWith template values).map .text)
  | .indexed values map => f.compileRequest map template (formatWith · values)
  | .named values (.formatMap m) =>
    match m.slots >>= Source.arguments values with
    | .ok args => f.compileRequest (.formatMap m) template (formatWith · (.list args))
    | .error e => .nothing (.error e)
  | .named _ _ => .nothing (.error .notNamed)
  | .other v => .nothing (.error (.unsupportedSource v.typeName))

/-- What formatting arguments by name, or by position, asks of the cache. -/
def formatNamedRequest [Nesting] (f : Formatter) (template : Text) (args map : Value) : Request :=
  match f.chooseMap map with
  | .error e => .nothing (.error e)
  | .ok m =>
    match args with
    | .dict _ => f.renderRequest template (.named args (.formatMap m))
    | _ => f.renderRequest template (.indexed args (.formatMap m))

end Formatter

/-! ## Operations are requests

A request describes what is done to a cache if the answer depends on the forms that the cache holds,
and the cache afterwards is the one that the request leaves.  For a compilation there are three
cases: the form is kept, it cannot be made, or it is made and entered. -/

/-- What is done to a cache is a request to it. -/
def Request.Describes (r : Request) (act : Cache → Except Fault Answer × Cache) : Prop :=
  ∀ c, act c = (r.answer c.get?, r.leave c)

namespace Cache

theorem compile_of_get?_eq_some {c : Cache} {template kept : Text}
    (h : c.get? template = some kept) (map : Except Fault FormatMap) :
    c.compile map template = (.ok kept, { c with hits := c.hits + 1 }) := by
  rw [compile, h]

/-- **A compilation that fails leaves the cache as it was.** -/
theorem compile_of_compiled_eq_error {c : Cache} {map : Except Fault FormatMap} {template : Text}
    {e : Fault} (h : c.get? template = none) (he : Request.compiled none map template = .error e) :
    c.compile map template = (.error e, c) := by
  have hmap : (map >>= fun m => m.compile template) = .error e := he
  rw [compile, h]
  simp only [hmap]

/-- A compilation that succeeds enters the compiled form. -/
theorem compile_of_compiled_eq_ok {c : Cache} {map : Except Fault FormatMap} {template s : Text}
    (h : c.get? template = none) (hs : Request.compiled none map template = .ok s) :
    c.compile map template =
      (.ok s, ⟨c.entries ++ [(template, s)], c.hits, c.misses + 1⟩) := by
  have hmap : (map >>= fun m => m.compile template) = .ok s := hs
  have hm : ({ c with misses := c.misses + 1 } : Cache).get? template = none := h
  rw [compile, h]
  simp only [hmap, store, hm]

end Cache

namespace Request

open Fallible

theorem describes_compile (map : Except Fault FormatMap) (template : Text)
    (use : Text → Except Fault Text) :
    (compile template map use).Describes fun c => match c.compile map template with
      | (.ok s, c) => ((use s).map .text, c)
      | (.error e, c) => (.error e, c) := by
  intro c
  cases h : c.get? template with
  | some kept => simp only [answer, leave, compiled, h, Cache.compile_of_get?_eq_some h, ok_bind]
  | none =>
    cases hs : compiled none map template with
    | ok s => simp only [answer, leave, h, hs, Cache.compile_of_compiled_eq_ok h hs, ok_bind]
    | error e =>
      simp only [answer, leave, h, hs, Cache.compile_of_compiled_eq_error h hs]
      rfl

theorem describes_store (template s : Text) :
    (store template s).Describes fun c => (.ok (.text (c.store template s).1),
      (c.store template s).2) := by
  intro c
  rw [answer, leave]
  cases h : c.get? template <;> simp [Cache.store, h]

end Request

namespace Formatter

open Session Request

theorem describes_compileRequest [Nesting] (f : Formatter) (map : Value) (template : Text)
    (use : Text → Except Fault Text) :
    (f.compileRequest map template use).Describes fun c => textAnswer (
      match f.compile c map template with
      | (.ok compiled, c) => (use compiled, c)
      | (.error e, c) => (.error e, c)) := by
  intro c
  rw [compileRequest]
  cases h : f.chooseMap map with
  | error e => simp [textAnswer, compile, h, Except.map, answer, leave]
  | ok m =>
    rw [← describes_compile (.ok m) template use c]
    simp only [compile, h]
    rcases c.compile (.ok m) template with ⟨_ | _, d⟩ <;> rfl

/-- Formatting from a source is described by its request, whatever the source. -/
theorem describes_renderRequest [Nesting] (f : Formatter) (template : Text) (source : Source) :
    (f.renderRequest template source).Describes
      fun c => textAnswer (f.render c template source) := by
  cases source with
  | sequential values => exact fun c => rfl
  | indexed values map => exact f.describes_compileRequest map template (formatWith · values)
  | named values map =>
    cases map with
    | formatMap m =>
      intro c
      simp only [renderRequest, render]
      cases m.slots >>= Source.arguments values with
      | error e => rfl
      | ok args =>
        exact f.describes_compileRequest (.formatMap m) template (formatWith · (.list args)) c
    | _ => exact fun c => rfl
  | other v => exact fun c => rfl

theorem describes_formatNamedRequest [Nesting] (f : Formatter) (template : Text)
    (args map : Value) :
    (f.formatNamedRequest template args map).Describes
      fun c => textAnswer (f.formatNamed c template args map) := by
  intro c
  simp only [formatNamedRequest, formatNamed]
  cases f.chooseMap map with
  | error e => rfl
  | ok m => cases args <;> exact f.describes_renderRequest template _ c

end Formatter

/-! ## The requests of a session

Finding the formatter or the cache of a name comes first.  If there is none, the operation has no
request, and so it is with what makes a formatter or a cache. -/

namespace Session

/-- The request of an operation that works through a formatter, given this formatter, or of one
that works on a cache by name. -/
def request? [Nesting] (s : Session) : Step → Option (Nat × Request)
  | .newCache _ | .newFormatter .. => none
  | .map name => ofFormatter name fun f => .nothing (.ok (.map f.map))
  | .compile name template map => ofFormatter name (·.compileRequest map template .ok)
  | .format name template args =>
    ofFormatter name (·.renderRequest template (.sequential (.tuple args)))
  | .formatArgs name template args =>
    ofFormatter name fun _ => .nothing ((formatWith template args).map .text)
  | .formatNamed name template args map => ofFormatter name (·.formatNamedRequest template args map)
  | .render name template source => ofFormatter name (·.renderRequest template source)
  | .isCompiled name template => ofFormatter name fun _ => .has template
  | .clearCache name => ofFormatter name fun _ => .clear
  | .cacheGet name template => ofCache name (.get template)
  | .cacheStore name template compiled => ofCache name (.store template compiled)
  | .cacheHas name template => ofCache name (.has template)
  | .cacheClear name => ofCache name .clear
  | .compileWith name template map =>
    ofCache name (.compile template (FormatMap.require map) .ok)
where
  /-- A request through the formatter of a name. -/
  ofFormatter (name : Text) (r : Formatter → Request) : Option (Nat × Request) :=
    (find? name s.members).map fun m => (m.cache, r m.formatter)
  /-- A request to the cache of a name. -/
  ofCache (name : Text) (r : Request) : Option (Nat × Request) :=
    (find? name s.cacheNames).map fun i => (i, r)

end Session

namespace Step

/-- The operation makes a cache or a formatter. -/
def makes : Step → Bool
  | newCache _ | newFormatter .. => true
  | _ => false

/-- The operation is `act`, through the formatter of a name, and `req` is what it asks of the cache
of this formatter. -/
structure ThroughFormatter [Nesting] (step : Step) (name : Text)
    (act : Formatter → Cache → Except Fault Answer × Cache) (req : Formatter → Request) : Prop where
  subject : step.subject = .formatter name
  step_eq (s : Session) : s.step step = s.withFormatter name act
  request?_eq (s : Session) : s.request? step = Session.request?.ofFormatter s name req
  describes (f : Formatter) : (req f).Describes (act f)

/-- The operation is `act`, on the cache of a name, and `req` is what it asks of it. -/
structure ThroughCache [Nesting] (step : Step) (name : Text)
    (act : Cache → Except Fault Answer × Cache) (req : Request) : Prop where
  subject : step.subject = .cache name
  step_eq (s : Session) : s.step step = s.withCache name act
  request?_eq (s : Session) : s.request? step = Session.request?.ofCache s name req
  describes : req.Describes act

/-- **What makes nothing works through a formatter or on a cache.** -/
theorem exists_through [Nesting] {step : Step} (hm : step.makes = false) :
    (∃ name act req, step.ThroughFormatter name act req) ∨
      ∃ name act req, step.ThroughCache name act req := by
  cases step
  case newCache | newFormatter => cases hm
  -- steps that name a formatter
  case map name =>
    exact .inl ⟨name, _, fun f => .nothing (.ok (.map f.map)), rfl, fun _ => rfl, fun _ => rfl,
      fun f c => rfl⟩
  case compile name template map =>
    refine .inl ⟨name, fun f c => Session.textAnswer (f.compile c map template),
      (·.compileRequest map template .ok), rfl, fun _ => rfl, fun _ => rfl, fun f c => ?_⟩
    simp only [← f.describes_compileRequest map template .ok c]
    rcases f.compile c map template with ⟨_ | _, d⟩ <;> rfl
  case format name template args =>
    exact .inl ⟨name, _, _, rfl, fun _ => rfl, fun _ => rfl,
      fun f => f.describes_renderRequest template (.sequential (.tuple args))⟩
  case formatArgs name template args =>
    exact .inl ⟨name, _, fun _ => .nothing ((formatWith template args).map .text), rfl,
      fun _ => rfl, fun _ => rfl, fun f c => rfl⟩
  case formatNamed name template args map =>
    exact .inl ⟨name, _, _, rfl, fun _ => rfl, fun _ => rfl,
      fun f => f.describes_formatNamedRequest template args map⟩
  case render name template source =>
    exact .inl ⟨name, _, _, rfl, fun _ => rfl, fun _ => rfl,
      fun f => f.describes_renderRequest template source⟩
  case isCompiled name template =>
    exact .inl ⟨name, _, fun _ => .has template, rfl, fun _ => rfl, fun _ => rfl, fun f c => rfl⟩
  case clearCache name =>
    exact .inl ⟨name, _, fun _ => .clear, rfl, fun _ => rfl, fun _ => rfl, fun f c => rfl⟩
  -- steps that name a cache
  case cacheGet name template =>
    refine .inr ⟨name, fun c => (.ok (match c.get? template with
      | some compiled => .text compiled
      | none => .nothing), c), .get template, rfl, fun _ => rfl, fun _ => rfl, fun c => ?_⟩
    rw [Request.answer]
    cases c.get? template <;> rfl
  case cacheStore name template compiled =>
    exact .inr ⟨name, _, .store template compiled, rfl, fun _ => rfl, fun _ => rfl,
      Request.describes_store template compiled⟩
  case cacheHas name template =>
    exact .inr ⟨name, _, .has template, rfl, fun _ => rfl, fun _ => rfl, fun c => rfl⟩
  case cacheClear name =>
    exact .inr ⟨name, _, .clear, rfl, fun _ => rfl, fun _ => rfl, fun c => rfl⟩
  case compileWith name template map =>
    refine .inr ⟨name, fun c => Session.textAnswer (c.compile (FormatMap.require map) template),
      .compile template (FormatMap.require map) .ok, rfl, fun _ => rfl, fun _ => rfl, fun c => ?_⟩
    simp only [← Request.describes_compile (FormatMap.require map) template .ok c]
    rcases c.compile (FormatMap.require map) template with ⟨_ | _, d⟩ <;> rfl

end Step

namespace Session

variable {s : Session} {i : Nat} {r : Request}

theorem request?_of_makes [Nesting] {step : Step} (hm : step.makes = true) :
    s.request? step = none := by
  cases step
  case newCache | newFormatter => rfl
  all_goals cases hm

theorem ofFormatter_eq_some_iff {name : Text} {req : Formatter → Request} :
    request?.ofFormatter s name req = some (i, r) ↔
      ∃ f, find? name s.members = some ⟨f, i⟩ ∧ req f = r := by
  rw [request?.ofFormatter, Option.map_eq_some_iff]
  constructor
  · rintro ⟨⟨f, j⟩, hm, he⟩
    cases he
    exact ⟨f, hm, rfl⟩
  · rintro ⟨f, hm, rfl⟩
    exact ⟨⟨f, i⟩, hm, rfl⟩

theorem ofCache_eq_some_iff {name : Text} {req : Request} :
    request?.ofCache s name req = some (i, r) ↔
      find? name s.cacheNames = some i ∧ req = r := by
  rw [request?.ofCache, Option.map_eq_some_iff]
  constructor
  · rintro ⟨j, hj, he⟩
    cases he
    exact ⟨hj, rfl⟩
  · rintro ⟨hi, rfl⟩
    exact ⟨i, hi, rfl⟩

/-- The answer of a request to a cache of a session, and the session after it. -/
def respond (s : Session) (i : Nat) (r : Request) : Except Fault Answer × Session :=
  (r.answer (s.cache i).get?, s.setCache i (r.leave (s.cache i)))

/-- A request goes to the cache of a formatter or to one by name. -/
theorem exists_through_of_request? [Nesting] {step : Step} (h : s.request? step = some (i, r)) :
    (∃ name act req f, step.ThroughFormatter name act req ∧
      find? name s.members = some ⟨f, i⟩ ∧ req f = r) ∨
    ∃ name act, step.ThroughCache name act r ∧ find? name s.cacheNames = some i := by
  rcases hm : step.makes with _ | _
  · rcases Step.exists_through hm with ⟨name, act, req, hstep⟩ | ⟨name, act, req, hstep⟩
    · rw [hstep.request?_eq] at h
      obtain ⟨f, hf, he⟩ := ofFormatter_eq_some_iff.1 h
      exact .inl ⟨name, act, req, f, hstep, hf, he⟩
    · rw [hstep.request?_eq] at h
      obtain ⟨hi, rfl⟩ := ofCache_eq_some_iff.1 h
      exact .inr ⟨name, act, hstep, hi⟩
  · rw [request?_of_makes hm] at h
    cases h

/-- **An operation is its request.** -/
theorem step_of_request? [Nesting] {step : Step} (h : s.request? step = some (i, r)) :
    s.step step = s.respond i r := by
  rcases exists_through_of_request? h with ⟨name, act, req, f, hstep, hf, rfl⟩ |
    ⟨name, act, hstep, hi⟩
  · rw [hstep.step_eq, withFormatter, hf]
    simp only [respond, hstep.describes f (s.cache i)]
  · rw [hstep.step_eq, withCache, hi]
    simp only [respond, hstep.describes (s.cache i)]

/-- An operation that has no request and makes nothing leaves the session as it is. -/
theorem step_of_makes_eq_false [Nesting] {step : Step} (hm : step.makes = false)
    (hr : s.request? step = none) : (s.step step).2 = s := by
  rcases Step.exists_through hm with ⟨name, act, req, hstep⟩ | ⟨name, act, req, hstep⟩
  · rw [hstep.request?_eq] at hr
    rw [hstep.step_eq, withFormatter, Option.map_eq_none_iff.1 hr]
  · rw [hstep.request?_eq] at hr
    rw [hstep.step_eq, withCache, Option.map_eq_none_iff.1 hr]

end Session
end Stencil
