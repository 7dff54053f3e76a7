import Stencil.Proofs.Fallible
import Stencil.Proofs.Session.History

/-!
# What a failure leaves

A call that compiles a template goes through stages: the format map is read, the arguments are put
in the order of the map, the template is compiled, and in the end the arguments are formatted.
`Call.prepare` does all but the last of them by looking at the session, and cannot change it.

`Session.step_of_prepare` says that a call is just that.  If one of these stages fails, the session
is what it was: no entry, no hit and no miss of any cache has changed.  If none of them fails, the
session is what the compilation alone leaves (`Call.compilation`), whether or not the arguments can
be formatted then.
-/

set_option autoImplicit false

namespace Stencil

/-! ## The stages of a call

The stages are written down as a computation that is given a session and returns no other.  What a
call does is defined elsewhere, by requests that change caches, so the main result compares two
definitions. -/

/-- A call: an operation that may compile a template. -/
inductive Call where
  | compile (name template : Text) (map : Value)
  | compileWith (cache template : Text) (map : Value)
  | formatNamed (name template : Text) (args map : Value)
  | render (name template : Text) (source : Source)

/-- What a call has come to when there is only the formatting left. -/
structure Ready where
  compiled : Text
  /-- What formatting the arguments gives, or the compiled text where there is nothing to format. -/
  formatted : Except Fault Text
  deriving DecidableEq

namespace Call

/-- A call as an operation of a session. -/
def step : Call → Step
  | compile name template map => .compile name template map
  | compileWith cache template map => .compileWith cache template map
  | formatNamed name template args map => .formatNamed name template args map
  | render name template source => .render name template source

/-- The operation that compiles the template of a call and does nothing else.  Arguments by position
for a template without names are formatted with the template as it is. -/
def compilation : Call → Option Step
  | compile name template map => some (.compile name template map)
  | compileWith cache template map => some (.compileWith cache template map)
  | formatNamed name template _ map => some (.compile name template map)
  | render name template (.indexed _ map) => some (.compile name template map)
  | render name template (.named _ map) => some (.compile name template map)
  | render _ _ (.sequential _) => none
  | render _ _ (.other _) => none

/-- The formatter or cache of a name. -/
def find {α : Type} (name : Text) (entries : List (Text × α)) : Except Fault α :=
  (Session.find? name entries).elim (.error (.unknownName name)) .ok

/-- The arguments that are put in the order of a map. -/
def argumentVector (values : Value) (m : FormatMap) : Except Fault (Option Value) := do
  return some (.list (← m.slots >>= Source.arguments values))

/-- The stages before formatting: the map is read, the arguments are put in order, and the template
is compiled unless the cache of the formatter has a form for it. -/
def prepareWith [Nesting] (s : Session) (name template : Text)
    (map : Formatter → Except Fault FormatMap)
    (arguments : FormatMap → Except Fault (Option Value)) : Except Fault Ready := do
  let member ← find name s.members
  let m ← map member.formatter
  let args ← arguments m
  let compiled ← Request.compiled ((s.cache member.cache).get? template) (.ok m) template
  return ⟨compiled, args.elim (.ok compiled) (formatWith compiled)⟩

/-- A call up to the formatting. -/
def prepare [Nesting] (s : Session) : Call → Except Fault Ready
  | compile name template map => prepareWith s name template (·.chooseMap map) fun _ => .ok none
  | compileWith cache template map => do
    let i ← find cache s.cacheNames
    let compiled ←
      Request.compiled ((s.cache i).get? template) (FormatMap.require map) template
    return ⟨compiled, .ok compiled⟩
  | formatNamed name template args map =>
    prepareWith s name template (·.chooseMap map) fun m =>
      match args with
      | .dict _ => argumentVector args m
      | _ => .ok (some args)
  | render name template (.sequential values) => do
    let _ ← find name s.members
    return ⟨template, formatWith template values⟩
  | render name template (.indexed values map) =>
    prepareWith s name template (·.chooseMap map) fun _ => .ok (some values)
  | render name template (.named values (.formatMap m)) =>
    prepareWith s name template (fun _ => .ok m) (argumentVector values)
  | render name _ (.named _ _) => do
    let _ ← find name s.members
    .error .notNamed
  | render name _ (.other v) => do
    let _ ← find name s.members
    .error (.unsupportedSource v.typeName)

end Call

/-! ## Requests in stages

A formatter turns a call into a request before the cache is looked at, with its map and its
arguments as computations that may fail.  A request that compiles asks for the map first and for the
arguments then, and if either fails the cache has not been looked at. -/

namespace Request

/-- What a call asks of its cache, when its map and its arguments are not yet read. -/
def staged [Nesting] (template : Text) (map : Except Fault FormatMap)
    (arguments : FormatMap → Except Fault (Option Value)) : Request :=
  match map with
  | .error e => .nothing (.error e)
  | .ok m =>
    match arguments m with
    | .error e => .nothing (.error e)
    | .ok args =>
      .compile template (.ok m) fun compiled => args.elim (.ok compiled) (formatWith compiled)

variable {c : Cache} {template : Text} {map : Except Fault FormatMap}
  {use : Text → Except Fault Text}

theorem leave_of_compiled_eq_error {e : Fault}
    (h : compiled (c.get? template) map template = .error e) :
    (compile template map use).leave c = c := by
  cases hc : c.get? template with
  | some kept =>
    rw [hc] at h
    cases h
  | none =>
    rw [hc] at h
    rw [leave, Cache.compile_of_compiled_eq_error hc h]

end Request

namespace Formatter

theorem compileRequest_eq_staged [Nesting] (f : Formatter) (map : Value) (template : Text) :
    f.compileRequest map template .ok =
      .staged template (f.chooseMap map) fun _ => .ok none := by
  rw [compileRequest]
  cases f.chooseMap map <;> rfl

theorem compileRequest_formatWith [Nesting] (f : Formatter) (map values : Value) (template : Text) :
    f.compileRequest map template (formatWith · values) =
      .staged template (f.chooseMap map) fun _ => .ok (some values) := by
  rw [compileRequest]
  cases f.chooseMap map <;> rfl

theorem renderRequest_named [Nesting] (f : Formatter) (template : Text) (values : Value)
    (m : FormatMap) :
    f.renderRequest template (.named values (.formatMap m)) =
      .staged template (.ok m) (Call.argumentVector values) := by
  rw [renderRequest, Request.staged]
  simp only [Call.argumentVector]
  cases m.slots >>= Source.arguments values <;> rfl

theorem formatNamedRequest_eq_staged [Nesting] (f : Formatter) (template : Text)
    (args map : Value) :
    f.formatNamedRequest template args map =
      .staged template (f.chooseMap map) fun m =>
        match args with
        | .dict _ => Call.argumentVector args m
        | _ => .ok (some args) := by
  rw [formatNamedRequest]
  cases hm : f.chooseMap map with
  | error e => rfl
  | ok m =>
    cases args with
    | dict es => exact f.renderRequest_named template (.dict es) m
    | _ => exact f.compileRequest_formatWith (.formatMap m) _ template

end Formatter

/-! ## One call

A request that has failed before it reached the cache leaves the session as it is, and one that has
reached it leaves what the look-up leaves.  It remains to be seen which of the two happens, in each
of the ways in which a call can be made. -/

namespace Session

variable {s : Session}

/-- Putting a cache where it is changes nothing. -/
@[simp] theorem setCache_cache (s : Session) (i : Nat) : s.setCache i (s.cache i) = s := by
  have hset : s.caches.set i (s.caches.getD i Cache.empty) = s.caches := by
    refine List.ext_getElem (by simp) fun j hj hj' => ?_
    rw [List.getElem_set]
    split
    · rename_i h
      subst h
      simp [hj']
    · rfl
  rw [setCache, cache, hset]

/-- A request for nothing leaves everything as it is. -/
@[simp] theorem respond_nothing (i : Nat) (a : Except Fault Answer) :
    s.respond i (.nothing a) = (a, s) := by
  rw [respond, Request.answer, Request.leave, setCache_cache]

/-- A request for a compiled form leaves what the compilation leaves, and nothing if it fails. -/
theorem respond_compile (i : Nat) (template : Text) (map : Except Fault FormatMap)
    (use : Text → Except Fault Text) :
    (∀ e, Request.compiled ((s.cache i).get? template) map template = .error e →
      s.respond i (.compile template map use) = (.error e, s)) ∧
    ∀ compiled, Request.compiled ((s.cache i).get? template) map template = .ok compiled →
      s.respond i (.compile template map use) =
        ((use compiled).map .text, (s.respond i (.compile template map .ok)).2) ∧
      (s.respond i (.compile template map .ok)).1 = .ok (.text compiled) := by
  refine ⟨fun e h => ?_, fun compiled h => ⟨?_, ?_⟩⟩
  · rw [respond, Request.answer, Request.leave_of_compiled_eq_error h, setCache_cache, h]
    rfl
  · rw [respond, Request.answer, h]
    rfl
  · rw [respond, Request.answer, h]
    rfl

/-- The outcome of an operation is that of its stages: where they fail nothing has changed, and
otherwise the session is what the compilation alone leaves. -/
structure FollowsStages [Nesting] (s : Session) (step : Step) (compilation : Option Step)
    (stages : Except Fault Ready) : Prop where
  failed : ∀ e, stages = .error e → s.step step = (.error e, s)
  ready : ∀ r, stages = .ok r →
    s.step step = (r.formatted.map .text, s.after compilation.toList) ∧
      ∀ c ∈ compilation, (s.step c).1 = .ok (.text r.compiled)

variable {st : Step} {compilation : Option Step} {name template : Text}

theorem FollowsStages.of_error [Nesting] {e : Fault} (h : s.step st = (.error e, s)) :
    FollowsStages s st compilation (.error e) where
  failed := by
    rintro _ ⟨⟩
    exact h
  ready := nofun

theorem FollowsStages.of_ok [Nesting] {r : Ready} {comp : Step}
    (h : s.step st = (r.formatted.map .text, (s.step comp).2))
    (hc : (s.step comp).1 = .ok (.text r.compiled)) : FollowsStages s st (some comp) (.ok r) where
  failed := nofun
  ready := by
    rintro _ ⟨⟩
    refine ⟨h, ?_⟩
    rintro _ ⟨⟩
    exact hc

/-- The compilation alone, once the map is read. -/
theorem step_compile [Nesting] {m : Member} (hm : find? name s.members = some m) {map : Value}
    {fm : FormatMap} (hmap : m.formatter.chooseMap map = .ok fm) :
    s.step (.compile name template map) =
      s.respond m.cache (.compile template (.ok fm) .ok) := by
  refine step_of_request? ?_
  rw [request?, request?.ofFormatter, hm, Option.map_some, Formatter.compileRequest, hmap]

/-- **A call through a formatter follows its stages.** -/
theorem followsStages_prepareWith [Nesting] {map : Formatter → Except Fault FormatMap}
    {arguments : FormatMap → Except Fault (Option Value)} {cmap : Value}
    (hst : s.request? st =
      request?.ofFormatter s name fun f => .staged template (map f) arguments)
    (hnone : find? name s.members = none → s.step st = (.error (.unknownName name), s))
    (hmap : ∀ f fm, map f = .ok fm → f.chooseMap cmap = .ok fm) :
    FollowsStages s st (some (.compile name template cmap))
      (Call.prepareWith s name template map arguments) := by
  rw [Call.prepareWith, Call.find]
  -- one case for each stage that can fail, in the order in which they are passed
  cases hm : find? name s.members with
  | none => exact .of_error (hnone hm)
  | some m =>
    rw [request?.ofFormatter, hm] at hst
    have hstep := step_of_request? hst
    rw [Option.elim_some, Fallible.ok_bind]
    cases hfm : map m.formatter with
    | error e =>
      rw [hfm] at hstep
      exact .of_error (hstep.trans (respond_nothing m.cache _))
    | ok fm =>
      rw [hfm] at hstep
      rw [Fallible.ok_bind]
      cases hargs : arguments fm with
      | error e =>
        rw [Request.staged, hargs] at hstep
        exact .of_error (hstep.trans (respond_nothing m.cache _))
      | ok args =>
        rw [Request.staged, hargs] at hstep
        rw [Fallible.ok_bind]
        -- only the last stage touches the cache, and it does what the compilation alone does
        have hresp := respond_compile (s := s) m.cache template (.ok fm)
          fun compiled => args.elim (.ok compiled) (formatWith compiled)
        cases hc : Request.compiled ((s.cache m.cache).get? template) (.ok fm) template with
        | error e => exact .of_error (hstep.trans (hresp.1 e hc))
        | ok compiled =>
          obtain ⟨h, halone⟩ := hresp.2 compiled hc
          rw [← step_compile hm (hmap _ _ hfm)] at h halone
          exact .of_ok (hstep.trans h) halone

/-- A compilation that is done in a cache without a formatter follows its stages. -/
theorem followsStages_compileWith [Nesting] (s : Session) (name template : Text) (map : Value) :
    FollowsStages s (.compileWith name template map) (some (.compileWith name template map))
      ((Call.compileWith name template map).prepare s) := by
  rw [Call.prepare, Call.find]
  cases hi : find? name s.cacheNames with
  | none => exact .of_error (by simp only [Session.step, withCache, hi])
  | some i =>
    have hreq : s.request? (.compileWith name template map) =
        some (i, .compile template (FormatMap.require map) .ok) := by
      rw [request?, request?.ofCache, hi, Option.map_some]
    have hstep := step_of_request? hreq
    obtain ⟨herror, hok⟩ := respond_compile (s := s) i template (FormatMap.require map) .ok
    rw [Option.elim_some, Fallible.ok_bind]
    cases hc : Request.compiled ((s.cache i).get? template) (FormatMap.require map) template with
    | error e => exact .of_error (hstep.trans (herror e hc))
    | ok compiled =>
      obtain ⟨h, halone⟩ := hok compiled hc
      rw [← hstep] at h halone
      exact .of_ok h halone

/-- Formatting from a source for which nothing is compiled. -/
theorem followsStages_of_nothing [Nesting] {source : Source} {p : Except Fault Ready}
    (hr : ∀ f : Formatter, f.renderRequest template source =
      .nothing (p >>= fun r => r.formatted.map .text)) :
    FollowsStages s (.render name template source) none
      (Call.find name s.members >>= fun _ => p) := by
  rw [Call.find]
  cases hm : find? name s.members with
  | none => exact .of_error (by simp only [Session.step, withFormatter, hm])
  | some m =>
    have hreq : s.request? (.render name template source) =
        some (m.cache, .nothing (p >>= fun r => r.formatted.map .text)) := by
      rw [request?, request?.ofFormatter, hm, Option.map_some, hr]
    have hstep := (step_of_request? hreq).trans (respond_nothing m.cache _)
    rw [Option.elim_some, Fallible.ok_bind]
    cases p with
    | error e => exact .of_error hstep
    | ok r =>
      refine ⟨by rintro _ ⟨⟩, ?_⟩
      rintro _ ⟨⟩
      exact ⟨hstep, by rintro _ ⟨⟩⟩

/-- Where formatting from a source always fails, it does not matter what would be compiled. -/
theorem followsStages_of_error [Nesting] {source : Source} {e : Fault}
    (hr : ∀ f : Formatter, f.renderRequest template source = .nothing (.error e)) :
    FollowsStages s (.render name template source) compilation
      (Call.find name s.members >>= fun _ => .error e) where
  failed := (followsStages_of_nothing (p := .error e) hr).failed
  ready r h := by
    obtain ⟨m, -, hm⟩ := Fallible.exists_of_bind h
    cases hm

/-- Formatting from any source follows its stages. -/
theorem followsStages_render [Nesting] (s : Session) (name template : Text) (source : Source) :
    FollowsStages s (.render name template source) (Call.render name template source).compilation
      ((Call.render name template source).prepare s) := by
  have hnone (h : find? name s.members = none) :
      s.step (.render name template source) = (.error (.unknownName name), s) := by
    simp only [Session.step, withFormatter, h]
  cases source with
  | sequential values => exact followsStages_of_nothing fun f => rfl
  | indexed values map =>
    refine followsStages_prepareWith ?_ hnone fun f fm h => h
    simp only [request?, Formatter.renderRequest, Formatter.compileRequest_formatWith]
  | named values map =>
    cases map with
    | formatMap m =>
      have h : FollowsStages s (.render name template (.named values (.formatMap m)))
          (some (.compile name template (.formatMap m)))
          (Call.prepareWith s name template (fun _ => .ok m) (Call.argumentVector values)) := by
        refine followsStages_prepareWith ?_ hnone fun f fm h => h
        simp only [request?, Formatter.renderRequest_named]
      exact h
    | _ => exact followsStages_of_error fun f => rfl
  | other v => exact followsStages_of_error fun f => rfl

/-- **A call follows its stages.** -/
theorem followsStages [Nesting] (s : Session) (call : Call) :
    FollowsStages s call.step call.compilation (call.prepare s) := by
  cases call with
  | compile name template map =>
    refine followsStages_prepareWith ?_ (fun h => ?_) fun f fm h => h
    · simp only [Call.step, request?, Formatter.compileRequest_eq_staged]
    · simp only [Call.step, Session.step, withFormatter, h]
  | compileWith name template map => exact followsStages_compileWith s name template map
  | formatNamed name template args map =>
    refine followsStages_prepareWith ?_ (fun h => ?_) fun f fm h => h
    · simp only [Call.step, request?, Formatter.formatNamedRequest_eq_staged]
    · simp only [Call.step, Session.step, withFormatter, h]
  | render name template source => exact followsStages_render s name template source

/-- **A call that fails before it formats changes nothing**, and a call that gets so far leaves
what the compilation alone leaves.  This is so in whatever state the session is, for calls that
are answered from the cache and for calls that are not. -/
theorem step_of_prepare [Nesting] (s : Session) (call : Call) :
    (∀ e, call.prepare s = .error e → s.step call.step = (.error e, s)) ∧
      ∀ r, call.prepare s = .ok r →
        s.step call.step = (r.formatted.map .text, s.after call.compilation.toList) ∧
          ∀ c ∈ call.compilation, (s.step c).1 = .ok (.text r.compiled) :=
  ⟨(followsStages s call).failed, (followsStages s call).ready⟩

/-- Two calls that fail: one for a name that is not declared, and one for an argument that refuses
to be an integer, which is asked for only after the template was compiled and entered. -/
theorem step_of_prepare_refused :
    let s := start.after [.newFormatter ['f'] none (.list [.text ['a']])]
    let refusing : Foreign :=
      { Foreign.ofText ⟨['m'], ['T']⟩ ['t'] with index := some (.error .wrongValue) }
    let args : Value := .dict [(.text ['a'], .object refusing)]
    s.step (.formatNamed ['f'] "%b$d".toList args .null) =
        (.error (.undeclared ['b'] "%b$d".toList), s) ∧
      s.step (.formatNamed ['f'] "%a$d".toList args .null) =
        (.error (.raised .wrongValue), s.after [.compile ['f'] "%a$d".toList .null]) ∧
      (s.after [.compile ['f'] "%a$d".toList .null]).cache 1 =
        ⟨[("%a$d".toList, "%1$d".toList)], 0, 1⟩ := by
  intro s refusing args
  have hundeclared : (Call.formatNamed ['f'] "%b$d".toList args .null).prepare s =
      .error (.undeclared ['b'] "%b$d".toList) := by decide +kernel
  have hrefused : (Call.formatNamed ['f'] "%a$d".toList args .null).prepare s =
      .ok ⟨"%1$d".toList, .error (.raised .wrongValue)⟩ := by decide +kernel
  exact ⟨(step_of_prepare s _).1 _ hundeclared, ((step_of_prepare s _).2 _ hrefused).1,
    by decide +kernel⟩

end Session
end Stencil
