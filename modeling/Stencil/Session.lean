import Stencil.Formatter

/-!
# Sessions

A session works with several formatters and caches, each under a name.  Formatters may share a
cache, and a formatter made without one gets a cache of its own.  A name can be given again; what
was made under it before stays with those who use it.

`Session.step` does one operation and gives its answer together with the session it leaves.  A
failed operation ends nothing.
-/

set_option autoImplicit false

namespace Stencil

/-- A named formatter and the number of the cache it works on. -/
structure Member where
  formatter : Formatter
  cache : Nat
  deriving DecidableEq, Repr

/-- Formatters and caches by name.  Caches are numbered in the order in which they were made, and
the latest of several entries of a name counts. -/
structure Session where
  caches : List Cache
  cacheNames : List (Text × Nat)
  members : List (Text × Member)
  deriving Repr

/-- An operation of a session. -/
inductive Step where
  | newCache (cache : Text)
  | newFormatter (name : Text) (cache : Option Text) (map : Value)
  | map (name : Text)
  | compile (name template : Text) (map : Value)
  | format (name template : Text) (args : List Value)
  | formatArgs (name template : Text) (args : Value)
  | formatNamed (name template : Text) (args map : Value)
  | render (name template : Text) (source : Source)
  | isCompiled (name template : Text)
  | clearCache (name : Text)
  | cacheGet (cache template : Text)
  | cacheStore (cache template compiled : Text)
  | cacheHas (cache template : Text)
  | cacheClear (cache : Text)
  | compileWith (cache template : Text) (map : Value)
  deriving Repr

/-- The answer of an operation. -/
inductive Answer where
  | nothing
  | map (m : FormatMap)
  | text (s : Text)
  | truth (b : Bool)
  deriving DecidableEq, Repr

namespace Session

/-- The name of the formatter that every session begins with. -/
def standardName : Text := "api".toList

/-- A session with one formatter, which has the standard map and a cache of its own. -/
def start : Session :=
  ⟨[Cache.empty], [], [(standardName, ⟨⟨FormatMap.standard⟩, 0⟩)]⟩

/-- What is entered under a name. -/
def find? {α : Type} (name : Text) (entries : List (Text × α)) : Option α :=
  (entries.find? fun e => e.1 = name).map (·.2)

/-- The cache with a number. -/
def cache (s : Session) (i : Nat) : Cache := s.caches.getD i Cache.empty

/-- Puts a cache in the place of the one with that number. -/
def setCache (s : Session) (i : Nat) (c : Cache) : Session :=
  { s with caches := s.caches.set i c }

/-- Makes a cache. -/
def addCache (s : Session) : Nat × Session :=
  (s.caches.length, { s with caches := s.caches ++ [Cache.empty] })

/-- Works with the formatter of a name on its cache. -/
def withFormatter (s : Session) (name : Text)
    (act : Formatter → Cache → Except Fault Answer × Cache) : Except Fault Answer × Session :=
  match find? name s.members with
  | none => (.error (.unknownName name), s)
  | some m =>
    let (answer, c) := act m.formatter (s.cache m.cache)
    (answer, s.setCache m.cache c)

/-- Works on the cache of a name. -/
def withCache (s : Session) (name : Text) (act : Cache → Except Fault Answer × Cache) :
    Except Fault Answer × Session :=
  match find? name s.cacheNames with
  | none => (.error (.unknownName name), s)
  | some i =>
    let (answer, c) := act (s.cache i)
    (answer, s.setCache i c)

/-- An answer that is a text. -/
def textAnswer (r : Except Fault Text × Cache) : Except Fault Answer × Cache :=
  (r.1.map .text, r.2)

/-- Enters a formatter under a name. -/
def addMember (s : Session) (name : Text) (map : FormatMap) (i : Nat) : Session :=
  { s with members := (name, ⟨⟨map⟩, i⟩) :: s.members }

/-- Makes a formatter, on the cache of a name or else on a new one. -/
def newFormatter [Nesting] (s : Session) (name : Text) (cache : Option Text) (map : Value) :
    Except Fault Answer × Session :=
  match FormatMap.ofValue map with
  | .error e => (.error e, s)
  | .ok m =>
    match cache with
    | none =>
      let (i, s) := s.addCache
      (.ok (.map m), s.addMember name m i)
    | some c =>
      match find? c s.cacheNames with
      | none => (.error (.unknownName c), s)
      | some i => (.ok (.map m), s.addMember name m i)

/-- Does one operation. -/
def step [Nesting] (s : Session) : Step → Except Fault Answer × Session
  | .newCache name =>
    let (i, s) := s.addCache
    (.ok .nothing, { s with cacheNames := (name, i) :: s.cacheNames })
  | .newFormatter name cache map => s.newFormatter name cache map
  | .map name => s.withFormatter name fun f c => (.ok (.map f.map), c)
  | .compile name template map =>
    s.withFormatter name fun f c => textAnswer (f.compile c map template)
  | .format name template args =>
    s.withFormatter name fun f c => textAnswer (f.render c template (.sequential (.tuple args)))
  | .formatArgs name template args =>
    s.withFormatter name fun _ c => textAnswer (formatWith template args, c)
  | .formatNamed name template args map =>
    s.withFormatter name fun f c => textAnswer (f.formatNamed c template args map)
  | .render name template source =>
    s.withFormatter name fun f c => textAnswer (f.render c template source)
  | .isCompiled name template =>
    s.withFormatter name fun _ c => (.ok (.truth (c.contains template)), c)
  | .clearCache name => s.withFormatter name fun _ _ => (.ok .nothing, Cache.empty)
  | .cacheGet name template => s.withCache name fun c =>
    (.ok (match c.get? template with
      | some compiled => .text compiled
      | none => .nothing), c)
  | .cacheStore name template compiled => s.withCache name fun c =>
    let (kept, c) := c.store template compiled
    (.ok (.text kept), c)
  | .cacheHas name template => s.withCache name fun c => (.ok (.truth (c.contains template)), c)
  | .cacheClear name => s.withCache name fun _ => (.ok .nothing, Cache.empty)
  | .compileWith name template map => s.withCache name fun c =>
    textAnswer (c.compile (FormatMap.require map) template)

end Session

namespace Step

/-- What an operation works through: a formatter or a cache, by name. -/
inductive Subject where
  | formatter (name : Text)
  | cache (name : Text)
  deriving DecidableEq, Repr

/-- The subject of an operation.  That of making a formatter is the formatter, also where the
operation says on which cache it is to work. -/
def subject : Step → Subject
  | newFormatter name .. | map name | compile name .. | format name .. | formatArgs name ..
  | formatNamed name .. | render name .. | isCompiled name _ | clearCache name => .formatter name
  | newCache name | cacheGet name _ | cacheStore name .. | cacheHas name _
  | cacheClear name | compileWith name .. => .cache name

end Step

namespace Session

/-- The cache of a subject.  A formatter that was never made has none, so one that could not be
made has none either, unless an earlier one has its name. -/
def cacheOf? (s : Session) : Step.Subject → Option Cache
  | .formatter name => (find? name s.members).map fun m => s.cache m.cache
  | .cache name => (find? name s.cacheNames).map s.cache

/-- Does operations one after the other.  Each answer comes with the cache of the operation's
subject, as the operation left it. -/
def run [Nesting] : Session → List Step → List (Except Fault Answer × Option Cache)
  | _, [] => []
  | s, step :: steps =>
    let (answer, s) := s.step step
    (answer, s.cacheOf? step.subject) :: run s steps

end Session
end Stencil
