import Stencil.FormatMap.Compile

/-!
# Compiled templates that are kept

A cache keeps the compiled form of each template under the template alone.  The first form that is
entered stays until the cache is cleared, also where a later compilation comes with another map.
`hits` counts the compilations that were answered from the cache, `misses` those that were entered.

A compilation that fails leaves the cache as it was.
-/

set_option autoImplicit false

namespace Stencil

/-- Compiled templates, in the order of their entry, and what has been counted. -/
structure Cache where
  entries : List (Text × Text)
  hits : Nat
  misses : Nat
  deriving DecidableEq, Repr

namespace Cache

/-- A cache without entries. -/
def empty : Cache := ⟨[], 0, 0⟩

/-- The compiled form of a template. -/
def get? (c : Cache) (template : Text) : Option Text :=
  (c.entries.find? fun e => e.1 = template).map (·.2)

/-- The template has a compiled form. -/
def contains (c : Cache) (template : Text) : Bool := (c.get? template).isSome

/-- The number of entries. -/
def size (c : Cache) : Nat := c.entries.length

/-- The entries in the order of their templates' code points. -/
def sortedEntries (c : Cache) : List (Text × Text) :=
  Sorting.sortBy (fun e f => Text.atMost e.1 f.1) c.entries

/-- Enters a compiled form unless the template has one, and gives the form that is kept. -/
def store (c : Cache) (template compiled : Text) : Text × Cache :=
  match c.get? template with
  | some kept => (kept, c)
  | none => (compiled, { c with entries := c.entries ++ [(template, compiled)] })

/-- The compiled form of a template, from the cache or else from the map, which is then asked for;
and the cache after that. -/
def compile (c : Cache) (map : Except Fault FormatMap) (template : Text) :
    Except Fault Text × Cache :=
  match c.get? template with
  | some kept => (.ok kept, { c with hits := c.hits + 1 })
  | none =>
    match map >>= fun m => m.compile template with
    | .error e => (.error e, c)
    | .ok compiled =>
      let (kept, c) := ({ c with misses := c.misses + 1 }).store template compiled
      (.ok kept, c)

end Cache
end Stencil
