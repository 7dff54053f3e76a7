import Mathlib.Data.List.DropRight
import Stencil.Proofs.Session.History

/-!
# The accounts of a cache

Hits, misses and entries are changed in different places: a compilation that finds a form counts a
hit, one that does not counts a miss and enters what it made, and forms can be entered by hand.
Some compilations fail half-way, and clearing sets everything back.

An operation of a run is an **event** for the cache it works on (`Request.event`), judged by what
the cache holds when the operation comes, and not by any of its counters.  `Cache.Accounts` says
that the three numbers agree with a list of events.  Every request keeps this
(`Cache.Accounts.leave`), and so do runs: at every point of every run the accounts of every cache
are those of the events since it was cleared last (`Session.accounts_after`).

The counters can be read off the events alone, so two runs with the same events have the same
counters, whatever their caches hold.
-/

set_option autoImplicit false

namespace Stencil

/-! ## Events -/

namespace Cache

/-- What an operation is for the accounts of a cache. -/
inductive Event where
  /-- A compilation that succeeded; `found` says whether its template had a form already. -/
  | compiled (found : Bool)
  /-- A form that was given to be entered; `found` says whether its template had one already. -/
  | stored (found : Bool)
  | cleared
  /-- Nothing that is counted.  This includes compilations that failed. -/
  | uncounted
  deriving DecidableEq, Repr

/-- The event is a compilation that succeeded. -/
def Event.isCompiled : Event → Bool
  | compiled _ => true
  | stored _ | cleared | uncounted => false

/-- The events after the last clearing, all of them if there was none. -/
def Event.sinceCleared (es : List Event) : List Event := es.rtakeWhile (· ≠ .cleared)

@[simp] theorem Event.sinceCleared_append_cleared (es : List Event) :
    sinceCleared (es ++ [cleared]) = [] :=
  List.rtakeWhile_concat_neg _ _ _ (by simp)

theorem Event.sinceCleared_append {e : Event} (he : e ≠ cleared) (es : List Event) :
    sinceCleared (es ++ [e]) = sinceCleared es ++ [e] :=
  List.rtakeWhile_concat_pos _ _ _ (decide_eq_true he)

/-- The three numbers of a cache agree with what has happened to it. -/
structure Accounts (c : Cache) (es : List Event) : Prop where
  lookups : c.hits + c.misses = es.countP Event.isCompiled
  misses : c.misses = es.count (.compiled false)
  size : c.size = c.misses + es.count (.stored false)

theorem accounts_empty : empty.Accounts [] := ⟨rfl, rfl, rfl⟩

end Cache

/-- The event that a request is for a cache which holds the forms `kept`.  A compilation counts as
soon as it gives a form, whether or not arguments can be formatted with it then. -/
def Request.event (kept : Text → Option Text) : Request → Cache.Event
  | compile template map _ =>
    match compiled (kept template) map template with
    | .ok _ => .compiled (kept template).isSome
    | .error _ => .uncounted
  | store template _ => .stored (kept template).isSome
  | clear => .cleared
  | has _ | get _ | nothing _ => .uncounted

/-! ## One request -/

namespace Cache

variable {c : Cache} {es : List Event}

namespace Accounts

/-- A template that had a form was compiled. -/
theorem hit (h : c.Accounts es) :
    Accounts { c with hits := c.hits + 1 } (es ++ [.compiled true]) where
  lookups := by
    have := h.lookups
    simp only [List.countP_append, List.countP_singleton, Event.isCompiled, if_true]
    omega
  misses := by simpa using h.misses
  size := by simpa [Cache.size] using h.size

/-- A template that had no form was compiled, and what came out was entered. -/
theorem miss (h : c.Accounts es) (e : Text × Text) :
    Accounts ⟨c.entries ++ [e], c.hits, c.misses + 1⟩ (es ++ [.compiled false]) where
  lookups := by
    have := h.lookups
    simp only [List.countP_append, List.countP_singleton, Event.isCompiled, if_true]
    omega
  misses := by simpa using h.misses
  size := by
    have hsize : c.entries.length = c.misses + es.count (.stored false) := h.size
    simp only [Cache.size, List.length_append, List.length_singleton, List.count_append,
      List.count_singleton, beq_iff_eq, reduceCtorEq, if_false]
    omega

/-- A form was entered for a template that had none. -/
theorem entered (h : c.Accounts es) (e : Text × Text) :
    Accounts { c with entries := c.entries ++ [e] } (es ++ [.stored false]) where
  lookups := by simpa [Event.isCompiled] using h.lookups
  misses := by simpa using h.misses
  size := by
    have hsize : c.entries.length = c.misses + es.count (.stored false) := h.size
    simp only [Cache.size, List.length_append, List.length_singleton, List.count_append,
      List.count_singleton_self]
    omega

/-- Events that are not counted change nothing, and neither do forms that come too late. -/
theorem unchanged (h : c.Accounts es) {e : Event} (he : e ∈ [.stored true, .uncounted]) :
    c.Accounts (es ++ [e]) := by
  simp only [List.mem_cons, List.not_mem_nil, or_false] at he
  rcases he with rfl | rfl
  · exact ⟨by simpa [Event.isCompiled] using h.lookups, by simpa using h.misses,
      by simpa using h.size⟩
  · exact ⟨by simpa [Event.isCompiled] using h.lookups, by simpa using h.misses,
      by simpa using h.size⟩

/-- **A request keeps the accounts.** -/
theorem leave (h : c.Accounts (Event.sinceCleared es)) (r : Request) :
    (r.leave c).Accounts (Event.sinceCleared (es ++ [r.event c.get?])) := by
  -- what is not a clearing comes after what has happened since the last one
  have hnext {d : Cache} (e : Event) (he : e ≠ .cleared)
      (hd : d.Accounts (Event.sinceCleared es ++ [e])) :
      d.Accounts (Event.sinceCleared (es ++ [e])) := by
    rwa [Event.sinceCleared_append he]
  cases r with
  | compile template map use =>
    rw [Request.event, Request.leave]
    rcases hc : c.get? template with _ | kept
    · rcases hs : Request.compiled none map template with e | s
      · rw [Cache.compile_of_compiled_eq_error hc hs]
        exact hnext .uncounted (by decide) (h.unchanged (by simp))
      · rw [Cache.compile_of_compiled_eq_ok hc hs]
        exact hnext (.compiled false) (by decide) (h.miss (template, s))
    · rw [Cache.compile_of_get?_eq_some hc]
      exact hnext (.compiled true) (by decide) h.hit
  | store template s =>
    rw [Request.event, Request.leave, Cache.store]
    rcases hc : c.get? template with _ | kept
    · exact hnext (.stored false) (by decide) (h.entered (template, s))
    · exact hnext (.stored true) (by decide) (h.unchanged (by simp))
  | clear =>
    rw [Request.event, Event.sinceCleared_append_cleared]
    exact accounts_empty
  | has template | get template | nothing a =>
    exact hnext .uncounted (by decide) (h.unchanged (by simp))

end Accounts
end Cache

/-! ## Runs -/

namespace Session

variable {s : Session} {i : Nat}

/-- What an operation is for the cache with number `i`, if it works on it. -/
def eventsTo [Nesting] (s : Session) (i : Nat) (step : Step) : List Cache.Event :=
  (s.requestsTo i step).map (Request.event (s.cache i).get?)

/-- What the operations of a run are for the cache with number `i`, in order. -/
def events [Nesting] (i : Nat) : Session → List Step → List Cache.Event
  | _, [] => []
  | s, step :: steps => s.eventsTo i step ++ events i (s.step step).2 steps

theorem events_append_singleton [Nesting] (i : Nat) (s : Session) (steps : List Step)
    (step : Step) :
    events i s (steps ++ [step]) = events i s steps ++ (s.after steps).eventsTo i step := by
  induction steps generalizing s with
  | nil => simp [events, after]
  | cons first steps ih => simp [events, ih, after]

/-- One operation keeps the accounts of every cache. -/
theorem accounts_step [Nesting] (hs : s.Valid) {es : List Cache.Event}
    (h : (s.cache i).Accounts (Cache.Event.sinceCleared es)) (step : Step) :
    ((s.step step).2.cache i).Accounts (Cache.Event.sinceCleared (es ++ s.eventsTo i step)) := by
  rcases hr : s.request? step with _ | ⟨j, r⟩
  · rw [cache_step_of_request?_eq_none hr, eventsTo, requestsTo, hr]
    simpa using h
  · rw [step_of_request? hr, respond]
    by_cases hj : j = i
    · subst hj
      have hes : s.eventsTo j step = [r.event (s.cache j).get?] := by
        simp [eventsTo, requestsTo, hr]
      rw [hes, cache_setCache_self (hs.lt_of_request? hr)]
      exact h.leave r
    · have hes : s.eventsTo i step = [] := by simp [eventsTo, requestsTo, hr, hj]
      rw [hes, List.append_nil, cache_setCache_of_ne hj]
      exact h

theorem accounts_cache_start (i : Nat) : (start.cache i).Accounts [] := by
  have hempty : start.cache i = Cache.empty := by cases i <;> rfl
  rw [hempty]
  exact Cache.accounts_empty

theorem accounts_cache_after [Nesting] (steps : List Step) (i : Nat) :
    ((start.after steps).cache i).Accounts (Cache.Event.sinceCleared (events i start steps)) := by
  induction steps using List.reverseRecOn with
  | nil => exact accounts_cache_start i
  | append_singleton steps step ih =>
    rw [after_append_singleton, events_append_singleton]
    exact accounts_step (valid_start.after steps) ih step

/-- **The accounts of a cache after any run.**  Its hits and misses together are the compilations
that succeeded since it was cleared last, its misses those among them whose template it had no form
for, and its entries are one for each miss and one for each form that was entered by hand for a
template without one. -/
theorem accounts_after [Nesting] (steps : List Step) (i : Nat) :
    let c := (start.after steps).cache i
    let es := Cache.Event.sinceCleared (events i start steps)
    c.hits + c.misses = es.countP Cache.Event.isCompiled ∧
      c.misses = es.count (.compiled false) ∧
      c.size = c.misses + es.count (.stored false) :=
  have h := accounts_cache_after steps i
  ⟨h.lookups, h.misses, h.size⟩

end Session
end Stencil
