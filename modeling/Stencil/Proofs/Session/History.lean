import Mathlib.Data.List.Induction
import Stencil.Proofs.Session.Request

/-!
# A cache is its history

The compiled forms that a cache holds depend on the requests it got, and on no more of them than
this: for each template, **the first request since the last clearing that entered a form for it**
(`Request.firstWritten`).  Such a request is a compilation that succeeds, or an entry by hand.

`Session.get?_cache_after` says so of every cache after every run of operations, by induction on the
run: a request that clears the cache begins a new history, and any other adds at most what there
was not.  `Session.answer_run` draws the conclusion for the answers of a run: each is what its
request answers when the first writers say which forms there are.

A history is a list of requests, and of a request no more is needed than what it would enter and
whether it clears.  The counters of a cache are left out here, since they depend on look-ups as
well.
-/

set_option autoImplicit false

namespace Stencil

namespace Request

/-! ## The first writer

The definitions look at requests alone and not at a cache.  Of the requests since the last clearing
the first that would enter a form for a template is its writer, whether or not any later one would.
-/

/-- The form that a request enters for a template where there is none yet.  A compilation enters
what the map makes of the template, provided that it succeeds; what is done with the form afterwards
does not matter. -/
def written? (template : Text) : Request → Option Text
  | compile t map _ => if t = template then (compiled none map t).toOption else none
  | store t s => if t = template then some s else none
  | clear | has _ | get _ | nothing _ => none

/-- The request is to forget all compiled forms. -/
def isClear : Request → Bool
  | clear => true
  | _ => false

/-- The requests after the last clearing, all of them if there was none. -/
def sinceClear (rs : List Request) : List Request := (rs.reverse.takeWhile (!·.isClear)).reverse

/-- What the first writer of a template since the last clearing entered for it. -/
def firstWritten (rs : List Request) (template : Text) : Option Text :=
  (sinceClear rs).findSome? (written? template)

theorem sinceClear_append_singleton (rs : List Request) (r : Request) :
    sinceClear (rs ++ [r]) = if r.isClear then [] else sinceClear rs ++ [r] := by
  rw [sinceClear, List.reverse_append, List.reverse_singleton, List.singleton_append,
    List.takeWhile_cons]
  cases h : r.isClear <;> simp [sinceClear]

/-- One more request clears everything, or counts only for templates that had no writer. -/
theorem firstWritten_append_singleton (rs : List Request) (r : Request) (template : Text) :
    firstWritten (rs ++ [r]) template =
      if r.isClear then none else (firstWritten rs template).or (r.written? template) := by
  rw [firstWritten, sinceClear_append_singleton]
  by_cases h : r.isClear
  · simp [h]
  · simp [h, List.findSome?_append, firstWritten]

end Request

/-! ## One request

A cache takes a form for a template only if it has none, and keeps all others. -/

namespace Cache

theorem get?_append_singleton (es : List (Text × Text)) (t s template : Text) (h m : Nat) :
    (Cache.mk (es ++ [(t, s)]) h m).get? template =
      ((Cache.mk es h m).get? template).or (if t = template then some s else none) := by
  simp only [get?, List.find?_append]
  cases es.find? fun e => e.1 = template with
  | some e => simp
  | none => by_cases ht : t = template <;> simp [ht]

theorem get?_congr {c d : Cache} (h : c.entries = d.entries) : c.get? = d.get? := by
  funext template
  rw [get?, get?, h]

end Cache

namespace Request

/-- **What a request leaves**: nothing if it clears the cache; otherwise what there was, and where
there was nothing, what it enters. -/
theorem get?_leave (c : Cache) (r : Request) (template : Text) :
    (r.leave c).get? template =
      if r.isClear then none else (c.get? template).or (r.written? template) := by
  -- a template that has a form gains none
  have hkept {t kept : Text} (h : c.get? t = some kept) (x : Option Text) :
      (c.get? template).or (if t = template then x else none) = c.get? template := by
    by_cases ht : t = template
    · subst ht
      simp [h]
    · simp [ht]
  cases r with
  | compile t map use =>
    simp only [leave, isClear, written?]
    cases h : c.get? t with
    | some kept =>
      rw [Cache.compile_of_get?_eq_some h]
      simp only [hkept h, Bool.false_eq_true, if_false]
      exact congrFun (Cache.get?_congr rfl) template
    | none =>
      cases hs : compiled none map t with
      | error e =>
        rw [Cache.compile_of_compiled_eq_error h hs]
        simp [Except.toOption]
      | ok s =>
        rw [Cache.compile_of_compiled_eq_ok h hs]
        simp only [Cache.get?_append_singleton, Except.toOption]
        rfl
  | store t s =>
    simp only [leave, isClear, written?, Cache.store]
    cases h : c.get? t with
    | some kept => simp [hkept h]
    | none => simp [Cache.get?_append_singleton]
  | clear => rfl
  | has t => simp [leave, isClear, written?]
  | get t => simp [leave, isClear, written?]
  | nothing a => simp [leave, isClear, written?]

end Request

/-! ## The caches of a session

An operation works on one cache at most.  Caches are only ever added, so a number that has a cache
keeps it, and nothing that a session holds points beyond the last one. -/

namespace Session

/-- Every formatter works on a cache that exists, and so does every name of a cache. -/
structure Valid (s : Session) : Prop where
  members : ∀ e ∈ s.members, e.2.cache < s.caches.length
  cacheNames : ∀ e ∈ s.cacheNames, e.2 < s.caches.length

variable {s : Session} {i : Nat} {r : Request}

theorem mem_of_find? {α : Type} {name : Text} {entries : List (Text × α)} {a : α}
    (h : find? name entries = some a) : ∃ e ∈ entries, e.2 = a := by
  obtain ⟨e, he, rfl⟩ := Option.map_eq_some_iff.1 h
  exact ⟨e, List.mem_of_find?_eq_some he, rfl⟩

theorem Valid.cache_lt_of_find? (hs : s.Valid) {name : Text}
    (h : find? name s.cacheNames = some i) : i < s.caches.length := by
  obtain ⟨e, he, rfl⟩ := mem_of_find? h
  exact hs.cacheNames e he

/-- A request goes to a cache that exists. -/
theorem Valid.lt_of_request? [Nesting] (hs : s.Valid) {step : Step}
    (h : s.request? step = some (i, r)) : i < s.caches.length := by
  rcases exists_through_of_request? h with ⟨name, act, req, f, -, hf, -⟩ | ⟨name, act, -, hi⟩
  · obtain ⟨e, he, hei⟩ := mem_of_find? hf
    have hlt := hs.members e he
    rwa [hei] at hlt
  · exact hs.cache_lt_of_find? hi

/-- What is put in a place is there. -/
@[simp] theorem cache_setCache_self (h : i < s.caches.length) (c : Cache) :
    (s.setCache i c).cache i = c := by
  simp [cache, setCache, h]

/-- What is put in another place does not matter. -/
theorem cache_setCache_of_ne {j : Nat} (h : i ≠ j) (c : Cache) :
    (s.setCache i c).cache j = s.cache j := by
  simp [cache, setCache, h]

@[simp] theorem cache_addCache (s : Session) (j : Nat) : s.addCache.2.cache j = s.cache j := by
  simp only [cache, addCache, List.getD_eq_getElem?_getD, List.getElem?_append]
  split
  · rfl
  · rename_i h
    rw [List.getElem?_eq_none (Nat.le_of_not_lt h)]
    cases (j - s.caches.length) <;> rfl

/-- An operation without a request leaves the session as it is, or makes a cache or a formatter. -/
theorem step_of_request?_eq_none [Nesting] {step : Step} (h : s.request? step = none) :
    (s.step step).2 = s ∨
      (∃ name, (s.step step).2 = { s.addCache.2 with
        cacheNames := (name, s.addCache.1) :: s.cacheNames }) ∨
      (∃ name m, (s.step step).2 = s.addCache.2.addMember name m s.addCache.1) ∨
      ∃ name m c j, find? c s.cacheNames = some j ∧ (s.step step).2 = s.addMember name m j := by
  rcases hm : step.makes with _ | _
  · exact .inl (step_of_makes_eq_false hm h)
  cases step with
  | newCache name => exact .inr (.inl ⟨name, rfl⟩)
  | newFormatter name cache map =>
    rw [Session.step, newFormatter]
    cases FormatMap.ofValue map with
    | error e => exact .inl rfl
    | ok m =>
      cases cache with
      | none => exact .inr (.inr (.inl ⟨name, m, rfl⟩))
      | some c =>
        cases hc : find? c s.cacheNames with
        | none => exact .inl (by simp only [hc])
        | some j => exact .inr (.inr (.inr ⟨name, m, c, j, hc, by simp only [hc]⟩))
  | _ => cases hm

/-- An operation without a request changes no cache. -/
theorem cache_step_of_request?_eq_none [Nesting] {step : Step} (h : s.request? step = none)
    (j : Nat) : (s.step step).2.cache j = s.cache j := by
  rcases step_of_request?_eq_none h with he | ⟨name, he⟩ | ⟨name, m, he⟩ | ⟨name, m, c, k, -, he⟩
  · rw [he]
  · rw [he]
    exact cache_addCache s j
  · rw [he]
    exact cache_addCache s j
  · rw [he]
    rfl

theorem valid_start : start.Valid where
  members := by simp [start]
  cacheNames := by simp [start]

theorem Valid.setCache (hs : s.Valid) (i : Nat) (c : Cache) : (s.setCache i c).Valid where
  members e he := by simpa [Session.setCache] using hs.members e he
  cacheNames e he := by simpa [Session.setCache] using hs.cacheNames e he

theorem Valid.addCache (hs : s.Valid) : s.addCache.2.Valid where
  members e he := by
    have := hs.members e he
    simp only [Session.addCache, List.length_append, List.length_singleton]
    omega
  cacheNames e he := by
    have := hs.cacheNames e he
    simp only [Session.addCache, List.length_append, List.length_singleton]
    omega

theorem addCache_lt (s : Session) : s.addCache.1 < s.addCache.2.caches.length := by
  simp [Session.addCache]

theorem Valid.addMember (hs : s.Valid) (hi : i < s.caches.length) (name : Text) (m : FormatMap) :
    (s.addMember name m i).Valid where
  members := by
    intro e he
    rcases List.mem_cons.1 he with rfl | he
    · exact hi
    · exact hs.members e he
  cacheNames := hs.cacheNames

/-- No operation leaves a number without a cache. -/
theorem Valid.step [Nesting] (hs : s.Valid) (step : Step) : (s.step step).2.Valid := by
  cases h : s.request? step with
  | some p =>
    rw [step_of_request? h]
    exact hs.setCache _ _
  | none =>
    rcases step_of_request?_eq_none h with he | ⟨name, he⟩ | ⟨name, m, he⟩ | ⟨name, m, c, k, hk, he⟩
    · rwa [he]
    · rw [he]
      refine ⟨hs.addCache.members, fun e hm => ?_⟩
      rcases List.mem_cons.1 hm with rfl | hm
      · exact s.addCache_lt
      · exact hs.addCache.cacheNames e hm
    · rw [he]
      exact hs.addCache.addMember s.addCache_lt name m
    · rw [he]
      exact hs.addMember (hs.cache_lt_of_find? hk) name m

/-! ## Runs

The induction adds operations at the end of a run, as the first writer of a history is known when
requests are added at its end. -/

/-- The session after operations. -/
def after [Nesting] (s : Session) (steps : List Step) : Session :=
  steps.foldl (fun s step => (s.step step).2) s

/-- The request of an operation to the cache with number `i`, if it has one. -/
def requestsTo [Nesting] (s : Session) (i : Nat) (step : Step) : List Request :=
  ((s.request? step).toList.filter (·.1 = i)).map (·.2)

/-- The requests to the cache with number `i` in a run of operations, in order. -/
def history [Nesting] (i : Nat) : Session → List Step → List Request
  | _, [] => []
  | s, step :: steps => s.requestsTo i step ++ history i (s.step step).2 steps

theorem after_append_singleton [Nesting] (s : Session) (steps : List Step) (step : Step) :
    s.after (steps ++ [step]) = ((s.after steps).step step).2 := by
  simp [after]

theorem history_append_singleton [Nesting] (i : Nat) (s : Session) (steps : List Step)
    (step : Step) :
    history i s (steps ++ [step]) = history i s steps ++ (s.after steps).requestsTo i step := by
  induction steps generalizing s with
  | nil => simp [history, after]
  | cons first steps ih => simp [history, ih, after]

theorem Valid.after [Nesting] (hs : s.Valid) (steps : List Step) : (s.after steps).Valid := by
  induction steps generalizing s with
  | nil => exact hs
  | cons step steps ih => exact ih (hs.step step)

/-- One operation adds its request to the history of the cache it works on, and the forms that the
cache holds are still those of the first writers. -/
theorem get?_cache_step [Nesting] (hs : s.Valid) {rs : List Request}
    (h : ∀ t, (s.cache i).get? t = Request.firstWritten rs t) (step : Step) (t : Text) :
    ((s.step step).2.cache i).get? t = Request.firstWritten (rs ++ s.requestsTo i step) t := by
  cases hr : s.request? step with
  | none =>
    rw [cache_step_of_request?_eq_none hr, h, requestsTo, hr]
    simp
  | some p =>
    obtain ⟨j, r⟩ := p
    rw [step_of_request? hr]
    by_cases hj : j = i
    · subst hj
      have hrs : s.requestsTo j step = [r] := by simp [requestsTo, hr]
      rw [hrs, Request.firstWritten_append_singleton, ← h, respond,
        cache_setCache_self (hs.lt_of_request? hr), Request.get?_leave]
    · have hrs : s.requestsTo i step = [] := by simp [requestsTo, hr, hj]
      rw [hrs, List.append_nil, ← h, respond, cache_setCache_of_ne hj]

/-- **After any run, a cache holds what the first writers entered.** -/
theorem get?_cache_after [Nesting] (steps : List Step) (i : Nat) (t : Text) :
    ((start.after steps).cache i).get? t = Request.firstWritten (history i start steps) t := by
  induction steps using List.reverseRecOn generalizing t with
  | nil =>
    show (start.cache i).get? t = none
    cases i <;> rfl
  | append_singleton steps step ih =>
    rw [after_append_singleton, history_append_singleton]
    exact get?_cache_step (valid_start.after steps) ih step t

theorem getElem?_run [Nesting] (s : Session) (before after : List Step) (step : Step) :
    ((run s (before ++ step :: after))[before.length]?).map Prod.fst =
      some ((s.after before).step step).1 := by
  induction before generalizing s with
  | nil => rfl
  | cons first before ih => exact ih (s.step first).2

/-- **The answers of a run.**  Wherever an operation stands in a run, its answer is that of its
request when a template has the form that its first writer since the last clearing entered, and no
other.  So a compilation gives, or goes on with, that form; without a first writer it uses its own
map. -/
theorem answer_run [Nesting] (before after : List Step) (step : Step) {i : Nat} {r : Request}
    (h : (start.after before).request? step = some (i, r)) :
    ((run start (before ++ step :: after))[before.length]?).map Prod.fst =
      some (r.answer (Request.firstWritten (history i start before))) := by
  have hkept : ((start.after before).cache i).get? =
      Request.firstWritten (history i start before) :=
    funext fun t => get?_cache_after before i t
  rw [getElem?_run, step_of_request? h, respond, hkept]

/-- Two formatters share a cache.  The second one formats with the form that the first one entered,
although its own map has the names in the other order. -/
theorem answer_run_shared :
    let names : List Text → Value := fun ns => .list (ns.map Value.text)
    let template : Text := ['%', 'a', '$', 's']
    let before : List Step :=
      [.newCache ['c'], .newFormatter ['f'] (some ['c']) (names [['a'], ['b']]),
        .newFormatter ['g'] (some ['c']) (names [['b'], ['a']]), .compile ['f'] template .null]
    let args : Value := .dict [(.text ['a'], .text ['x']), (.text ['b'], .text ['y'])]
    let step : Step := .formatNamed ['g'] template args .null
    (start.after before).request? step = some (1, .compile template (.ok (.names [['b'], ['a']]))
        (formatWith · (.list [.text ['y'], .text ['x']]))) ∧
      ((run start (before ++ [step]))[4]?).map Prod.fst = some (.ok (.text ['y'])) := by
  intro names template before args step
  have hr : (start.after before).request? step = some (1, .compile template
      (.ok (.names [['b'], ['a']])) (formatWith · (.list [.text ['y'], .text ['x']]))) := rfl
  have hw : (Request.compile template (.ok (.names [['b'], ['a']]))
      (formatWith · (.list [.text ['y'], .text ['x']]))).answer
      (Request.firstWritten (history 1 start before)) = .ok (.text ['y']) := by decide +kernel
  exact ⟨hr, (answer_run before [] step hr).trans (congrArg some hw)⟩

end Session
end Stencil
