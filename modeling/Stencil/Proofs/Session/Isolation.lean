import Stencil.Proofs.Session.History

/-!
# Caches do not disturb each other

A run may work on several caches in turn, through formatters that share one and formatters that
have their own.  `Session.excerpt` takes out of a run the operations that work on one cache, with
what they show.  `Session.run_excerpt` says that this is all the same when these operations are run
alone: the answers do not change, and neither do the entries, hits and misses of the cache.

What changes is the number of the cache, because caches that came before it are not made at all.
So the two runs are compared by a relation, `Session.Mirrors`, between a session where the cache has
one number and a session where it has another.  An operation on the cache keeps the relation when
both sessions do it (`Mirrors.step`), any other operation when only the first one does it
(`Mirrors.step_left`).

A formatter that is made with a cache works on this cache and no other, whatever happens after that
and also if the cache is still empty (`Session.number?_after`).  So all formatters that are given
the same cache see the same.
-/

set_option autoImplicit false

namespace Stencil

namespace Session

variable {s t : Session} {i j k : Nat} {r : Request}

/-! ## The cache of an operation

An operation names a formatter or a cache, and works on the cache that this name stands for at that
time.  A formatter that is just being made counts with the cache that it is made with, so that it is
there when its cache is looked at alone. -/

/-- The number of the cache of a subject. -/
def number? (s : Session) : Step.Subject → Option Nat
  | .formatter name => (find? name s.members).map Member.cache
  | .cache name => find? name s.cacheNames

/-- The operations of a run that work on the cache with number `i`, each with its answer and with
that cache as the operation left it.  The operation that makes the cache is among them, and so are
those that make a formatter on it. -/
def excerpt [Nesting] (i : Nat) :
    Session → List Step → List (Step × Except Fault Answer × Option Cache)
  | _, [] => []
  | s, step :: steps =>
    let (answer, s) := s.step step
    if s.number? step.subject = some i then
      (step, answer, s.cacheOf? step.subject) :: excerpt i s steps
    else excerpt i s steps

theorem run_cons [Nesting] (s : Session) (step : Step) (steps : List Step) :
    run s (step :: steps) = ((s.step step).1, (s.step step).2.cacheOf? step.subject) ::
      run (s.step step).2 steps := rfl

theorem excerpt_cons [Nesting] (i : Nat) (s : Session) (step : Step) (steps : List Step) :
    excerpt i s (step :: steps) =
      if (s.step step).2.number? step.subject = some i then
        (step, (s.step step).1, (s.step step).2.cacheOf? step.subject) ::
          excerpt i (s.step step).2 steps
      else excerpt i (s.step step).2 steps := rfl

theorem cacheOf?_of_number? {subject : Step.Subject} (h : s.number? subject = some i) :
    s.cacheOf? subject = some (s.cache i) := by
  have hmap : s.cacheOf? subject = (s.number? subject).map s.cache := by
    cases subject <;> simp [cacheOf?, number?, Function.comp_def]
  rw [hmap, h, Option.map_some]

theorem find?_cons {α : Type} (name name' : Text) (a : α) (entries : List (Text × α)) :
    find? name ((name', a) :: entries) = if name' = name then some a else find? name entries := by
  by_cases h : name' = name <;> simp [find?, h]

/-- What makes nothing has its request to the cache of its subject. -/
theorem number?_subject [Nesting] {step : Step} (hm : step.makes = false) :
    s.number? step.subject = (s.request? step).map Prod.fst := by
  rcases Step.exists_through hm with ⟨name, act, req, hstep⟩ | ⟨name, act, req, hstep⟩
  · rw [hstep.subject, hstep.request?_eq, request?.ofFormatter, Option.map_map]
    rfl
  · rw [hstep.subject, hstep.request?_eq, request?.ofCache, Option.map_map]
    exact Option.map_id'.symm

/-! ### Making formatters

There are four cases, one for a map that cannot be read and three for the cache: none is given, one
that is not known, or one that is. -/

section NewFormatter

variable {name c : Text} {cache : Option Text} {map : Value} {m : FormatMap}

theorem step_newFormatter_error [Nesting] {e : Fault} (hm : FormatMap.ofValue map = .error e) :
    s.step (.newFormatter name cache map) = (.error e, s) := by
  simp only [Session.step, newFormatter, hm]

theorem step_newFormatter_own [Nesting] (hm : FormatMap.ofValue map = .ok m) :
    s.step (.newFormatter name none map) =
      (.ok (.map m), s.addCache.2.addMember name m s.caches.length) := by
  simp only [Session.step, newFormatter, hm]
  rfl

theorem step_newFormatter_unknown [Nesting] (hm : FormatMap.ofValue map = .ok m)
    (hc : find? c s.cacheNames = none) :
    s.step (.newFormatter name (some c) map) = (.error (.unknownName c), s) := by
  simp only [Session.step, newFormatter, hm, hc]

theorem step_newFormatter_shared [Nesting] (hm : FormatMap.ofValue map = .ok m)
    (hc : find? c s.cacheNames = some k) :
    s.step (.newFormatter name (some c) map) = (.ok (.map m), s.addMember name m k) := by
  simp only [Session.step, newFormatter, hm, hc]

@[simp] theorem number?_addMember (s : Session) (name : Text) (m : FormatMap) (k : Nat) :
    (s.addMember name m k).number? (.formatter name) = some k := by
  simp [number?, addMember, find?_cons]

theorem number?_addMember_of_ne {name' : Text} (h : name' ≠ name) (m : FormatMap) (k : Nat) :
    (s.addMember name' m k).number? (.formatter name) = s.number? (.formatter name) := by
  simp [number?, addMember, find?_cons, h]

theorem number?_newCache [Nesting] (s : Session) (name : Text) :
    (s.step (.newCache name)).2.number? (.cache name) = some s.caches.length := by
  simp [Session.step, number?, addCache, find?_cons]

end NewFormatter

/-! ## The same cache in two sessions

The numbers differ, because the second session may lack caches of the first.  What the two have in
common is that all names of the cache in the first session are names of it in the second. -/

/-- The cache with number `i` of one session is the cache with number `j` of another, or will be
when it is made, and what works on the first also works on the second. -/
structure Mirrors (s t : Session) (i j : Nat) : Prop where
  cache : t.cache j = s.cache i
  made : (i < s.caches.length ∧ j < t.caches.length) ∨
    (s.caches.length ≤ i ∧ t.caches.length = j)
  members : ∀ name m, find? name s.members = some m → m.cache = i →
    find? name t.members = some ⟨m.formatter, j⟩
  names : ∀ name, find? name s.cacheNames = some i → find? name t.cacheNames = some j
  unknown : ∀ name, find? name s.cacheNames = none → find? name t.cacheNames = none

/-- Every cache is mirrored by the only one that a session begins with, or by the next one. -/
theorem exists_mirrors_start (i : Nat) : ∃ j, Mirrors start start i j := by
  rcases i with _ | i
  · exact ⟨0, rfl, .inl ⟨Nat.one_pos, Nat.one_pos⟩, fun _ _ h hm => by rw [h, ← hm], fun _ => id,
      fun _ => id⟩
  · refine ⟨1, rfl, .inr ⟨Nat.le_add_left 1 i, rfl⟩, fun name m h hm => ?_, fun _ => nofun,
      fun _ => id⟩
    obtain ⟨e, he, rfl⟩ := mem_of_find? h
    cases List.mem_singleton.1 he
    cases hm

namespace Mirrors

theorem number? (h : Mirrors s t i j) {subject : Step.Subject}
    (hi : s.number? subject = some i) : t.number? subject = some j := by
  cases subject with
  | formatter name =>
    obtain ⟨m, hm, hmi⟩ := Option.map_eq_some_iff.1 hi
    simp [Session.number?, h.members name m hm hmi]
  | cache name => exact h.names name hi

/-! ### Steps of both sessions

A step writes into the cache, makes it, or gives a name to it.  Each of these keeps the relation if
it is done in both sessions. -/

/-- The cache is written to in both sessions. -/
theorem setCache (h : Mirrors s t i j) (hi : i < s.caches.length) (c : Cache) :
    Mirrors (s.setCache i c) (t.setCache j c) i j := by
  have hj : j < t.caches.length := h.made.elim And.right fun hm => absurd hi (by omega)
  exact {
    cache := by rw [cache_setCache_self hj, cache_setCache_self hi]
    made := .inl ⟨by simpa [Session.setCache] using hi, by simpa [Session.setCache] using hj⟩
    members := h.members
    names := h.names
    unknown := h.unknown }

/-- The cache is made in both sessions. -/
theorem addCache (h : Mirrors s t i j) (hi : s.caches.length = i) :
    t.caches.length = j ∧ Mirrors s.addCache.2 t.addCache.2 i j := by
  have hj : t.caches.length = j := h.made.elim (fun hm => absurd hm.1 (by omega)) And.right
  exact ⟨hj, {
    cache := by rw [cache_addCache, cache_addCache, h.cache]
    made := by
      simp only [Session.addCache, List.length_append, List.length_singleton]
      omega
    members := h.members
    names := h.names
    unknown := h.unknown }⟩

theorem addName (h : Mirrors s t i j) (name : Text) :
    Mirrors { s with cacheNames := (name, i) :: s.cacheNames }
      { t with cacheNames := (name, j) :: t.cacheNames } i j where
  cache := h.cache
  made := h.made
  members := h.members
  names name' hn := by
    rw [find?_cons] at hn ⊢
    split at hn
    · rw [if_pos ‹_›]
    · rw [if_neg ‹_›]
      exact h.names name' hn
  unknown name' hn := by
    rw [find?_cons] at hn ⊢
    split at hn
    · cases hn
    · rw [if_neg ‹_›]
      exact h.unknown name' hn

theorem addMember (h : Mirrors s t i j) (name : Text) (m : FormatMap) :
    Mirrors (s.addMember name m i) (t.addMember name m j) i j where
  cache := h.cache
  made := h.made
  members name' m' hm hi := by
    rw [Session.addMember, find?_cons] at hm ⊢
    split at hm
    · rw [if_pos ‹_›]
      cases hm
      rfl
    · rw [if_neg ‹_›]
      exact h.members name' m' hm hi
  names := h.names
  unknown := h.unknown

theorem request? [Nesting] (h : Mirrors s t i j) {step : Step}
    (hr : s.request? step = some (i, r)) : t.request? step = some (j, r) := by
  rcases exists_through_of_request? hr with ⟨name, act, req, f, hstep, hf, he⟩ |
    ⟨name, act, hstep, hi⟩
  · rw [hstep.request?_eq]
    exact ofFormatter_eq_some_iff.2 ⟨f, h.members name _ hf rfl, he⟩
  · rw [hstep.request?_eq]
    exact ofCache_eq_some_iff.2 ⟨h.names name hi, rfl⟩

/-- **An operation on the cache does the same in both sessions.** -/
theorem step [Nesting] (h : Mirrors s t i j) (hs : s.Valid) {step : Step}
    (hi : (s.step step).2.number? step.subject = some i) :
    (t.step step).1 = (s.step step).1 ∧ Mirrors (s.step step).2 (t.step step).2 i j := by
  -- a step that makes nothing is a request to one cache, and both sessions have the same one there
  by_cases hm : step.makes = false
  · rcases hr : s.request? step with _ | ⟨k, r⟩
    · rw [step_of_makes_eq_false hm hr, number?_subject hm, hr] at hi
      cases hi
    · have hk : s.number? step.subject = some k := by
        rw [number?_subject hm, hr, Option.map_some]
      rw [step_of_request? hr] at hi
      cases hi.symm.trans hk
      rw [step_of_request? hr, step_of_request? (h.request? hr), respond, respond, h.cache]
      exact ⟨rfl, h.setCache (hs.lt_of_request? hr) _⟩
  -- a step that makes something gives it the next number on both sides
  cases step with
  | newCache name =>
    have hi : s.caches.length = i := Option.some.inj ((number?_newCache s name).symm.trans hi)
    obtain ⟨hj, h⟩ := h.addCache hi
    subst hi hj
    exact ⟨rfl, h.addName name⟩
  | newFormatter name cache map =>
    rcases hmap : FormatMap.ofValue map with e | m
    · rw [step_newFormatter_error hmap, step_newFormatter_error hmap]
      exact ⟨rfl, h⟩
    rcases cache with _ | c
    · rw [step_newFormatter_own hmap] at hi ⊢
      rw [step_newFormatter_own hmap]
      have hi : s.caches.length = i := Option.some.inj ((number?_addMember ..).symm.trans hi)
      obtain ⟨hj, h⟩ := h.addCache hi
      subst hi hj
      exact ⟨rfl, h.addMember name m⟩
    -- a cache that has no name in one session has none in the other
    rcases hc : find? c s.cacheNames with _ | k
    · rw [step_newFormatter_unknown hmap hc, step_newFormatter_unknown hmap (h.unknown c hc)]
      exact ⟨rfl, h⟩
    · rw [step_newFormatter_shared hmap hc] at hi ⊢
      have hi : k = i := Option.some.inj ((number?_addMember ..).symm.trans hi)
      subst hi
      rw [step_newFormatter_shared hmap (h.names c hc)]
      exact ⟨rfl, h.addMember name m⟩
  | _ => exact absurd rfl hm

/-! ### Steps of one session

The same four changes, now to some other cache of the first session.  Nothing that works on the
mirrored cache sees them. -/

/-- Another cache is written to. -/
theorem setCache_left (h : Mirrors s t i j) (hk : k ≠ i) (c : Cache) :
    Mirrors (s.setCache k c) t i j where
  cache := by rw [cache_setCache_of_ne hk, h.cache]
  made := by simpa [Session.setCache] using h.made
  members := h.members
  names := h.names
  unknown := h.unknown

/-- Another cache is made. -/
theorem addCache_left (h : Mirrors s t i j) (hi : s.caches.length ≠ i) :
    Mirrors s.addCache.2 t i j where
  cache := by rw [cache_addCache, h.cache]
  made := by
    have := h.made
    simp only [Session.addCache, List.length_append, List.length_singleton]
    omega
  members := h.members
  names := h.names
  unknown := h.unknown

theorem addName_left (h : Mirrors s t i j) (hk : k ≠ i) (name : Text) :
    Mirrors { s with cacheNames := (name, k) :: s.cacheNames } t i j where
  cache := h.cache
  made := h.made
  members := h.members
  names name' hn := by
    rw [find?_cons] at hn
    split at hn
    · exact absurd (Option.some.inj hn) hk
    · exact h.names name' hn
  unknown name' hn := by
    rw [find?_cons] at hn
    split at hn
    · cases hn
    · exact h.unknown name' hn

theorem addMember_left (h : Mirrors s t i j) (hk : k ≠ i) (name : Text) (m : FormatMap) :
    Mirrors (s.addMember name m k) t i j where
  cache := h.cache
  made := h.made
  members name' m' hm hi := by
    rw [Session.addMember, find?_cons] at hm
    split at hm
    · cases hm
      exact absurd hi hk
    · exact h.members name' m' hm hi
  names := h.names
  unknown := h.unknown

/-- **An operation on something else is not noticed.** -/
theorem step_left [Nesting] (h : Mirrors s t i j) {step : Step}
    (hi : (s.step step).2.number? step.subject ≠ some i) : Mirrors (s.step step).2 t i j := by
  by_cases hm : step.makes = false
  · rcases hr : s.request? step with _ | ⟨k, r⟩
    · rwa [step_of_makes_eq_false hm hr]
    · have hk : s.number? step.subject = some k := by
        rw [number?_subject hm, hr, Option.map_some]
      rw [step_of_request? hr] at hi ⊢
      exact h.setCache_left (fun hki => hi (hki ▸ hk)) _
  cases step with
  | newCache name =>
    have hi : s.caches.length ≠ i := fun he => hi (he ▸ number?_newCache s name)
    exact (h.addCache_left hi).addName_left hi name
  | newFormatter name cache map =>
    rcases hmap : FormatMap.ofValue map with e | m
    · rwa [step_newFormatter_error hmap]
    rcases cache with _ | c
    · rw [step_newFormatter_own hmap] at hi ⊢
      have hi : s.caches.length ≠ i := fun he => hi (he ▸ number?_addMember ..)
      exact (h.addCache_left hi).addMember_left hi name m
    rcases hc : find? c s.cacheNames with _ | k
    · rwa [step_newFormatter_unknown hmap hc]
    · rw [step_newFormatter_shared hmap hc] at hi ⊢
      have hi : k ≠ i := fun he => hi (he ▸ number?_addMember ..)
      exact h.addMember_left hi name m
  | _ => exact absurd rfl hm

/-- **The excerpt of a run is the run of the excerpt.** -/
theorem run_map_excerpt [Nesting] (h : Mirrors s t i j) (hs : s.Valid) (steps : List Step) :
    run t ((excerpt i s steps).map Prod.fst) = (excerpt i s steps).map Prod.snd := by
  induction steps generalizing s t with
  | nil => rfl
  | cons step steps ih =>
    rw [excerpt_cons]
    by_cases hi : (s.step step).2.number? step.subject = some i
    · obtain ⟨hanswer, h⟩ := h.step hs hi
      have hshown : (t.step step).2.cacheOf? step.subject =
          (s.step step).2.cacheOf? step.subject := by
        rw [cacheOf?_of_number? hi, cacheOf?_of_number? (h.number? hi), h.cache]
      rw [if_pos hi, List.map_cons, List.map_cons, run_cons, ih h (hs.step step), hanswer, hshown]
    · rw [if_neg hi]
      exact ih (h.step_left hi) (hs.step step)

end Mirrors

/-! ## Formatters that are given a cache

A name stands for the formatter that was made under it last.  So an operation through this name goes
to the cache that was given then. -/

/-- A formatter that is made with a cache has the number of this cache. -/
theorem number?_newFormatter [Nesting] {cache : Text} (hc : find? cache s.cacheNames = some i)
    {map : Value} {m : FormatMap} (hm : FormatMap.ofValue map = .ok m) (name : Text) :
    (s.step (.newFormatter name (some cache) map)).2.number? (.formatter name) = some i := by
  rw [step_newFormatter_shared hm hc]
  exact number?_addMember ..

/-- A formatter stays with its cache as long as its name is not given again. -/
theorem number?_step [Nesting] {step : Step} {name : Text}
    (h : ∀ cache map, step ≠ .newFormatter name cache map) :
    (s.step step).2.number? (.formatter name) = s.number? (.formatter name) := by
  by_cases hm : step.makes = false
  · rcases hr : s.request? step with _ | ⟨k, r⟩
    · rw [step_of_makes_eq_false hm hr]
    · rw [step_of_request? hr]
      rfl
  cases step with
  | newCache name' => rfl
  | newFormatter name' cache map =>
    have hname : name' ≠ name := by
      rintro rfl
      exact h cache map rfl
    rcases hmap : FormatMap.ofValue map with e | m
    · rw [step_newFormatter_error hmap]
    rcases cache with _ | c
    · rw [step_newFormatter_own hmap]
      exact number?_addMember_of_ne hname ..
    rcases hc : find? c s.cacheNames with _ | k
    · rw [step_newFormatter_unknown hmap hc]
    · rw [step_newFormatter_shared hmap hc]
      exact number?_addMember_of_ne hname ..
  | _ => exact absurd rfl hm

theorem number?_after [Nesting] {steps : List Step} {name : Text}
    (h : ∀ cache map, .newFormatter name cache map ∉ steps) :
    (s.after steps).number? (.formatter name) = s.number? (.formatter name) := by
  induction steps generalizing s with
  | nil => rfl
  | cons step steps ih =>
    have hstep : ∀ cache map, step ≠ .newFormatter name cache map := by
      rintro cache map rfl
      exact h cache map List.mem_cons_self
    exact (ih fun cache map hmem => h cache map (List.mem_cons_of_mem step hmem)).trans
      (number?_step hstep)

/-- The formatter that a run leaves under a name was given the cache with number `i` when it was
made. -/
def Given [Nesting] (i : Nat) (name : Text) (steps : List Step) : Prop :=
  ∃ before cache map m later, steps = before ++ .newFormatter name (some cache) map :: later ∧
    find? cache (start.after before).cacheNames = some i ∧ FormatMap.ofValue map = .ok m ∧
    ∀ cache' map', .newFormatter name cache' map' ∉ later

theorem Given.number? [Nesting] {name : Text} {steps : List Step} (h : Given i name steps) :
    (start.after steps).number? (.formatter name) = some i := by
  obtain ⟨before, cache, map, m, later, rfl, hc, hm, hlater⟩ := h
  rw [after, List.foldl_append, List.foldl_cons]
  exact (number?_after hlater).trans (number?_newFormatter hc hm name)

/-- **Caches do not disturb each other.**  What a run shows of the operations on one cache is what
these operations show when they are run alone, and all formatters that were given this cache show
it as it is at the end of the run. -/
theorem run_excerpt [Nesting] (steps : List Step) (i : Nat) :
    run start ((excerpt i start steps).map Prod.fst) = (excerpt i start steps).map Prod.snd ∧
      ∀ name, Given i name steps →
        (start.after steps).cacheOf? (.formatter name) = some ((start.after steps).cache i) := by
  obtain ⟨j, h⟩ := exists_mirrors_start i
  exact ⟨h.run_map_excerpt valid_start steps, fun name hname => cacheOf?_of_number? hname.number?⟩

/-- Two formatters are given a cache that is empty at that time and comes after that of a third one.
What they do between the operations of the third is the same without them, and what one of them
enters is there for the other. -/
theorem run_excerpt_shared :
    let template : Text := "%b$s".toList
    let alone : List Step :=
      [.newCache ['c'], .newFormatter ['f'] (some ['c']) .null,
        .newFormatter ['g'] (some ['c']) (.list [.text ['b']]), .compile ['g'] template .null,
        .isCompiled ['f'] template]
    let steps : List Step :=
      [.newFormatter ['p'] none .null, .newCache ['c'], .newFormatter ['f'] (some ['c']) .null,
        .newFormatter ['g'] (some ['c']) (.list [.text ['b']]), .compile ['p'] ['%'] .null,
        .compile ['g'] template .null, .clearCache ['p'], .isCompiled ['f'] template]
    run start alone = (excerpt 2 start steps).map Prod.snd ∧
      Given 2 ['f'] steps ∧ Given 2 ['g'] steps ∧
      (start.after steps).cacheOf? (.formatter ['f']) =
        some ⟨[(template, "%1$s".toList)], 0, 1⟩ ∧
      (start.after steps).cacheOf? (.formatter ['g']) =
        some ⟨[(template, "%1$s".toList)], 0, 1⟩ := by
  intro template alone steps
  have hf : Given 2 ['f'] steps :=
    ⟨steps.take 2, ['c'], .null, .standard, steps.drop 3, rfl, rfl, rfl, by simp [steps]⟩
  have hg : Given 2 ['g'] steps :=
    ⟨steps.take 3, ['c'], .list [.text ['b']], .names [['b']], steps.drop 4, rfl, rfl, rfl,
      by simp [steps]⟩
  have hcache : (start.after steps).cache 2 = ⟨[(template, "%1$s".toList)], 0, 1⟩ := by
    decide +kernel
  obtain ⟨hrun, hgiven⟩ := run_excerpt steps 2
  exact ⟨hrun, hf, hg, hcache ▸ hgiven ['f'] hf, hcache ▸ hgiven ['g'] hg⟩

end Session
end Stencil
