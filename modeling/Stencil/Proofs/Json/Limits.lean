import Stencil.Proofs.Json.ReadBack

/-!
# Limits of reading JSON

Two of the problems of a JSON text are not about its grammar: an integer may have more digits than
can be read, and arrays and objects may be nested deeper than can be followed.  The reader goes
through a text from left to right and never looks back, so whatever it has left is an end of the
text, and what it stumbles over stands in the text: the digits in a row
(`Json.hasLongRun_of_read`), or an opening bracket for each level and one more
(`Json.readLimit_lt_openings_of_read`).

This first argument is one statement about a single reading (`Tracks`), kept by each way in which
readings are put together.  It does not say that a text with many digits or many brackets cannot be
read, as they may stand in strings or, brackets, side by side.  The simplest texts that cannot be
read are an integer that is the whole text (`Json.read_eq_error_of_long`), and brackets one after
the other with any text behind them (`Json.read_eq_error_of_deep`).
-/

set_option autoImplicit false

namespace Stencil
namespace Json

open Nesting

variable {levels : Nat}

/-! ## What is counted

Both are counted in the text alone, without a reader: digits that stand in a row, and brackets that
open something.  A part of a text has no more of either than the text. -/

/-- More digits stand in the text one after the other than can be read. -/
def HasLongRun (s : Text) : Prop :=
  ∃ ds, ds <:+: s ∧ (∀ c ∈ ds, c.isDigit) ∧ Numeral.digitLimit < ds.length

theorem HasLongRun.mono {s t : Text} (h : HasLongRun t) (ht : t <:+: s) : HasLongRun s := by
  obtain ⟨ds, hds, hd, hl⟩ := h
  exact ⟨ds, hds.trans ht, hd, hl⟩

/-- The brackets that open an array or an object. -/
def isOpening (c : Char) : Bool := c = '[' || c = '\x7b'

/-- How many such brackets stand in the text. -/
def openings (s : Text) : Nat := s.countP isOpening

theorem openings_mono {s t : Text} (h : t <:+ s) : openings t ≤ openings s :=
  h.sublist.countP_le

/-! ## What a single reading leaves

A reading that is continued starts from an end of the text, and what is found in an end of the text
is found in the text.  A level is used up with a bracket, and the rest of the text has one bracket
less, so that the counts stay in step. -/

/-- A reading leaves an end of its text, meets a number that is too long only where there is one,
and a nesting that is too deep only where there are enough brackets for it. -/
structure Tracks {α : Type} (levels : Nat) (s : Text) (r : Except Problem (α × Text)) : Prop where
  suffix : ∀ v rest, r = .ok (v, rest) → rest <:+ s
  long : r = .error .numeralTooLong → HasLongRun s
  deep : r = .error .tooDeep → levels < openings s

namespace Tracks

variable {α β : Type} {s t : Text} {r : Except Problem (α × Text)}

theorem ok {rest : Text} (v : α) (h : rest <:+ s) : Tracks levels s (.ok (v, rest)) where
  suffix := by
    rintro v' rest' ⟨⟩
    exact h
  long := nofun
  deep := nofun

/-- Most problems have nothing to do with a limit. -/
theorem error {p : Problem} (h : p ∉ [.numeralTooLong, .tooDeep]) :
    Tracks levels s (.error p : Except _ (α × Text)) where
  suffix := nofun
  long := by
    rintro ⟨⟩
    exact absurd h (by decide)
  deep := by
    rintro ⟨⟩
    exact absurd h (by decide)

theorem tooLong (h : HasLongRun s) :
    Tracks levels s (.error .numeralTooLong : Except _ (α × Text)) where
  suffix := nofun
  long _ := h
  deep := nofun

/-- What holds of reading an end of the text holds of reading the text. -/
theorem of_suffix (h : Tracks levels t r) (ht : t <:+ s) : Tracks levels s r where
  suffix v rest hr := (h.suffix v rest hr).trans ht
  long hr := (h.long hr).mono ht.isInfix
  deep hr := Nat.lt_of_lt_of_le (h.deep hr) (openings_mono ht)

/-- Behind an opening bracket there is one level less. -/
theorem enter {f : Nat → Except Problem (α × Text)} {c : Char} (hc : isOpening c)
    (h : ∀ n, Tracks n s (f n)) : Tracks levels (c :: s) (enter .tooDeep levels f) := by
  have hopen : openings (c :: s) = openings s + 1 := List.countP_cons_of_pos hc
  cases levels with
  | zero => exact ⟨nofun, nofun, fun _ => by omega⟩
  | succ n =>
    have hs := (h n).of_suffix (List.suffix_cons c s)
    refine ⟨hs.suffix, hs.long, fun hr => ?_⟩
    have := (h n).deep hr
    omega

/-- A reading fails, and is not continued, or it leaves an end of its text. -/
theorem cases (h : Tracks levels s r) :
    (∃ p, r = .error p ∧ Tracks levels s (.error p : Except _ (β × Text))) ∨
      ∃ v rest, r = .ok (v, rest) ∧ rest <:+ s := by
  rcases r with p | ⟨v, rest⟩
  · refine .inl ⟨p, rfl, nofun, fun hp => h.long ?_, fun hp => h.deep ?_⟩
    · cases hp
      rfl
    · cases hp
      rfl
  · exact .inr ⟨v, rest, rfl, h.suffix v rest rfl⟩

theorem map (h : Tracks levels s r) (g : α → β) :
    Tracks levels s (r.map fun x => (g x.1, x.2)) := by
  rcases h.cases with ⟨p, hr, hp⟩ | ⟨v, rest, hr, hrest⟩
  · rw [hr]
    exact hp
  · rw [hr]
    exact .ok _ hrest

end Tracks

theorem skipBlanks_suffix (s : Text) : skipBlanks s <:+ s := List.dropWhile_suffix isBlank

/-! ## Strings

Inside of a string neither digits nor brackets mean anything, and no problem there has to do with a
limit. -/

theorem tracks_before {s : Text} (n : Nat) {r : Except Problem (List Nat × Text)}
    (h : Tracks levels s r) : Tracks levels s (before n r) := h.map (consCode n)

theorem tracks_readCodes (s : Text) : Tracks levels s (readCodes s) := by
  fun_induction readCodes s with
  | case1 | case2 | case3 | case4 | case6 | case7 | case10 => exact .error (by decide)
  | case5 a b c d rest _ n _ ih =>
    exact (tracks_before n ih).of_suffix (List.suffix_append ['\\', 'u', a, b, c, d] rest)
  | case8 c rest _ _ e _ ih =>
    exact (tracks_before e.toNat ih).of_suffix (List.suffix_append ['\\', c] rest)
  | case9 rest => exact .ok [] (List.suffix_cons _ rest)
  | case11 c rest _ _ _ _ _ ih =>
    exact (tracks_before c.toNat ih).of_suffix (List.suffix_cons c rest)

theorem tracks_readString (s : Text) : Tracks levels s (readString s) :=
  (tracks_readCodes s).map fun codes => codes.map Char.ofNat

/-! ## Numbers and names

The only place where digits are counted is the whole part of an integer, and all of them stand in
the text one after the other. -/

theorem asciiDigits_suffix (s : Text) : (asciiDigits s).2 <:+ s :=
  List.dropWhile_suffix Char.isDigit

theorem fraction_suffix (s : Text) : (fraction s).2 <:+ s := by
  unfold fraction
  split
  · rename_i t
    split
    · exact List.suffix_refl _
    · rename_i ds rest _ h
      have ht := asciiDigits_suffix t
      rw [h] at ht
      exact ht.trans (List.suffix_cons _ t)
  · exact List.suffix_refl _

theorem exponentSign_suffix (s : Text) : (exponentSign s).2 <:+ s := by
  unfold exponentSign
  split
  · exact List.suffix_cons _ _
  · exact List.suffix_cons _ _
  · exact List.suffix_refl _

theorem exponent_suffix (s : Text) : (exponent s).2 <:+ s := by
  unfold exponent
  split
  · rename_i c t
    split
    · split
      · exact List.suffix_refl _
      · rename_i ds rest _ h
        have ht := asciiDigits_suffix (exponentSign t).2
        rw [h] at ht
        exact (ht.trans (exponentSign_suffix t)).trans (List.suffix_cons c t)
    · exact List.suffix_refl _
  · exact List.suffix_refl _

/-- The whole part of a number is digits, and the text begins with it. -/
theorem eq_append_of_whole? {s ds rest : Text} (h : whole? s = some (ds, rest)) :
    s = ds ++ rest ∧ ∀ c ∈ ds, c.isDigit := by
  unfold whole? at h
  split at h
  · cases h
    exact ⟨rfl, by simp⟩
  · split at h
    · cases h
    · rename_i ds' rest' _ hd
      cases h
      have hs : (asciiDigits s).1 ++ (asciiDigits s).2 = s := Text.run_append Char.isDigit s
      rw [hd] at hs
      exact ⟨hs.symm, Text.forall_mem_of_run hd⟩

theorem tracks_readNumber (negative : Bool) (s : Text) :
    Tracks levels s (readNumber negative s) := by
  rw [readNumber]
  split
  · exact .error (by decide)
  · rename_i ds t hw
    obtain ⟨rfl, hd⟩ := eq_append_of_whole? hw
    have ht : t <:+ ds ++ t := List.suffix_append ds t
    dsimp only
    split
    · rw [Numeral.limited]
      by_cases hl : (ds.filterMap (Numeral.baseDigit? 10)).length ≤ Numeral.digitLimit
      · rw [if_pos hl]
        exact .ok _ ht
      · rw [if_neg hl]
        have hlong : Numeral.digitLimit < ds.length :=
          Nat.lt_of_lt_of_le (Nat.not_le.1 hl) (List.length_filterMap_le _ ds)
        exact .tooLong ⟨ds, (List.prefix_append ds t).isInfix, hd, hlong⟩
    · exact .ok _ (((exponent_suffix _).trans (fraction_suffix t)).trans ht)

theorem tracks_readScalar (s : Text) : Tracks levels s (readScalar s) := by
  rw [readScalar.eq_def]
  split
  · rename_i r hr
    obtain ⟨n, -, hn⟩ := List.exists_of_findSome?_eq_some hr
    obtain ⟨rest, hrest, rfl⟩ := Option.map_eq_some_iff.1 hn
    rw [Text.after?_eq_some_iff.1 hrest]
    exact .ok _ (List.suffix_append n.1 rest)
  · split
    · exact (tracks_readNumber true _).of_suffix (List.suffix_cons _ _)
    · exact tracks_readNumber false _

/-! ## Values

Elements, members and values are read by each other, so the three are one induction on the fuel. Its
steps are stated apart, each with what it uses of the others as a hypothesis. -/

/-- What follows the first character after white space is an end of the text. -/
theorem suffix_of_skipBlanks {s t rest : Text} {c : Char} (h : skipBlanks t = c :: rest)
    (ht : t <:+ s) : rest <:+ s := by
  have hrest : rest <:+ skipBlanks t := h ▸ List.suffix_cons c rest
  exact (hrest.trans (skipBlanks_suffix t)).trans ht

/-- A list of elements, when values and shorter lists are read so. -/
theorem tracks_readElements {fuel : Nat} (hv : ∀ s, Tracks levels s (readValue fuel levels s))
    (hes : ∀ s, Tracks levels s (readElements fuel levels s)) (s : Text) :
    Tracks levels s (readElements (fuel + 1) levels s) := by
  rw [readElements]
  rcases (hv s).cases with ⟨p, hr, hp⟩ | ⟨v, t, hr, ht⟩
  · rw [hr]
    exact hp
  · rw [hr]
    dsimp only
    split
    · exact .ok [v] (suffix_of_skipBlanks ‹_› ht)
    · rename_i u hu
      exact ((hes (skipBlanks u)).map (v :: ·)).of_suffix
        ((skipBlanks_suffix u).trans (suffix_of_skipBlanks hu ht))
    · exact .error (by decide)

/-- A list of members, when values and shorter lists are read so. -/
theorem tracks_readMembers {fuel : Nat} (hv : ∀ s, Tracks levels s (readValue fuel levels s))
    (hms : ∀ s, Tracks levels s (readMembers fuel levels s)) (s : Text) :
    Tracks levels s (readMembers (fuel + 1) levels s) := by
  -- what is left is always a suffix: after the name, after the value, and after the other members
  rcases s with _ | ⟨c, s⟩
  · exact .error (by decide)
  · have hs : s <:+ c :: s := List.suffix_cons c s
    rw [readMembers]
    split
    · rcases (tracks_readString s).cases with ⟨p, hr, hp⟩ | ⟨name, t, hr, ht⟩
      · rw [hr]
        exact hp.of_suffix hs
      · rw [hr]
        dsimp only
        split
        · rename_i u hu
          have hus := (skipBlanks_suffix u).trans (suffix_of_skipBlanks hu ht)
          rcases (hv (skipBlanks u)).cases with ⟨p, hr, hp⟩ | ⟨v, w, hr, hw⟩
          · rw [hr]
            exact hp.of_suffix (hus.trans hs)
          · rw [hr]
            have hws := hw.trans (hus.trans hs)
            dsimp only
            split
            · exact .ok [(name, v)] (suffix_of_skipBlanks ‹_› hws)
            · rename_i x hx
              exact ((hms (skipBlanks x)).map ((name, v) :: ·)).of_suffix
                ((skipBlanks_suffix x).trans (suffix_of_skipBlanks hx hws))
            · exact .error (by decide)
        · exact .error (by decide)
    · exact .error (by decide)

/-- A value, when elements and members are read so. -/
theorem tracks_readValue {fuel : Nat} (hes : ∀ n s, Tracks n s (readElements fuel n s))
    (hms : ∀ n s, Tracks n s (readMembers fuel n s)) (s : Text) :
    Tracks levels s (readValue (fuel + 1) levels s) := by
  rcases s with _ | ⟨c, s⟩
  · exact .error (by decide)
  · have hskip := skipBlanks_suffix s
    rw [readValue]
    split
    · exact ((tracks_readString s).map Value.text).of_suffix (List.suffix_cons c s)
    · split
      · rename_i hc
        refine .enter (by rw [hc]; rfl) fun n => ?_
        split
        · exact .ok _ (suffix_of_skipBlanks ‹_› (List.suffix_refl s))
        · exact ((hms n (skipBlanks s)).map ofMembers).of_suffix hskip
      · split
        · rename_i hc
          refine .enter (by rw [hc]; rfl) fun n => ?_
          split
          · exact .ok _ (suffix_of_skipBlanks ‹_› (List.suffix_refl s))
          · exact ((hes n (skipBlanks s)).map Value.list).of_suffix hskip
        · exact tracks_readScalar _

theorem tracks_read (fuel : Nat) :
    (∀ n s, Tracks n s (readValue fuel n s)) ∧ (∀ n s, Tracks n s (readElements fuel n s)) ∧
      ∀ n s, Tracks n s (readMembers fuel n s) := by
  induction fuel with
  | zero =>
    exact ⟨fun _ _ => .error (by decide), fun _ _ => .error (by decide),
      fun _ _ => .error (by decide)⟩
  | succ fuel ih =>
    obtain ⟨hv, hes, hms⟩ := ih
    exact ⟨fun _ => tracks_readValue hes hms, fun n => tracks_readElements (hv n) (hes n),
      fun n => tracks_readMembers (hv n) (hms n)⟩

/-- What is wrong with a text beyond its grammar was met in a reading of one value. -/
theorem readValue_eq_error_of_read [Nesting] {s : Text} {p : Problem} (h : read s = .error p)
    (hp : p ∈ [.numeralTooLong, .tooDeep]) :
    readValue (2 * s.length + 2) readLimit (skipBlanks s) = .error p := by
  rw [read] at h
  split at h
  · cases h
    exact absurd hp (by decide)
  · cases hr : readValue (2 * s.length + 2) readLimit (skipBlanks s) with
    | error q =>
      rw [hr] at h
      cases h
      rfl
    | ok r =>
      rw [hr] at h
      dsimp only at h
      split at h
      · cases h
      · cases h
        exact absurd hp (by decide)

/-- **A text in which an integer is too long has that many digits in a row.** -/
theorem hasLongRun_of_read [Nesting] {s : Text} (h : read s = .error .numeralTooLong) :
    HasLongRun s := by
  have ht := (tracks_read (2 * s.length + 2)).1 readLimit (skipBlanks s)
  have hr := readValue_eq_error_of_read h (by decide)
  exact (ht.long hr).mono (skipBlanks_suffix s).isInfix

/-- **A text that is nested too deep has more opening brackets than there are levels.** -/
theorem readLimit_lt_openings_of_read [Nesting] {s : Text} (h : read s = .error .tooDeep) :
    readLimit < openings s := by
  have ht := (tracks_read (2 * s.length + 2)).1 readLimit (skipBlanks s)
  have hr := readValue_eq_error_of_read h (by decide)
  exact (ht.of_suffix (skipBlanks_suffix s)).deep hr

/-! ## Long integers

A text that is nothing but a number is read as one, since a number with no point and no exponent
behind its digits ends with them. -/

theorem isSome_baseDigit? {c : Char} (h : c.isDigit) : (Numeral.baseDigit? 10 c).isSome := by
  obtain ⟨h0, h9⟩ := Char.isDigit_iff_toNat.1 h
  have hlt : c.toNat - '0'.toNat < 10 := by
    have h9' : '9'.toNat = '0'.toNat + 9 := rfl
    omega
  rw [Numeral.baseDigit?, if_pos h]
  simp only [if_pos hlt, Option.isSome_some]

/-- **An integer with too many digits cannot be read.** -/
theorem read_eq_error_of_long [Nesting] (negative : Bool) {ds : Text} (h : IsWhole ds)
    (hl : Numeral.digitLimit < ds.length) :
    read (Layout.signText negative ++ ds) = .error .numeralTooLong := by
  have hlength : (ds.filterMap (Numeral.baseDigit? 10)).length = ds.length :=
    List.filterMap_length_eq_length.2 fun c hc => isSome_baseDigit? (h.isDigits.2 c hc)
  have hlimited : Numeral.limited (ds.filterMap (Numeral.baseDigit? 10)) =
      .error .numeralTooLong := by
    rw [Numeral.limited, hlength, if_neg (Nat.not_le.2 hl)]
  have hnumber : readNumber negative ds = .error .numeralTooLong := by
    have hends : Ends [] := by simp [Ends]
    obtain ⟨h1, h2, h3⟩ := readNumber_append h .absent .absent hends
    simp only [List.append_nil] at h1 h2 h3
    rw [readNumber, h1]
    simp only [h2, h3, hlimited]
    rfl
  have hstarts := starts_number negative h []
  rw [List.append_nil] at hstarts
  have hmark : (Layout.signText negative ++ ds).head? ≠ some '\uFEFF' := by
    obtain ⟨c, t, ht, hc⟩ := hstarts
    rw [ht]
    rintro ⟨⟩
    exact absurd hc (by decide)
  have hvalue (fuel : Nat) :
      readValue (fuel + 1) readLimit (Layout.signText negative ++ ds) =
        .error .numeralTooLong := by
    have hv : readValue (fuel + 1) readLimit (Layout.signText negative ++ (ds ++ [])) =
        readNumber negative (ds ++ []) := readValue_number negative h
    rwa [List.append_nil, hnumber] at hv
  rw [read, if_neg hmark, hstarts.skipBlanks, hvalue]

/-! ## Deep nestings

That the text is no JSON, or might become wrong later, does not matter: the level runs out before
anything else is looked at. -/

/-- Each bracket takes one level, and what comes after the last of them is not looked at. -/
theorem readValue_brackets (t : Text) {fuel : Nat} (hfuel : 2 * levels + 1 ≤ fuel) :
    readValue fuel levels (List.replicate (levels + 1) '[' ++ t) = .error .tooDeep := by
  induction levels generalizing fuel with
  | zero =>
    obtain ⟨fuel, rfl⟩ : ∃ k, fuel = k + 1 := ⟨fuel - 1, by omega⟩
    rfl
  | succ n ih =>
    obtain ⟨fuel, rfl⟩ : ∃ k, fuel = k + 2 := ⟨fuel - 2, by omega⟩
    have hinner : readValue fuel n (List.replicate (n + 1) '[' ++ t) = .error .tooDeep :=
      ih (by omega)
    rw [List.replicate_succ, List.cons_append] at hinner ⊢
    rw [List.replicate_succ, List.cons_append]
    show (readElements (fuel + 1) n _).map _ = _
    rw [readElements, hinner]
    rfl

/-- **Brackets that open more levels than can be followed are too deep**, whatever text comes after
them. -/
theorem read_eq_error_of_deep [Nesting] (t : Text) :
    read (List.replicate (readLimit + 1) '[' ++ t) = .error .tooDeep := by
  have hmark : (List.replicate (readLimit + 1) '[' ++ t).head? ≠ some '\uFEFF' := by
    rw [List.replicate_succ]
    nofun
  have hskip : skipBlanks (List.replicate (readLimit + 1) '[' ++ t) =
      List.replicate (readLimit + 1) '[' ++ t := by
    rw [List.replicate_succ]
    rfl
  have hfuel : 2 * readLimit + 1 ≤ 2 * (List.replicate (readLimit + 1) '[' ++ t).length + 2 := by
    rw [List.length_append, List.length_replicate]
    omega
  rw [read, if_neg hmark, hskip, readValue_brackets t hfuel]

end Json
end Stencil
