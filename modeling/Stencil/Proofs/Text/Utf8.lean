import Stencil.Text.Utf8

/-!
# UTF-8 read back

A text that is encoded as UTF-8 is decoded as itself (`Utf8.decode_encode`): the first byte of a
character announces how many follow, each of them is within the bounds that the first one sets, and
their bits together are the code point.
-/

set_option autoImplicit false

namespace Stencil
namespace Utf8

/-! ## Bytes that follow

A byte that is within its bounds adds six bits to what was read before. -/

/-- The bytes of a text. -/
def encode (s : Text) : List UInt8 := s.flatMap String.utf8EncodeChar

/-- One more byte is taken, and the bounds of those after it are the usual ones. -/
theorem follow_succ {more low high bits b : Nat} (hlow : low ≤ b) (hhigh : b ≤ high)
    (bs : List Nat) :
    follow (more + 1) low high bits (b :: bs) =
      follow more 0x80 0xBF (bits * 64 + b % 64) bs := by
  rw [follow, if_pos ⟨hlow, hhigh⟩]

theorem first_of_lead? {b : Nat} (hb : 0x80 ≤ b) {l : Lead} (h : lead? b = some l)
    (bs : List Nat) : first b bs = follow l.more l.low l.high l.bits bs := by
  rw [first, if_neg (Nat.not_lt.2 hb), h]

/-! ## First bytes

The bounds on the second byte are where encodings that must not be used are refused.  The encoding
of a character never is one of these. -/

/-- The first of two bytes allows every byte of a character after it. -/
theorem lead?_two {n : Nat} (h : 0x80 ≤ n) (h' : n < 0x800) :
    ∃ low high, lead? (n / 64 + 192) = some ⟨n / 64, 1, low, high⟩ ∧
      low ≤ n % 64 + 128 ∧ n % 64 + 128 ≤ high := by
  have hbits : (n / 64 + 192) % 32 = n / 64 := by omega
  refine ⟨0x80, 0xBF, ?_, by omega, by omega⟩
  rw [lead?, if_pos (by omega), hbits]

/-- The first of three bytes sets bounds that rule out overlong forms and surrogates. -/
theorem lead?_three {n : Nat} (h : 0x800 ≤ n) (h' : n < 0x10000) (hs : n < 0xD800 ∨ 0xDFFF < n) :
    ∃ low high, lead? (n / 4096 + 224) = some ⟨n / 4096, 2, low, high⟩ ∧
      low ≤ n / 64 % 64 + 128 ∧ n / 64 % 64 + 128 ≤ high := by
  have hbits : (n / 4096 + 224) % 16 = n / 4096 := by omega
  rw [lead?, if_neg (by omega)]
  by_cases h0 : n / 4096 = 0
  · refine ⟨0xA0, 0xBF, ?_, by omega, by omega⟩
    rw [if_pos (by omega), h0]
  · rw [if_neg (by omega)]
    by_cases hd : n / 4096 = 13
    · refine ⟨0x80, 0x9F, ?_, by omega, by omega⟩
      rw [if_pos (by omega), hd]
    · refine ⟨0x80, 0xBF, ?_, by omega, by omega⟩
      rw [if_neg (by omega), if_pos (by omega), hbits]

/-- The first of four bytes sets bounds that rule out overlong forms and numbers that are too
large. -/
theorem lead?_four {n : Nat} (h : 0x10000 ≤ n) (h' : n < 0x110000) :
    ∃ low high, lead? (n / 262144 + 240) = some ⟨n / 262144, 3, low, high⟩ ∧
      low ≤ n / 4096 % 64 + 128 ∧ n / 4096 % 64 + 128 ≤ high := by
  have hbits : (n / 262144 + 240) % 8 = n / 262144 := by omega
  rw [lead?, if_neg (by omega), if_neg (by omega), if_neg (by omega), if_neg (by omega)]
  by_cases h0 : n / 262144 = 0
  · refine ⟨0x90, 0xBF, ?_, by omega, by omega⟩
    rw [if_pos (by omega), h0]
  · rw [if_neg (by omega)]
    by_cases h4 : n / 262144 = 4
    · refine ⟨0x80, 0x8F, ?_, by omega, by omega⟩
      rw [if_pos (by omega), h4]
    · refine ⟨0x80, 0xBF, ?_, by omega, by omega⟩
      rw [if_neg (by omega), if_pos (by omega), hbits]

/-! ## Characters

The code point is divided by powers of 64, and putting the remainders together again gives it back.
-/

/-- The bytes of a character as numbers. -/
def codes (n : Nat) : List Nat :=
  if n ≤ 0x7F then [n]
  else if n ≤ 0x7FF then [n / 64 + 192, n % 64 + 128]
  else if n ≤ 0xFFFF then [n / 4096 + 224, n / 64 % 64 + 128, n % 64 + 128]
  else [n / 262144 + 240, n / 4096 % 64 + 128, n / 64 % 64 + 128, n % 64 + 128]

theorem map_toNat_utf8EncodeChar (c : Char) :
    (String.utf8EncodeChar c).map UInt8.toNat = codes c.toNat := by
  have hvalid : c.toNat < 0xD800 ∨ 0xDFFF < c.toNat ∧ c.toNat < 0x110000 := c.valid
  have hbyte {k : Nat} (hk : k < 256) : (UInt8.ofNat k).toNat = k := UInt8.toNat_ofNat_of_lt hk
  have hval : c.val.toNat = c.toNat := rfl
  rw [String.utf8EncodeChar, codes, hval]
  generalize c.toNat = n at hvalid ⊢
  split
  · rw [List.map_cons, hbyte (by omega), List.map_nil]
  · split
    · simp only [List.map_cons, List.map_nil]
      rw [hbyte (by omega), hbyte (by omega), Nat.mod_eq_of_lt (by omega)]
    · split
      · simp only [List.map_cons, List.map_nil]
        rw [hbyte (by omega), hbyte (by omega), hbyte (by omega), Nat.mod_eq_of_lt (by omega)]
      · simp only [List.map_cons, List.map_nil]
        rw [hbyte (by omega), hbyte (by omega), hbyte (by omega), hbyte (by omega),
          Nat.mod_eq_of_lt (by omega)]

/-- The bytes of a code point are taken off as this code point, whatever bytes follow. -/
theorem exists_first_codes_append {n : Nat} (hn : n < 0xD800 ∨ 0xDFFF < n ∧ n < 0x110000)
    (bs : List Nat) : ∃ b t, codes n ++ bs = b :: t ∧ first b t = (Char.ofNat n, bs) := by
  rw [codes]
  split
  · refine ⟨n, bs, rfl, ?_⟩
    rw [first, if_pos (by omega)]
  · split
    · have hjoin : n / 64 * 64 + (n % 64 + 128) % 64 = n := by omega
      obtain ⟨low, high, hlead, hlow, hhigh⟩ := lead?_two (n := n) (by omega) (by omega)
      refine ⟨n / 64 + 192, (n % 64 + 128) :: bs, rfl, ?_⟩
      rw [first_of_lead? (by omega) hlead, follow_succ hlow hhigh, hjoin, follow]
    · split
      · have hjoin : (n / 4096 * 64 + (n / 64 % 64 + 128) % 64) * 64 + (n % 64 + 128) % 64 = n := by
          omega
        obtain ⟨low, high, hlead, hlow, hhigh⟩ :=
          lead?_three (n := n) (by omega) (by omega) (by omega)
        refine ⟨n / 4096 + 224, (n / 64 % 64 + 128) :: (n % 64 + 128) :: bs, rfl, ?_⟩
        rw [first_of_lead? (by omega) hlead, follow_succ hlow hhigh,
          follow_succ (by omega) (by omega), hjoin, follow]
      · have hjoin : ((n / 262144 * 64 + (n / 4096 % 64 + 128) % 64) * 64 +
            (n / 64 % 64 + 128) % 64) * 64 + (n % 64 + 128) % 64 = n := by
          omega
        obtain ⟨low, high, hlead, hlow, hhigh⟩ := lead?_four (n := n) (by omega) (by omega)
        refine ⟨n / 262144 + 240,
          (n / 4096 % 64 + 128) :: (n / 64 % 64 + 128) :: (n % 64 + 128) :: bs, rfl, ?_⟩
        rw [first_of_lead? (by omega) hlead, follow_succ hlow hhigh,
          follow_succ (by omega) (by omega), follow_succ (by omega) (by omega), hjoin, follow]

/-- The bytes of a character are read as this character, whatever bytes follow. -/
theorem decodeCodes_codes_append (c : Char) (bs : List Nat) :
    decodeCodes (codes c.toNat ++ bs) = c :: decodeCodes bs := by
  have hvalid : c.toNat < 0xD800 ∨ 0xDFFF < c.toNat ∧ c.toNat < 0x110000 := c.valid
  obtain ⟨b, t, hbt, hfirst⟩ := exists_first_codes_append hvalid bs
  rw [hbt, decodeCodes, hfirst, Char.ofNat_toNat]

/-- **A text is read back from its bytes.** -/
@[simp] theorem decode_encode (s : Text) : decode (encode s) = s := by
  rw [decode]
  induction s with
  | nil => rw [encode, List.flatMap_nil, List.map_nil, decodeCodes]
  | cons c s ih =>
    rw [encode, List.flatMap_cons, List.map_append, map_toNat_utf8EncodeChar,
      decodeCodes_codes_append]
    exact congrArg (c :: ·) ih

end Utf8
end Stencil
