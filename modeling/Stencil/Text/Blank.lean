import Stencil.Text.Basic

/-!
# White space

Numbers may stand between blanks.  `isBlank` is the Unicode white space together with the four
information separators; `isSpacing` leaves the separators out, and `isAsciiSpacing` keeps only the
six ASCII blanks, for numbers that arrive as bytes.
-/

set_option autoImplicit false

namespace Stencil
namespace Text

/-- The six blanks of ASCII. -/
def isAsciiSpacing (c : Char) : Bool := c = ' ' || (9 ≤ c.toNat && c.toNat ≤ 13)

/-- Unicode white space without the information separators. -/
def isSpacing (c : Char) : Bool :=
  isAsciiSpacing c ||
    [0x85, 0xA0, 0x1680, 0x2028, 0x2029, 0x202F, 0x205F, 0x3000].contains c.toNat ||
    (0x2000 ≤ c.toNat && c.toNat ≤ 0x200A)

/-- Unicode white space, the information separators U+001C to U+001F included. -/
def isBlank (c : Char) : Bool := isSpacing c || (0x1C ≤ c.toNat && c.toNat ≤ 0x1F)

/-- A text without the passing characters at its two ends. -/
def trimWhere (p : Char → Bool) (s : Text) : Text :=
  ((s.dropWhile p).reverse.dropWhile p).reverse

/-- A text without the blanks at its two ends. -/
def trim (s : Text) : Text := trimWhere isBlank s

end Text
end Stencil
