/-! # Blanks

Which characters separate words, and texts cut at them.
-/

namespace Chip8.Text

/-- White space beyond the basic set. -/
def isWideBlank (c : Char) : Bool :=
  c.toNat = 0x85 || c.toNat = 0xA0 || c.toNat = 0x1680 || (0x2000 ≤ c.toNat && c.toNat ≤ 0x200A)
    || c.toNat = 0x2028 || c.toNat = 0x2029 || c.toNat = 0x202F || c.toNat = 0x205F
    || c.toNat = 0x3000

/-- The blank and the controls that move the print position. -/
def isPlainBlank (c : Char) : Bool := (0x09 ≤ c.toNat && c.toNat ≤ 0x0D) || c.toNat = 0x20

/-- White space: the plain blanks, the four information separators and the wide blanks. -/
def isBlank (c : Char) : Bool :=
  isPlainBlank c || (0x1C ≤ c.toNat && c.toNat ≤ 0x1F) || isWideBlank c

/-- A text without the characters of a class at both ends. -/
def trimWith (p : Char → Bool) (cs : List Char) : List Char :=
  ((cs.dropWhile p).reverse.dropWhile p).reverse

/-- A text without white space at both ends. -/
def strip (cs : List Char) : List Char := trimWith isBlank cs

/-- The words of a text: its longest runs without white space. -/
def words (cs : List Char) : List (List Char) := (cs.splitOnP isBlank).filter (· ≠ [])

end Chip8.Text
