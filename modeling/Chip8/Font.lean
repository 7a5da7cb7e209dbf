import Chip8.Address

/-! # The font

Sixteen glyphs of five bytes, one per hexadecimal digit, stored in memory from `0x050` on. The
bytes of the table are protected: stores into it have no effect.
-/

namespace Chip8

abbrev fontBase : Nat := 0x050

abbrev glyphSize : Nat := 5

/-- The glyphs of the digits `0` to `F`, one row of pixels a byte. -/
def font : List UInt8 :=
  [0xF0, 0x90, 0x90, 0x90, 0xF0,
   0x20, 0x60, 0x20, 0x20, 0x70,
   0xF0, 0x10, 0xF0, 0x80, 0xF0,
   0xF0, 0x10, 0xF0, 0x10, 0xF0,
   0x90, 0x90, 0xF0, 0x10, 0x10,
   0xF0, 0x80, 0xF0, 0x10, 0xF0,
   0xF0, 0x80, 0xF0, 0x90, 0xF0,
   0xF0, 0x10, 0x20, 0x40, 0x40,
   0xF0, 0x90, 0xF0, 0x90, 0xF0,
   0xF0, 0x90, 0xF0, 0x10, 0xF0,
   0xF0, 0x90, 0xF0, 0x90, 0x90,
   0xE0, 0x90, 0xE0, 0x90, 0xE0,
   0xF0, 0x80, 0x80, 0x80, 0xF0,
   0xE0, 0x90, 0x90, 0x90, 0xE0,
   0xF0, 0x80, 0xF0, 0x80, 0xF0,
   0xF0, 0x80, 0xF0, 0x80, 0x80]

theorem length_font : font.length = 80 := rfl

/-- The address of the glyph of a number's last hexadecimal digit. -/
def glyphAddress (digit : Int) : Int := fontBase + glyphSize * (digit % 16)

def Address.InFont (a : Address) : Prop := fontBase ≤ a.val ∧ a.val < fontBase + 80

instance (a : Address) : Decidable a.InFont := inferInstanceAs (Decidable (_ ∧ _))

end Chip8
