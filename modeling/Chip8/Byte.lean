/-! # Bytes

The low eight bits of an integer, as a byte.
-/

namespace Chip8

/-- The low eight bits of an integer. -/
def lowByte (z : Int) : UInt8 := UInt8.ofNat (z % 256).toNat

theorem toNat_lowByte (z : Int) : (lowByte z).toNat = (z % 256).toNat := by
  unfold lowByte
  rw [UInt8.toNat_ofNat']
  omega

@[simp] theorem lowByte_toNat (b : UInt8) : lowByte b.toNat = b := by
  apply UInt8.toNat_inj.mp
  have bound := b.toNat_lt
  rw [toNat_lowByte]
  omega

end Chip8
