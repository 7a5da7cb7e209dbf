/-! # Dialects

Five instructions families have more than one historical meaning. A dialect fixes the meaning of
each; the default dialect is the canonical one.
-/

namespace Chip8

structure Dialect where
  /-- Subtractions set the flag to the borrow instead of its complement. -/
  borrowFlagInverted : Bool := false
  /-- Sprites are cut at the right and bottom edge instead of wrapping around. -/
  clipSprites : Bool := true
  /-- Adding to the index sets the flag to the carry out of twelve bits. -/
  indexOverflowFlag : Bool := false
  /-- Storing and loading registers moves the index past the block. -/
  loadStoreIncrementsIndex : Bool := false
  /-- Shifts take their source from the second register. -/
  shiftUsesVy : Bool := false
deriving DecidableEq, Repr

end Chip8
