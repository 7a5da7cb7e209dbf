import Chip8.Memory
import Chip8.Number.IntegerLiteral
import Chip8.Text.Numeral

/-! # Memory dumps

All of memory as 256 lines: the address in three hexadecimal digits, and sixteen bytes of two.
-/

namespace Chip8.Memory

open Text

abbrev dumpWidth : Nat := 16

def dumpLine (m : Memory) (base : Nat) : String :=
  hex3 base ++ ": " ++ hexBytes (m.readBytes base dumpWidth)

/-- All lines, by ascending address. -/
def dump (m : Memory) : List String :=
  (List.range (memorySize / dumpWidth)).map fun line => m.dumpLine (dumpWidth * line)

def dumpedBytes (line : String) : List UInt8 :=
  ((line.toList.drop 5).splitOnP (· = ' ')).map fun digits =>
    UInt8.ofNat (Number.valueOf 16 digits)

end Chip8.Memory
