import Chip8.Fault
import Chip8.Memory

/-! # Instruction words

An instruction is a 16-bit word, high byte first. Its fields are the four nibbles, the low byte and
the low twelve bits. Fields are integers, so that an instruction can also be put together by hand.
-/

namespace Chip8

/-- An instruction word split into its fields; `raw` keeps the word for reports. -/
structure Instruction where
  op : Int
  x : Int
  y : Int
  n : Int
  kk : Int
  nnn : Int
  raw : Int
deriving DecidableEq, Repr

namespace Instruction

/-- The fields of the low sixteen bits of a word. -/
def ofWord (word : Int) : Instruction :=
  let w := word % 65536
  { op := w / 4096
    x := w / 256 % 16
    y := w / 16 % 16
    n := w % 16
    kk := w % 256
    nnn := w % 4096
    raw := w }

/-- The instruction at an offset of a byte image. Both bytes are addressed modulo the size of
memory, so the word at the last cell takes its low byte from the first; an image may be shorter. -/
def ofImage (image : List UInt8) (offset : Int) : Except Refusal Instruction :=
  match image[(Address.ofInt offset).val]?, image[(Address.ofInt (offset + 1)).val]? with
  | some hi, some lo => .ok (ofWord (256 * hi.toNat + lo.toNat))
  | _, _ => .error .noSuchByte

end Instruction

/-- The word at an address: the byte there is the high one. -/
def Memory.readWord (m : Memory) (a : Int) : Int := 256 * (m.read a).toNat + (m.read (a + 1)).toNat

def Memory.fetch (m : Memory) (a : Int) : Instruction := Instruction.ofWord (m.readWord a)

end Chip8
