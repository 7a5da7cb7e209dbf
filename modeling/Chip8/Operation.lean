import Chip8.Instruction

/-! # Operations

What an instruction word asks for, with its operands. Words without an operation are undefined.
-/

namespace Chip8

/-- The two-register operations of family 8. -/
inductive Alu where
  | copy
  | or
  | and
  | xor
  | add
  | subtract
  | shiftRight
  | subtractFrom
  | shiftLeft
deriving DecidableEq, Repr

/-- An operation of the machine. Registers are named by the integers of their fields. -/
inductive Operation where
  /-- Turn every pixel off. -/
  | clearScreen
  /-- Return from the innermost call. -/
  | ret
  /-- A call of native code, ignored. -/
  | system
  | jump (address : Int)
  | call (address : Int)
  /-- Skip the next instruction if the register equals the byte, or if it does not. -/
  | skipByte (ifEqual : Bool) (x kk : Int)
  /-- Skip the next instruction if the registers are equal, or if they are not. -/
  | skipRegister (ifEqual : Bool) (x y : Int)
  | setByte (x kk : Int)
  | addByte (x kk : Int)
  | alu (f : Alu) (x y : Int)
  | setIndex (address : Int)
  /-- Jump to the address plus register 0. -/
  | jumpOffset (address : Int)
  /-- A random byte, masked. -/
  | random (x mask : Int)
  /-- Draw `rows` bytes from the index on at the registers' coordinates. -/
  | draw (x y rows : Int)
  /-- Skip the next instruction if the key is down, or if it is up. -/
  | skipKey (ifDown : Bool) (x : Int)
  | readDelay (x : Int)
  | awaitKey (x : Int)
  | setDelay (x : Int)
  | setSound (x : Int)
  | addIndex (x : Int)
  /-- Point the index at the glyph of the register's digit. -/
  | glyph (x : Int)
  /-- Store the three decimal digits of the register at the index. -/
  | storeDecimal (x : Int)
  /-- Store registers 0 to `x` at the index. -/
  | storeRegisters (x : Int)
  /-- Load registers 0 to `x` from the index. -/
  | loadRegisters (x : Int)
deriving DecidableEq, Repr

namespace Instruction

/-- The operation of family 8 with this last nibble. A nibble of a word is never negative; fields
put together by hand may be, and then mean the last operation. -/
def alu? (n : Int) : Option Alu :=
  if n < 0 then some .shiftLeft
  else match n with
    | 0x0 => some .copy
    | 0x1 => some .or
    | 0x2 => some .and
    | 0x3 => some .xor
    | 0x4 => some .add
    | 0x5 => some .subtract
    | 0x6 => some .shiftRight
    | 0x7 => some .subtractFrom
    | 0xE => some .shiftLeft
    | _ => none

/-- The operation of family F with this low byte. -/
def misc? (x kk : Int) : Option Operation :=
  match kk with
  | 0x07 => some (.readDelay x)
  | 0x0A => some (.awaitKey x)
  | 0x15 => some (.setDelay x)
  | 0x18 => some (.setSound x)
  | 0x1E => some (.addIndex x)
  | 0x29 => some (.glyph x)
  | 0x33 => some (.storeDecimal x)
  | 0x55 => some (.storeRegisters x)
  | 0x65 => some (.loadRegisters x)
  | _ => none

/-- The operation that an instruction asks for; `none` if it is undefined. -/
def operation? (i : Instruction) : Option Operation :=
  match i.op with
  | 0x0 =>
      if i.raw = 0x00E0 then some .clearScreen
      else if i.raw = 0x00EE then some .ret
      else some .system
  | 0x1 => some (.jump i.nnn)
  | 0x2 => some (.call i.nnn)
  | 0x3 => some (.skipByte true i.x i.kk)
  | 0x4 => some (.skipByte false i.x i.kk)
  | 0x5 => if i.n = 0 then some (.skipRegister true i.x i.y) else none
  | 0x6 => some (.setByte i.x i.kk)
  | 0x7 => some (.addByte i.x i.kk)
  | 0x8 => (alu? i.n).map fun f => .alu f i.x i.y
  | 0x9 => if i.n = 0 then some (.skipRegister false i.x i.y) else none
  | 0xA => some (.setIndex i.nnn)
  | 0xB => some (.jumpOffset i.nnn)
  | 0xC => some (.random i.x i.kk)
  | 0xD => some (.draw i.x i.y i.n)
  | 0xE =>
      match i.kk with
      | 0x9E => some (.skipKey true i.x)
      | 0xA1 => some (.skipKey false i.x)
      | _ => none
  | 0xF => misc? i.x i.kk
  | _ => none

end Instruction

end Chip8
