import Chip8.Address
import Chip8.Byte
import Chip8.Fault

/-! # The register file

Sixteen byte registers, the index register, the program counter and the call stack. Register `F`
doubles as the flag. The stack has sixteen slots; the slots at or above the stack pointer hold
whatever earlier calls left there.
-/

namespace Chip8

abbrev stackDepth : Nat := 16

/-- The contents of the register file. -/
structure Registers where
  v : Vector UInt8 16
  index : Int
  pc : Int
  sp : Nat
  stack : Vector Int stackDepth
deriving DecidableEq

namespace Registers

/-- All registers zero, the program counter at the program start, no call open. -/
def initial : Registers where
  v := Vector.replicate 16 0
  index := 0
  pc := programStart
  sp := 0
  stack := Vector.replicate stackDepth 0

/-- Every register, the stack pointer and all slots of the stack as at the start. -/
def reset (r : Registers) : Registers :=
  { r with
    v := Vector.replicate 16 0
    index := 0
    pc := programStart
    sp := 0
    stack := Vector.replicate stackDepth 0 }

abbrev flagRegister : Fin 16 := 15

/-- The number of the register that is added to the target of a jump with an offset. -/
abbrev offsetRegister : Fin 16 := 0

def slot (x : Int) : Except Refusal (Fin 16) := position 16 .noSuchRegister x

/-- The value in a register, as an integer. -/
def get (r : Registers) (x : Fin 16) : Int := (r.v.get x).toNat

/-- The register file after a byte is put into one register. -/
def set (r : Registers) (x : Fin 16) (b : UInt8) : Registers :=
  { r with v := r.v.set x b x.isLt }

def flag (r : Registers) : Int := r.get flagRegister

/-- The flag register set to the low eight bits of a value. -/
def setFlag (r : Registers) (value : Int) : Registers :=
  r.set flagRegister (lowByte value)

/-- A return address put on the stack, in the address range. Without a free slot the instruction at
`pc` is at fault. -/
def push (r : Registers) (address pc : Int) : Except Fault Registers :=
  if free : r.sp < stackDepth then
    .ok { r with stack := r.stack.set r.sp (wrapAddress address) free, sp := r.sp + 1 }
  else .error (.stackOverflow pc)

/-- The topmost return address and the stack without it. Without an open call the instruction at
`pc` is at fault. A stack pointer beyond the last slot finds no address. -/
def pop (r : Registers) (pc : Int) : Except Refusal (Int × Registers) :=
  match r.sp with
  | 0 => .error (.fault (.stackUnderflow pc))
  | depth + 1 =>
      if inside : depth < stackDepth then
        .ok (r.stack.get ⟨depth, inside⟩, { r with sp := depth })
      else .error .noSuchSlot

/-- The return addresses of the open calls, the oldest first. -/
def openCalls (r : Registers) : List Int := r.stack.toList.take r.sp

/-- The program counter moved past one instruction word. -/
def advance (r : Registers) : Registers := { r with pc := wrapAddress (r.pc + 2) }

end Registers

end Chip8
