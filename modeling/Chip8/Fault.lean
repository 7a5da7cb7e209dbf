import Chip8.Text.Numeral

/-! # Faults and refusals

A fault is a fatal error of the running program: it halts the machine. A refusal is any reason why
an action on the machine does not finish: a fault, or arguments that the machine has no place for.
-/

namespace Chip8

open Text

/-- A fatal error of the program, with the address of the instruction that caused it. -/
inductive Fault where
  /-- The instruction word matches no defined encoding. -/
  | unknownOpcode (instruction pc : Int)
  /-- A call while all stack slots are in use. -/
  | stackOverflow (pc : Int)
  /-- A return while no call is open. -/
  | stackUnderflow (pc : Int)
deriving DecidableEq, Repr

namespace Fault

def pc : Fault → Int
  | unknownOpcode _ pc => pc
  | stackOverflow pc => pc
  | stackUnderflow pc => pc

/-- The kind of fault, as reports name it. -/
def name : Fault → String
  | unknownOpcode .. => "UnknownOpcode"
  | stackOverflow _ => "StackOverflow"
  | stackUnderflow _ => "StackUnderflow"

def message : Fault → String
  | unknownOpcode instruction pc => "Unknown opcode " ++ hex4 instruction ++ " at PC " ++ hex3 pc
  | stackOverflow pc => "Call stack overflow at PC " ++ hex3 pc
  | stackUnderflow pc => "Call stack underflow at PC " ++ hex3 pc

end Fault

/-- A reason why an action on the machine does not finish. -/
inductive Refusal where
  /-- The program faulted. -/
  | fault (fault : Fault)
  /-- The program does not fit between the program start and the top of memory. -/
  | programTooLarge (size capacity : Nat)
  /-- There is no such key. -/
  | noSuchKey (index : Int)
  /-- There is no such register. -/
  | noSuchRegister
  /-- There is no such slot of the call stack. -/
  | noSuchSlot
  /-- A byte register cannot hold the value. -/
  | notAByte
  /-- There is no such row of the screen. -/
  | noSuchRow
  /-- There is no such column of the screen. -/
  | noSuchColumn
  /-- There is no such pixel in row-major order. -/
  | noSuchPixel
  /-- There is no such byte in an image. -/
  | noSuchByte
  /-- An index that does not even fit a machine word. -/
  | indexTooWide
  /-- A pause at the end of a frame that is longer than clocks can count. -/
  | pauseTooLong
deriving DecidableEq, Repr

def Refusal.message : Refusal → String
  | fault f => f.message
  | programTooLarge size capacity =>
      "ROM is " ++ decimal size ++ " bytes, only " ++ decimal capacity ++ " bytes fit"
  | noSuchKey index => "key index " ++ decimal index ++ " out of range 0..15"
  | noSuchRegister => "bytearray index out of range"
  | noSuchSlot => "list index out of range"
  | notAByte => "byte must be in range(0, 256)"
  | noSuchRow => "index out of bounds on dimension 1"
  | noSuchColumn => "index out of bounds on dimension 2"
  | noSuchPixel => "bytearray index out of range"
  | noSuchByte => "index out of range"
  | indexTooWide => "cannot fit 'int' into an index-sized integer"
  | pauseTooLong => "timestamp too large to convert to C _PyTime_t"

/-- The position that an index denotes among `size` places: a negative index counts from the end,
and one outside is refused in the given way. -/
def position (size : Nat) (outside : Refusal) (index : Int) : Except Refusal (Fin size) :=
  if index < -0x8000000000000000 ∨ 0x8000000000000000 ≤ index then .error .indexTooWide
  else
    let fromStart := if index < 0 then index + size else index
    if inside : fromStart.toNat < size ∧ 0 ≤ fromStart then .ok ⟨fromStart.toNat, inside.1⟩
    else .error outside

/-- An index inside the range denotes itself. -/
theorem position_of_lt {size : Nat} {outside : Refusal} {index : Nat} (inside : index < size)
    (small : size < 0x8000000000000000) : position size outside index = .ok ⟨index, inside⟩ := by
  unfold position
  rw [if_neg (by omega)]
  have nonneg : ¬ ((index : Int) < 0) := by omega
  simp [nonneg, inside]

end Chip8
