import Chip8.Operation
import Chip8.Outcome

/-! # Execution

What each operation does to a machine whose program counter already points past the instruction.
Every fault is found before the first change, so a faulting operation leaves the machine as it
was. The flag register is written last, after the register of the result.
-/

namespace Chip8

/-- The flag of a subtraction: set if nothing was borrowed, or the other way round. -/
def Dialect.subtractionFlag (d : Dialect) (minuend subtrahend : UInt8) : UInt8 :=
  if decide (subtrahend ≤ minuend) != d.borrowFlagInverted then 1 else 0

/-- The result of a two-register operation and the flag that it sets, if it sets one. -/
def Alu.apply (d : Dialect) (a b : UInt8) : Alu → UInt8 × Option UInt8
  | copy => (b, none)
  | or => (a ||| b, none)
  | and => (a &&& b, none)
  | xor => (a ^^^ b, none)
  | add => (a + b, some (if 255 < a.toNat + b.toNat then 1 else 0))
  | subtract => (a - b, some (d.subtractionFlag a b))
  | subtractFrom => (b - a, some (d.subtractionFlag b a))
  | shiftRight =>
      let source := if d.shiftUsesVy then b else a
      (source >>> 1, some (source &&& 1))
  | shiftLeft =>
      let source := if d.shiftUsesVy then b else a
      (source <<< 1, some (source >>> 7))

/-- The byte that a register can hold of this integer: the integer itself or nothing. -/
def exactByte (z : Int) : Except Refusal UInt8 :=
  if 0 ≤ z ∧ z < 256 then .ok (lowByte z) else .error .notAByte

/-- The register and the byte of an assignment. A register index that is too wide is noticed first,
then a value that is no byte, then an index outside of the registers. -/
def assignment (x value : Int) : Except Refusal (Fin 16 × UInt8) :=
  match Registers.slot x with
  | .error .indexTooWide => .error .indexTooWide
  | slot => do
      let b ← exactByte value
      return (← slot, b)

/-- The reports of the stores into the font table among `count` successive stores. -/
def ignoredWrites (a : Int) (count : Nat) : List LogEntry :=
  (List.range count).filterMap fun offset =>
    let target := a + (offset : Nat)
    if Memory.isProtected target then some (.fontWriteIgnored (.ofInt target)) else none

namespace Machine

def storeAtIndex (m : Machine) (bytes : List UInt8) : Machine :=
  { m with memory := m.memory.writeBytes m.registers.index bytes }

/-- The decimal digits of a number below 1000, the hundreds first. -/
def decimalDigits (value : Nat) : List UInt8 :=
  [UInt8.ofNat (value / 100), UInt8.ofNat (value / 10 % 10), UInt8.ofNat (value % 10)]

/-- The index after a block of `x + 1` registers was stored or loaded. -/
def passBlock (d : Dialect) (x : Int) (m : Machine) : Machine :=
  if d.loadStoreIncrementsIndex then m.setIndex (wrapAddress (m.registers.index + x + 1)) else m

/-- Registers from 0 on loaded from the index on, as many as there are up to `count`. -/
def loadFromIndex (m : Machine) (count : Nat) : Machine :=
  { m with registers := { m.registers with
      v := Vector.ofFn fun r : Fin 16 =>
        if r.val < count then m.memory.read (m.registers.index + r.val) else m.registers.v.get r } }

/-- A block of `x + 1` registers: all of them were moved, or the block asks for a register that
does not exist. -/
def blockEnd (d : Dialect) (x : Int) (m : Machine) (log : List LogEntry) : Outcome Unit :=
  if x < 16 then .done () (m.passBlock d x) log else .refused .noSuchRegister m log

/-- The two-register operations of family 8. -/
def runAlu (d : Dialect) (f : Alu) (x y : Fin 16) (m : Machine) : Machine :=
  match f.apply d (m.registers.v.get x) (m.registers.v.get y) with
  | (result, none) => m.setRegister x result
  | (result, some flag) => (m.setRegister x result).setRegister Registers.flagRegister flag

/-- A sprite of `rows` bytes from the index on, drawn at the registers' coordinates. -/
def runDraw (d : Dialect) (x y : Fin 16) (rows : Int) (m : Machine) : Machine :=
  let sprite := m.memory.readBytes m.registers.index rows
  let drawn := m.screen.draw (m.registers.get x) (m.registers.get y) sprite d.clipSprites
  { m with screen := drawn.1 }.setFlag (if drawn.2 then 1 else 0)

def runAddIndex (d : Dialect) (x : Fin 16) (m : Machine) : Machine :=
  let total := m.registers.index + m.registers.get x
  let moved := m.setIndex (wrapAddress total)
  if d.indexOverflowFlag then moved.setFlag (if 4095 < total then 1 else 0) else moved

/-- The machine parked on the instruction fetched last: only a press from now on ends the wait. -/
def runAwaitKey (x : Int) (m : Machine) : Machine :=
  { m.jump m.fetchPc with
    keypad := m.keypad.clearEdges
    mode := .awaitingKey
    waitRegister := x }

def run (d : Dialect) (operation : Operation) (m : Machine) : Outcome Unit :=
  let register (x : Int) := Outcome.lookup (α := Unit) (Registers.slot x) m
  match operation with
  | .clearScreen => .done () { m with screen := m.screen.clear }
  | .ret =>
      .lookup (m.registers.pop m.fetchPc) m fun (address, registers) =>
        .done () ({ m with registers := registers }.jump address)
  | .system => .done () m
  | .jump address => .done () (m.jump address)
  | .call address =>
      match m.registers.push m.registers.pc m.fetchPc with
      | .error fault => .refused (.fault fault) m
      | .ok registers => .done () ({ m with registers := registers }.jump address)
  | .skipByte ifEqual x kk =>
      register x fun r => .done () (m.skipIf (decide (m.registers.get r = kk) == ifEqual))
  | .skipRegister ifEqual x y =>
      register x fun r => register y fun s =>
        .done () (m.skipIf (decide (m.registers.v.get r = m.registers.v.get s) == ifEqual))
  | .setByte x kk =>
      .lookup (assignment x kk) m fun (r, b) => .done () (m.setRegister r b)
  | .addByte x kk =>
      register x fun r => .done () (m.setRegister r (lowByte (m.registers.get r + kk)))
  | .alu f x y => register x fun r => register y fun s => .done () (m.runAlu d f r s)
  | .setIndex address => .done () (m.setIndex address)
  | .jumpOffset address =>
      .done () (m.jump (wrapAddress (m.registers.get Registers.offsetRegister + address)))
  | .random x mask =>
      let (byte, random) := m.random.next
      let drawn := { m with random := random }
      .lookup (Registers.slot x) drawn fun r =>
        .done () (drawn.setRegister r (byte &&& lowByte mask))
  | .draw x y rows => register x fun r => register y fun s => .done () (m.runDraw d r s rows)
  | .skipKey ifDown x =>
      register x fun r => .done () (m.skipIf (m.keypad.isPressed (m.registers.get r) == ifDown))
  | .readDelay x =>
      .lookup (assignment x m.timers.delay) m fun (r, b) => .done () (m.setRegister r b)
  | .awaitKey x => .done () (m.runAwaitKey x) [.keyAwaited x m.fetchPc]
  | .setDelay x =>
      register x fun r =>
        .done () { m with timers := { m.timers with delay := m.registers.get r } }
  | .setSound x =>
      register x fun r =>
        .done () { m with timers := { m.timers with sound := m.registers.get r } }
  | .addIndex x => register x fun r => .done () (m.runAddIndex d r)
  | .glyph x => register x fun r => .done () (m.setIndex (glyphAddress (m.registers.get r)))
  | .storeDecimal x =>
      register x fun r =>
        .done () (m.storeAtIndex (decimalDigits (m.registers.v.get r).toNat))
          (ignoredWrites m.registers.index 3)
  | .storeRegisters x =>
      let bytes := m.registers.v.toList.take (x + 1).toNat
      blockEnd d x (m.storeAtIndex bytes) (ignoredWrites m.registers.index bytes.length)
  | .loadRegisters x => blockEnd d x (m.loadFromIndex (x + 1).toNat) []

/-- Execute one instruction, or report that it is undefined. -/
def exec (d : Dialect) (i : Instruction) (m : Machine) : Outcome Unit :=
  match i.operation? with
  | some operation => m.run d operation
  | none => .refused (.fault (.unknownOpcode i.raw m.fetchPc)) m

end Machine

end Chip8
