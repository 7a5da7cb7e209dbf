import Chip8.Dialect
import Chip8.Instruction
import Chip8.Keypad
import Chip8.RandomStream
import Chip8.Registers
import Chip8.Screen
import Chip8.Timers

/-! # The machine

Everything that an instruction or a host action can change, and the settings that stay fixed for
the life of a machine.
-/

namespace Chip8

/-- What the machine does at the next step. -/
inductive Mode where
  | running
  | awaitingKey
  | halted
deriving DecidableEq, Repr

def Mode.name : Mode → String
  | running => "running"
  | awaitingKey => "awaiting_key"
  | halted => "halted"

/-- The settings of a machine that do not change while it runs. -/
structure Settings where
  /-- Steps per frame. -/
  cyclesPerFrame : Int := 10
  /-- Frames per second when frames are paced. -/
  frameRate : Float := 60
  /-- Frames of a run that does not say how many. -/
  frameLimit : Int := 600
  /-- The seed of the random bytes. -/
  seed : Option Int := none
  /-- Leave the trace lines out of the log. -/
  lenientLog : Bool := false
  /-- The meaning of the disputed instructions. -/
  dialect : Dialect := {}

/-- The state of a machine. -/
structure Machine where
  memory : Memory
  registers : Registers
  timers : Timers
  screen : Screen
  keypad : Keypad
  mode : Mode
  /-- The register that receives the awaited key. -/
  waitRegister : Int
  /-- The address of the instruction fetched last. -/
  fetchPc : Int
  random : RandomStream
deriving DecidableEq

namespace Machine

def initial (settings : Settings) : Machine where
  memory := .initial
  registers := .initial
  timers := .initial
  screen := .initial
  keypad := .initial
  mode := .running
  waitRegister := 0
  fetchPc := programStart
  random := .ofSeed settings.seed

def jump (m : Machine) (address : Int) : Machine :=
  { m with registers := { m.registers with pc := address } }

/-- The machine past the next instruction if a condition holds. -/
def skipIf (m : Machine) (condition : Bool) : Machine :=
  if condition then { m with registers := m.registers.advance } else m

def setRegister (m : Machine) (x : Fin 16) (b : UInt8) : Machine :=
  { m with registers := m.registers.set x b }

@[simp] theorem v_setRegister (m : Machine) (x : Fin 16) (b : UInt8) :
    (m.setRegister x b).registers.v.get x = b :=
  Vector.getElem_set_self x.isLt

def setIndex (m : Machine) (index : Int) : Machine :=
  { m with registers := { m.registers with index := index } }

def setFlag (m : Machine) (value : Int) : Machine :=
  { m with registers := m.registers.setFlag value }

end Machine

end Chip8
