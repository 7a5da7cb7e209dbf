import Chip8.Cycle

/-! # Host operations

What a host does to a machine between steps: switching it back to its first state, placing a
program, moving keys, ticking the timers and taking the redraw flag.
-/

namespace Chip8.Machine

/-- Memory, registers, timers, screen and keypad, each put back by itself. -/
def clear (m : Machine) : Machine :=
  { m with
    memory := m.memory.reset
    registers := m.registers.reset
    timers := m.timers.reset
    screen := m.screen.clear
    keypad := m.keypad.reset }

/-- Any wait or halt left, with the random bytes from their beginning. -/
def restart (s : Settings) (m : Machine) : Machine :=
  { m with
    mode := .running
    waitRegister := 0
    fetchPc := m.registers.pc
    random := .ofSeed s.seed }

/-- The machine back in its first state. -/
def reset (s : Settings) (m : Machine) : Outcome Unit :=
  .done () (m.clear.restart s) [.reset m.clear.registers.pc]

/-- Reset and place a program; one that does not fit is refused before anything changes. -/
def load (s : Settings) (program : List UInt8) (m : Machine) : Outcome Unit :=
  if programCapacity < program.length then
    .refused (.programTooLarge program.length programCapacity) m
  else
    .lookup (m.clear.memory.loadProgram program) m.clear fun memory =>
      .done () ({ m.clear with memory := memory }.restart s)
        [.reset m.clear.registers.pc, .programLoaded program.length]

def setKey (index : Int) (pressed : Bool) (m : Machine) : Outcome Unit :=
  .lookup (m.keypad.setKey index pressed) m fun keypad => .done () { m with keypad := keypad }

def tick (m : Machine) : Machine := { m with timers := m.timers.tick }

/-- Whether the frame was drawn on since the last look. -/
def isDirty (m : Machine) : Bool := m.screen.dirty

/-- The redraw flag taken: cleared until something is drawn again. -/
def takeDirty (m : Machine) : Machine := { m with screen := { m.screen with dirty := false } }

variable {s : Settings} {m : Machine} {program : List UInt8}

/-- Put back part by part and restarted, a machine is as it was when it was switched on. -/
theorem reset_eq (s : Settings) (m : Machine) :
    m.reset s = .done () (initial s) [.reset programStart] := rfl

theorem load_of_fits (s : Settings) (m : Machine) (fits : program.length ≤ programCapacity) :
    m.load s program =
      .done () { initial s with memory := Memory.initial.placeProgram program fits }
        [.reset programStart, .programLoaded program.length] := by
  have small : ¬ programCapacity < program.length := Nat.not_lt_of_le fits
  simp only [load, Memory.loadProgram, if_neg small, dif_neg small, Outcome.lookup_ok]
  rfl

theorem load_of_tooLarge (s : Settings) (m : Machine)
    (tooLarge : programCapacity < program.length) :
    m.load s program = .refused (.programTooLarge program.length programCapacity) m :=
  if_pos tooLarge

end Chip8.Machine
