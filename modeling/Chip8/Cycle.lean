import Chip8.Execution

/-! # One step

A running machine fetches the word at its program counter, moves the counter past it and executes
it. A waiting machine looks for a press and does nothing else without one. A halted machine does
nothing.
-/

namespace Chip8

inductive CycleEvent where
  | continued
  | awaitingKey
  | halted
deriving DecidableEq, Repr

def CycleEvent.name : CycleEvent → String
  | continued => "continued"
  | awaitingKey => "awaiting_key"
  | halted => "halted"

namespace Machine

/-- The trace entry of a moment, unless the settings leave traces out. -/
def trace (s : Settings) (stage : Stage) (i : Instruction) (m : Machine) : List LogEntry :=
  if s.lenientLog then [] else [.trace (.of m stage i)]

def nextInstruction (m : Machine) : Instruction := m.memory.fetch m.registers.pc

/-- The machine with its program counter past the fetched instruction. -/
def fetched (m : Machine) : Machine :=
  { m with fetchPc := m.registers.pc, registers := m.registers.advance }

/-- What a finished instruction reports to the host. -/
def eventAfter (m : Machine) : CycleEvent :=
  if m.mode = .awaitingKey then .awaitingKey else .continued

/-- One fetch and execution. A fault halts the machine. -/
def cycle (s : Settings) (m : Machine) : Outcome CycleEvent :=
  let i := m.nextInstruction
  let before := trace s .fetch i m
  let executed := m.fetched.exec s.dialect i
  let after := executed.machine
  match executed.answer with
  | .ok () => .done after.eventAfter after (before ++ executed.log ++ trace s .execution i after)
  | .error (.fault fault) =>
      .refused (.fault fault) { after with mode := .halted }
        (before ++ executed.log ++ [.faulted after.fetchPc fault])
  | .error reason => .refused reason after (before ++ executed.log)

/-- One look at the keypad: a latched press goes into the waiting register and the machine runs
on behind the waiting instruction. -/
def pollKey (m : Machine) : Outcome CycleEvent :=
  match m.keypad.takeEdge with
  | (none, _) => .done .awaitingKey m
  | (some key, keypad) =>
      let taken := { m with keypad := keypad }
      .lookup (Registers.slot m.waitRegister) taken fun r =>
        let stored := taken.setRegister r (UInt8.ofNat key.val)
        let resumed := { stored with registers := stored.registers.advance, mode := .running }
        .done .continued resumed [.keyResolved key m.waitRegister resumed.registers.pc]

/-- One step of the machine, whatever its mode. -/
def step (s : Settings) (m : Machine) : Outcome CycleEvent :=
  match m.mode with
  | .running => m.cycle s
  | .awaitingKey => m.pollKey
  | .halted => .done .halted m

end Machine

end Chip8
