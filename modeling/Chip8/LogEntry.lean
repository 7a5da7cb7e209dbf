import Chip8.Instruction.Mnemonic
import Chip8.Machine
import Chip8.Schedule

/-! # Log entries

What the machine and its hosts report while they work, as data; `text` is the line written for an
entry. A trace entry shows the machine at one moment of a step: its fields have fixed widths in
every reachable state, so the line can be read back.
-/

namespace Chip8

open Text

/-- The part of a step that a trace entry belongs to. -/
inductive Stage where
  /-- Before the instruction is executed. -/
  | fetch
  /-- After it was executed. -/
  | execution
deriving DecidableEq, Repr

def Stage.name : Stage → String
  | fetch => "FETCH"
  | execution => "EXECUTION"

def Mode.label : Mode → String
  | running => "RUNNING"
  | awaitingKey => "AWAITING_KEY"
  | halted => "HALTED"

/-- What a trace line shows of the machine. -/
structure Moment where
  mode : Mode
  stage : Stage
  pc : Int
  index : Int
  sp : Nat
  delay : Int
  sound : Int
  v : Vector UInt8 16
  instruction : Instruction
deriving DecidableEq

namespace Moment

def of (m : Machine) (stage : Stage) (instruction : Instruction) : Moment where
  mode := m.mode
  stage := stage
  pc := m.registers.pc
  index := m.registers.index
  sp := m.registers.sp
  delay := m.timers.delay
  sound := m.timers.sound
  v := m.registers.v
  instruction := instruction

def text (t : Moment) : String :=
  "STATE: " ++ alignLeft 12 t.mode.label
    ++ " STEP: " ++ alignLeft 10 t.stage.name
    ++ " PC: " ++ hex3 t.pc
    ++ " I: " ++ hex3 t.index
    ++ " SP: " ++ alignRight 2 (decimal t.sp)
    ++ " DT: " ++ alignRight 3 (decimal t.delay)
    ++ " ST: " ++ alignRight 3 (decimal t.sound)
    ++ " V: " ++ hexBytes t.v.toList
    ++ "\tINSTR: " ++ t.instruction.mnemonic

end Moment

inductive LogEntry where
  /-- The machine at a moment of a step. -/
  | trace (moment : Moment)
  /-- A store into the font table was dropped. -/
  | fontWriteIgnored (address : Address)
  /-- An instruction waits for a key. -/
  | keyAwaited (register pc : Int)
  /-- A press ended the wait. -/
  | keyResolved (key : Fin 16) (register pc : Int)
  /-- A fault halted the machine. -/
  | faulted (fetchPc : Int) (fault : Fault)
  /-- The machine went back to its first state. -/
  | reset (pc : Int)
  /-- A program was placed in memory. -/
  | programLoaded (size : Nat)
  /-- A scheduled key event was applied. -/
  | keyMoved (frame : Nat) (event : KeyEvent)
  /-- A fault ended a run of frames. -/
  | framesStopped (frame : Nat) (fault : Fault)
  /-- A headless run ended. -/
  | framesRun (frames renders : Nat)
  /-- The memory dump could not be written. -/
  | dumpRefused (reason : String)
  /-- A schedule file was read. -/
  | scheduleRead (path : String) (events : List KeyEvent)
  /-- A schedule file was refused. -/
  | scheduleRefused (path : String)

namespace LogEntry

def level : LogEntry → String
  | faulted .. => "ERROR"
  | scheduleRefused _ => "ERROR"
  | _ => "DEBUG"

def isTrace : LogEntry → Bool
  | trace _ => true
  | _ => false

/-- A schedule in one line: a list of triples. -/
def scheduleText (events : List KeyEvent) : String :=
  "[" ++ ", ".intercalate (events.map fun e =>
    "(" ++ decimal e.frame ++ ", " ++ decimal e.key ++ ", "
      ++ (if e.pressed then "True" else "False") ++ ")") ++ "]"

def text : LogEntry → String
  | trace moment => moment.text
  | fontWriteIgnored a => "Write to font table at " ++ hex3 a.val ++ " ignored"
  | keyAwaited x pc => "Waiting for key -> V" ++ hex x ++ " at PC " ++ hex3 pc
  | keyResolved key x pc =>
      "Key " ++ hex key.val ++ " pressed -> V" ++ hex x ++ ", resume at " ++ hex3 pc
  | faulted pc fault => "Fault at PC " ++ hex3 pc ++ ": " ++ fault.message ++ " -> HALT"
  | reset pc => "Datapath: reset, PC=" ++ hex3 pc
  | programLoaded size =>
      "Datapath: loaded " ++ decimal size ++ " ROM bytes at " ++ hex3 programStart
  | keyMoved frame e =>
      "[frame " ++ decimal frame ++ "] key " ++ hex e.key ++ " " ++ levelName e.pressed
  | framesStopped frame fault =>
      "[frame " ++ decimal frame ++ "] stopped by fault: " ++ fault.message
  | framesRun frames renders =>
      "Ran " ++ decimal frames ++ " frames, " ++ decimal renders ++ " renders"
  | dumpRefused reason => "Failed to write memory_dump.txt: " ++ reason
  | scheduleRead path events =>
      "CLI: parsed schedule from " ++ path ++ ": " ++ scheduleText events
  | scheduleRefused path => "Failed to parse --keys: " ++ path

end LogEntry

end Chip8
