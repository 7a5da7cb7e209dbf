import Chip8.Host

/-! # Frames

A frame applies the key events that are due, runs a burst of steps, ticks the timers once and
counts a render if the screen was drawn on. A fault ends the run within its frame.
-/

namespace Chip8

structure FrameReport where
  frames : Nat
  renders : Nat
  fault : Option Fault
deriving DecidableEq, Repr

namespace Machine

/-- Steps until a number is made, the machine is found halted or a step is refused. The entries
logged so far are carried along. -/
def burst (s : Settings) : Nat → Machine → Array LogEntry → Outcome Unit
  | 0, m, log => .done () m log.toList
  | n + 1, m, log =>
      let stepped := m.step s
      let log := log ++ stepped.log
      match stepped.answer with
      | .error reason => .refused reason stepped.machine log.toList
      | .ok .halted => .done () stepped.machine log.toList
      | .ok _ => burst s n stepped.machine log

def applyEvents (frame : Nat) : List KeyEvent → Machine → Array LogEntry → Outcome Unit
  | [], m, log => .done () m log.toList
  | e :: rest, m, log =>
      let moved := m.setKey e.key e.pressed
      match moved.answer with
      | .error reason => .refused reason moved.machine log.toList
      | .ok () => applyEvents frame rest moved.machine (log.push (.keyMoved frame e))

/-- Frames from number `frame` on, with the events that are still to come in frame order. -/
def framesFrom (s : Settings) :
    (count frame renders : Nat) → List KeyEvent → Machine → Array LogEntry → Outcome FrameReport
  | 0, frame, renders, _, m, log => .done ⟨frame, renders, none⟩ m log.toList
  | count + 1, frame, renders, pending, m, log =>
      let (due, later) := pending.span fun e => decide (e.frame ≤ (frame : Int))
      let keyed := m.applyEvents frame due #[]
      let log := log ++ keyed.log
      match keyed.answer with
      | .error reason => .refused reason keyed.machine log.toList
      | .ok () =>
        let run := keyed.machine.burst s s.cyclesPerFrame.toNat #[]
        let log := log ++ run.log
        match run.answer with
        | .error (.fault fault) =>
            .done ⟨frame + 1, renders, some fault⟩ run.machine
              (log.push (.framesStopped frame fault)).toList
        | .error reason => .refused reason run.machine log.toList
        | .ok () =>
          let ticked := run.machine.tick
          framesFrom s count (frame + 1) (if ticked.isDirty then renders + 1 else renders) later
            ticked.takeDirty log

/-- A run of frames under a schedule; a count that is not positive runs none. -/
def runFrames (s : Settings) (count : Int) (schedule : List KeyEvent) (m : Machine) :
    Outcome FrameReport :=
  framesFrom s count.toNat 0 0 (inFrameOrder schedule) m #[]

/-- Whether the nanoseconds of a frame are more than a clock can count. -/
def pauseTooLong (s : Settings) : Bool := 9223372036854775808.0 ≤ 1.0 / s.frameRate * 1.0e9

/-- A run of frames with a pause at the end of each frame. The pauses leave no trace, but one that
is too long breaks the run off after its first frame. -/
def runPaced (s : Settings) (count : Int) (schedule : List KeyEvent) (m : Machine) :
    Outcome FrameReport :=
  if pauseTooLong s then
    let run := m.runFrames s (min count 1) schedule
    match run.answer with
    | .ok ⟨1, _, none⟩ => .refused .pauseTooLong run.machine run.log
    | _ => run
  else m.runFrames s count schedule

end Machine

end Chip8
