import Chip8.Frames

/-! # Headless runs

A program run on a new machine for a number of frames, with its keys from a schedule, and what is
reported at the end.
-/

namespace Chip8

inductive Ending where
  | faulted (fault : Fault)
  /-- After its last frame, in a mode. -/
  | resting (mode : Mode)
deriving DecidableEq, Repr

def Ending.text : Ending → String
  | faulted fault => "fault: " ++ fault.name
  | resting mode => mode.name

structure RunReport where
  screen : Screen
  frames : Nat
  ending : Ending

namespace Machine

/-- A run of a program, with or without pauses; without a number of frames it takes as many as the
settings say. -/
def runProgram (s : Settings) (program : List UInt8) (schedule : List KeyEvent)
    (frames : Option Int) (paced : Bool := false) : Outcome RunReport :=
  let loaded := (initial s).load s program
  match loaded.answer with
  | .error reason => .refused reason loaded.machine loaded.log
  | .ok () =>
      let count := frames.getD s.frameLimit
      let run := if paced then loaded.machine.runPaced s count schedule
        else loaded.machine.runFrames s count schedule
      match run.answer with
      | .error reason => .refused reason run.machine (loaded.log ++ run.log)
      | .ok report =>
          let ending := match report.fault with
            | some fault => .faulted fault
            | none => .resting run.machine.mode
          .done ⟨run.machine.screen, report.frames, ending⟩ run.machine
            (loaded.log ++ run.log ++ [.framesRun report.frames report.renders])

end Machine

end Chip8
