import Chip8.Frames

/-! # Host actions

Everything a host can do to a machine, as data, and the machine after a list of actions. A refused
action counts like any other: the machine goes on from where the refusal left it.
-/

namespace Chip8

/-- Something a host does to a machine. -/
inductive Action where
  | load (program : List UInt8)
  | reset
  | step
  | setKey (index : Int) (pressed : Bool)
  | tick
  /-- Take the redraw flag. -/
  | takeDirty
  | frames (count : Int) (schedule : List KeyEvent)
  /-- Execute a word without fetching it. -/
  | execute (word : Int)
deriving DecidableEq, Repr

inductive Reply where
  | nothing
  | event (event : CycleEvent)
  | dirty (wasDirty : Bool)
  | report (report : FrameReport)
deriving DecidableEq, Repr

/-- An outcome with its answer seen through a function. -/
def Outcome.map {α β : Type} (f : α → β) (o : Outcome α) : Outcome β :=
  ⟨o.answer.map f, o.machine, o.log⟩

namespace Machine

def perform (s : Settings) (m : Machine) : Action → Outcome Reply
  | .load program => (m.load s program).map fun _ => .nothing
  | .reset => (m.reset s).map fun _ => .nothing
  | .step => (m.step s).map .event
  | .setKey index pressed => (m.setKey index pressed).map fun _ => .nothing
  | .tick => .done .nothing m.tick
  | .takeDirty => .done (.dirty m.isDirty) m.takeDirty
  | .frames count schedule => (m.runFrames s count schedule).map .report
  | .execute word => (m.exec s.dialect (.ofWord word)).map fun _ => .nothing

def after (s : Settings) (m : Machine) (actions : List Action) : Machine :=
  actions.foldl (fun m a => (m.perform s a).machine) m

theorem after_append (s : Settings) (m : Machine) (first second : List Action) :
    m.after s (first ++ second) = (m.after s first).after s second :=
  List.foldl_append

end Machine

end Chip8
