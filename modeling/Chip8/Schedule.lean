import Chip8.Text.Numeral

/-! # Key schedules

A schedule says in which frame which key goes to which level. Events of a frame apply in the order
of the schedule.
-/

namespace Chip8

/-- A key that moves to a level at the start of a frame. -/
structure KeyEvent where
  frame : Int
  key : Int
  pressed : Bool
deriving DecidableEq, Repr

def levelName (pressed : Bool) : String := if pressed then "down" else "up"

/-- The events of a schedule by frame, events of one frame in their given order. -/
def inFrameOrder (events : List KeyEvent) : List KeyEvent :=
  events.mergeSort fun a b => decide (a.frame ≤ b.frame)

end Chip8
