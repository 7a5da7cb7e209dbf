/-! # Timers

The delay and sound counters. A tick lowers each by one until it reaches zero; the sound is on
while its counter is positive.
-/

namespace Chip8

structure Timers where
  delay : Int
  sound : Int
deriving DecidableEq, Repr

namespace Timers

/-- Both counters at rest. -/
def initial : Timers := ⟨0, 0⟩

/-- Both counters back at rest. -/
def reset (t : Timers) : Timers := { t with delay := 0, sound := 0 }

def countDown (n : Int) : Int := if 0 < n then n - 1 else n

def tick (t : Timers) : Timers := ⟨countDown t.delay, countDown t.sound⟩

def soundActive (t : Timers) : Bool := decide (0 < t.sound)

end Timers

end Chip8
