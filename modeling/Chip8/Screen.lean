import Chip8.Fault

/-! # The screen

A frame of 64 by 32 one-bit pixels in row-major order, with a flag that says whether something was
drawn since the host last looked. Sprites are drawn by exclusive or: each set bit of the sprite
that lands on the frame is a hit and toggles one pixel.
-/

namespace Chip8

/-- The number of pixels of a row. -/
abbrev screenWidth : Nat := 64

abbrev screenHeight : Nat := 32

/-- A pixel of the frame, in row-major order. -/
abbrev Pixel := Fin (screenWidth * screenHeight)

/-- The frame and its redraw flag. -/
structure Screen where
  pixels : Vector Bool (screenWidth * screenHeight)
  dirty : Bool
deriving DecidableEq

namespace Screen

/-- A dark frame that the host has not seen. -/
def initial : Screen := ⟨Vector.replicate _ false, true⟩

/-- Every pixel off. -/
def clear (_ : Screen) : Screen := initial

/-- The pixel where a sprite bit at column `px`, row `py` lands. Past an edge it is dropped when
clipping and wraps around otherwise. -/
def landing (clip : Bool) (px py : Nat) : Option Pixel :=
  if clip then
    if past : screenWidth ≤ px ∨ screenHeight ≤ py then none
    else some ⟨py * screenWidth + px, by
      change _ < 64 * 32
      simp only [screenWidth, screenHeight] at past ⊢
      omega⟩
  else some ⟨py % screenHeight * screenWidth + px % screenWidth, by
    change _ < 64 * 32
    simp only [screenWidth, screenHeight]
    omega⟩

/-- Whether column `c` of a sprite row is set; the most significant bit comes first. -/
def bitAt (row : UInt8) (c : Nat) : Bool := row.toNat.testBit (7 - c)

/-- The pixels hit by one row of a sprite whose left end is at `(x, y)`. -/
def rowHits (clip : Bool) (x y : Nat) (row : UInt8) : List Pixel :=
  (List.range 8).filterMap fun c => if bitAt row c then landing clip (x + c) y else none

/-- The pixels hit by a sprite with its upper left corner at `(x, y)`, row by row. -/
def hitsFrom (clip : Bool) (x y : Nat) : List UInt8 → List Pixel
  | [] => []
  | row :: rest => rowHits clip x y row ++ hitsFrom clip x (y + 1) rest

/-- The pixels hit by a sprite whose origin is any pair of integers; the origin wraps. -/
def hits (clip : Bool) (x y : Int) (sprite : List UInt8) : List Pixel :=
  hitsFrom clip (x % 64).toNat (y % 32).toNat sprite

/-- One pixel toggled; the collision flag is raised if it was lit. -/
def toggle (state : Vector Bool (screenWidth * screenHeight) × Bool) (p : Pixel) :
    Vector Bool (screenWidth * screenHeight) × Bool :=
  let lit := state.1[p]
  (state.1.set p (!lit) p.isLt, state.2 || lit)

/-- A sprite drawn at an origin: the frame after it, and whether a lit pixel was turned off. -/
def draw (s : Screen) (x y : Int) (sprite : List UInt8) (clip : Bool) : Screen × Bool :=
  let (pixels, collision) := (hits clip x y sprite).foldl toggle (s.pixels, false)
  (⟨pixels, true⟩, collision)

def litCount (s : Screen) : Nat := s.pixels.toList.count true

/-- The rows of the frame, top to bottom, each from left to right. -/
def rows (s : Screen) : List (List Bool) :=
  (List.range screenHeight).map fun y =>
    (List.range screenWidth).map fun x => s.pixels[y * screenWidth + x]?.getD false

/-- The frame as text: one line a row, with a text for lit and one for dark pixels. -/
def text (s : Screen) (on off : String) : String :=
  "\n".intercalate (s.rows.map fun row => String.join (row.map fun lit => if lit then on else off))

/-- The frame as reports show it. -/
def picture (s : Screen) : String := s.text "#" "."

/-- The pixel at a row-major position; negative positions count from the end. -/
def pixelAt (s : Screen) (x y : Int) : Except Refusal Bool :=
  (position (screenWidth * screenHeight) .noSuchPixel (y * screenWidth + x)).map (s.pixels[·])

/-- The pixel in a row and a column, each counted from the end when negative. -/
def pixelIn (s : Screen) (y x : Int) : Except Refusal Bool := do
  let row ← position screenHeight .noSuchRow y
  let column ← position screenWidth .noSuchColumn x
  return s.pixels[row.val * screenWidth + column.val]?.getD false

end Screen

end Chip8
