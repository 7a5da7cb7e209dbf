import Chip8.Fault

/-! # The keypad

Sixteen keys, each with its level (down or up) and a latch that remembers whether the key went
down since the latch was last emptied. Levels and latch have different lifetimes: taking or
clearing the edges empties the latch and keeps the levels.
-/

namespace Chip8

/-- Levels and latched press edges of the sixteen keys. -/
structure Keypad where
  down : Vector Bool 16
  edges : Vector Bool 16
deriving DecidableEq

namespace Keypad

/-- All keys up, nothing latched. -/
def initial : Keypad := ⟨Vector.replicate 16 false, Vector.replicate 16 false⟩

def clearEdges (k : Keypad) : Keypad := { k with edges := Vector.replicate 16 false }

def reset (k : Keypad) : Keypad := { k with down := Vector.replicate 16 false }.clearEdges

/-- A key moved to a level; going down latches an edge. -/
def move (k : Keypad) (key : Fin 16) (pressed : Bool) : Keypad where
  down := k.down.setIfInBounds key pressed
  edges := k.edges.setIfInBounds key (k.edges.get key || (pressed && !k.down.get key))

/-- The key event of a host: keys outside `0..15` are refused. -/
def setKey (k : Keypad) (index : Int) (pressed : Bool) : Except Refusal Keypad :=
  if inside : index.toNat < 16 ∧ 0 ≤ index then .ok (k.move ⟨index.toNat, inside.1⟩ pressed)
  else .error (.noSuchKey index)

/-- The level of the key that the last hexadecimal digit of a number names. -/
def isPressed (k : Keypad) (index : Int) : Bool :=
  k.down[(index % 16).toNat]?.getD false

def firstEdge (k : Keypad) : Option (Fin 16) := (List.finRange 16).find? k.edges.get

/-- The smallest latched key, if any, and the keypad with the latch empty. -/
def takeEdge (k : Keypad) : Option (Fin 16) × Keypad :=
  match k.firstEdge with
  | none => (none, k)
  | some key => (some key, k.clearEdges)

variable {k : Keypad} {key other : Fin 16} {index : Int} {pressed : Bool}

theorem edges_clearEdges : k.clearEdges.edges.get key = false :=
  Vector.getElem_replicate key.isLt

theorem setKey_val (k : Keypad) (key : Fin 16) (pressed : Bool) :
    k.setKey key.val pressed = .ok (k.move key pressed) := by
  have inside : (key.val : Int).toNat < 16 ∧ (0 : Int) ≤ key.val := by
    have := key.isLt
    omega
  exact dif_pos inside

theorem setKey_outside (outside : ∀ key : Fin 16, index ≠ key.val) :
    k.setKey index pressed = .error (.noSuchKey index) := by
  apply dif_neg
  rintro ⟨bound, positive⟩
  exact outside ⟨index.toNat, bound⟩ (Int.toNat_of_nonneg positive).symm

/-- An entry of a vector of sixteen after one entry is replaced. -/
theorem get_setIfInBounds (v : Vector Bool 16) (value : Bool) :
    (v.setIfInBounds key value).get other = if key = other then value else v.get other := by
  simp only [Fin.ext_iff]
  exact Vector.getElem_setIfInBounds other.isLt

theorem down_move :
    (k.move key pressed).down.get other = if key = other then pressed else k.down.get other :=
  get_setIfInBounds k.down pressed

theorem edges_move :
    (k.move key pressed).edges.get other =
      if key = other then k.edges.get key || (pressed && !k.down.get key)
      else k.edges.get other :=
  get_setIfInBounds k.edges _

end Keypad

end Chip8
