import Chip8.Proofs.SpriteHits

/-! # Pictures of the screen

The frame as text: a line for each row and a character for each pixel. The text says where each
pixel stands and whether it is lit, so the frame can be read off it.
-/

namespace Chip8.Screen

/-- The character of a pixel in a picture. -/
def mark (lit : Bool) : Char := if lit then '#' else '.'

theorem mark_injective : Function.Injective mark := by
  unfold Function.Injective
  decide

def textLines (text : String) : List (List Char) := text.toList.splitOn '\n'

/-- A text shows a frame: it has a line for each row and in it a mark for each pixel of the row. -/
structure ShownBy (pixels : Vector Bool (screenWidth * screenHeight)) (text : String) : Prop where
  height : (textLines text).length = 32
  width : ∀ line ∈ textLines text, line.length = 64
  marks (p : Pixel) :
    ((textLines text)[p.row]?.bind fun shown => shown[p.column]?) = some (mark (pixels.get p))

variable {s : Screen} {text : String}

theorem toList_line (row : List Bool) :
    (String.join (row.map fun lit => if lit then "#" else ".")).toList = row.map mark := by
  rw [String.toList_join]
  induction row with
  | nil => rfl
  | cons lit rest ih =>
    rw [List.map_cons, List.flatMap_cons, ih]
    cases lit <;> rfl

/-- The lines of the picture are the rows. -/
theorem textLines_picture (s : Screen) : textLines s.picture = s.rows.map (·.map mark) := by
  have drawn : s.picture.toList = ['\n'].intercalate (s.rows.map (·.map mark)) := by
    rw [picture, Screen.text, String.toList_intercalate, List.map_map]
    refine congrArg (['\n'].intercalate ·) ?_
    exact List.map_congr_left fun row _ => toList_line row
  have noBreak : ∀ shown ∈ s.rows.map (·.map mark), '\n' ∉ shown := by
    intro shown member
    obtain ⟨row, -, rfl⟩ := List.mem_map.mp member
    simp [mark]
  have some : s.rows.map (·.map mark) ≠ [] := by
    rw [Ne, List.map_eq_nil_iff, rows, List.map_eq_nil_iff, List.range_eq_nil]
    decide
  rw [textLines, drawn, List.splitOn_intercalate '\n' noBreak some]

theorem row_lt (p : Pixel) : p.row < screenHeight := Nat.div_lt_of_lt_mul p.isLt

theorem column_lt (p : Pixel) : p.column < screenWidth := Nat.mod_lt _ (by decide)

/-- A pixel stands in its row at its column. -/
theorem getElem?_rows (s : Screen) (p : Pixel) :
    (s.rows[p.row]?.bind fun row => row[p.column]?) = some (s.pixels.get p) := by
  have place : p.row * screenWidth + p.column = p.val := by
    rw [Nat.mul_comm]
    exact Nat.div_add_mod p.val screenWidth
  have lit : s.pixels[p.val]? = some (s.pixels.get p) := Vector.getElem?_eq_getElem p.isLt
  rw [rows, List.getElem?_map, List.getElem?_range (row_lt p), Option.map_some, Option.bind_some,
    List.getElem?_map, List.getElem?_range (column_lt p), Option.map_some, place, lit,
    Option.getD_some]

/-- The picture shows the frame. -/
theorem shownBy_picture (s : Screen) : ShownBy s.pixels s.picture where
  height := by rw [textLines_picture, List.length_map, rows, List.length_map, List.length_range]
  width := by
    intro line member
    rw [textLines_picture, rows, List.map_map] at member
    obtain ⟨y, -, rfl⟩ := List.mem_map.mp member
    rw [Function.comp_apply, List.length_map, List.length_map, List.length_range]
  marks p := by
    rw [textLines_picture, List.getElem?_map, Option.bind_map, ← Option.map_some,
      ← getElem?_rows s p, Option.map_bind]
    simp only [Function.comp_def, List.getElem?_map]

/-- A text shows one frame at most. -/
theorem ShownBy.unique {pixels pixels' : Vector Bool (screenWidth * screenHeight)}
    (shown : ShownBy pixels text) (shown' : ShownBy pixels' text) : pixels = pixels' := by
  ext i inside
  have same := (shown.marks ⟨i, inside⟩).symm.trans (shown'.marks ⟨i, inside⟩)
  exact mark_injective (Option.some.inj same)

end Chip8.Screen
