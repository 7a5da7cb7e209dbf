import Chip8.Text.CodePoint
import Chip8.Text.LetterCase

/-! # Lower case

A text in small letters. Two letters are special: a capital I with a dot keeps the dot as a mark of
its own, and a capital sigma at the end of a word becomes the final sigma.
-/

namespace Chip8.Text

/-- Whether the first letter of a text that counts is one with a case. -/
def meetsCased (text : CodeText) : Bool :=
  match text.dropWhile fun p => p.char?.any isPassedOver with
  | .char c :: _ => isCased c
  | _ => false

/-- The small letters of a text; `before` is what precedes it, the last one first. -/
def lowerAfter (before : CodeText) : CodeText → CodeText
  | [] => []
  | p :: rest =>
      let small : CodeText := match p with
        | .half _ => [p]
        | .char 'Σ' => [.char (if meetsCased before && !meetsCased rest then 'ς' else 'σ')]
        | .char 'İ' => [.char 'i', .char '\u0307']
        | .char c => [.char (smallLetter c)]
      small ++ lowerAfter (p :: before) rest

/-- A text in small letters. -/
def lowerCase (text : CodeText) : CodeText := lowerAfter [] text

end Chip8.Text
