import Chip8.Yaml.Problem

/-! # Sources of documents

What there is to read of a document. A text is taken in pieces, and nothing is seen of a piece that
cannot be decoded or that holds a character that no document may hold. Where the reading ends
before it comes to such a piece, the piece does no harm.
-/

namespace Chip8.Yaml

open Text

/-- Whether a character may stand in a document. -/
def isAllowed (c : Char) : Bool :=
  let n := c.toNat
  n = 0x09 || n = 0x0A || n = 0x0D || (0x20 ≤ n && n ≤ 0x7E) || n = 0x85
    || (0xA0 ≤ n && n ≤ 0xD7FF) || (0xE000 ≤ n && n ≤ 0xFFFD) || 0x10000 ≤ n

/-- The text that can be read, and why there is no more of it if it does not simply end. -/
structure Source where
  text : List Char
  ending : Option Problem

namespace Source

/-- The number of characters of a piece. The first piece is twice as long. -/
abbrev pieceSize : Nat := 4096

/-- The number of characters in the pieces that are complete after this many characters. -/
def completePieces (count : Nat) : Nat :=
  if count < 2 * pieceSize then 0 else count / pieceSize * pieceSize

/-- The pieces of a text before one that is no text. -/
def decoded (text : List Char) : Option Utf8Problem → Source
  | none => ⟨text, none⟩
  | some problem => ⟨text.take (completePieces text.length), some (.encoding problem)⟩

/-- The pieces of a source before one with a character that is not allowed. -/
def allowed (source : Source) : Source :=
  match source.text.findIdx? fun c => !isAllowed c with
  | none => source
  | some index => ⟨source.text.take (completePieces index), some .malformed⟩

/-- The problem that counts if the character at an index shows one: beyond the text that can be
read, it is the end of that text. -/
def problemAt (source : Source) (index : Nat) (problem : Problem) : Problem :=
  if index < source.text.length then problem else source.ending.getD problem

/-- A text of which all that could be decoded is given, and the problem with the rest. -/
def ofText (text : List Char) (problem : Option Utf8Problem := none) : Source :=
  (decoded text problem).allowed

end Source

end Chip8.Yaml
