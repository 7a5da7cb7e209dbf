import Chip8.Yaml.Source

/-! # Reading positions

A place in the text of a document: what is still to be read, and the line and column that decide
about indentation. Line ends are unified before, so a line ends at a line feed, a next-line
character or one of the two separators.
-/

namespace Chip8.Yaml

/-- A character that ends a line. -/
def isBreak (c : Char) : Bool :=
  c = '\n' || c.toNat = 0x85 || c.toNat = 0x2028 || c.toNat = 0x2029

/-- A character that ends a word: a blank, a line end, or the end of the text. -/
def isGap (c : Char) : Bool := c = '\x00' || c = ' ' || c = '\t' || isBreak c

/-- A character that ends a line, or the end of the text. -/
def isLineEnd (c : Char) : Bool := c = '\x00' || isBreak c

/-- A letter, a digit, a hyphen or an underscore. -/
def isNameChar (c : Char) : Bool := c.isAlphanum || c = '-' || c = '_'

structure Cursor where
  rest : List Char
  index : Nat
  line : Nat
  column : Nat

/-- A problem of the reading, and the index of the last character that was looked at. -/
structure Misreading where
  problem : Problem
  index : Nat

/-- A part of a text that is read, or why it cannot be. -/
abbrev Reads (α : Type) := Except Misreading α

namespace Cursor

/-- Refuse the character `ahead` places further on. -/
def refuse {α : Type} (c : Cursor) (ahead : Nat := 0) : Reads α :=
  .error ⟨.malformed, c.index + ahead⟩

def start (text : List Char) : Cursor := ⟨text, 0, 0, 0⟩

/-- The character `ahead` places further on. The end of the text reads as a null character, which
no document holds. -/
def peek (c : Cursor) (ahead : Nat := 0) : Char := c.rest.getD ahead '\x00'

/-- The place after some characters. A byte order mark takes no column. -/
def advance (c : Cursor) : Nat → Cursor
  | 0 => c
  | n + 1 =>
      match c.rest with
      | [] => c
      | ch :: rest =>
          let next : Cursor :=
            if isBreak ch then ⟨rest, c.index + 1, c.line + 1, 0⟩
            else if ch = '\uFEFF' then ⟨rest, c.index + 1, c.line, c.column⟩
            else ⟨rest, c.index + 1, c.line, c.column + 1⟩
          next.advance n

/-- The longest run of characters of a class, and the place after it. -/
def takeWhile (c : Cursor) (p : Char → Bool) : List Char × Cursor :=
  let run := c.rest.takeWhile p
  (run, c.advance run.length)

/-- The place after the longest run of characters of a class. -/
def skipWhile (c : Cursor) (p : Char → Bool) : Cursor := (c.takeWhile p).2

def skipBlanks (c : Cursor) : Cursor := c.skipWhile (· = ' ')

/-- The place after the comment that starts here, if one does. -/
def skipComment (c : Cursor) : Cursor :=
  if c.peek = '#' then c.skipWhile fun ch => !isBreak ch else c

/-- The line end here, if there is one: the next-line character counts as a line feed. -/
def takeBreak? (c : Cursor) : Option (Char × Cursor) :=
  let ch := c.peek
  if isBreak ch then some (if ch.toNat = 0x85 then '\n' else ch, c.advance 1) else none

/-- Whether a marker of three characters stands here as a word. -/
def atMarker (c : Cursor) (marker : List Char) : Bool :=
  c.rest.take 3 = marker && isGap (c.peek 3)

def atDocumentMarker (c : Cursor) : Bool :=
  c.atMarker ['-', '-', '-'] || c.atMarker ['.', '.', '.']

/-- A bound on the rounds of a loop that reads at least one character a round. -/
def rounds (c : Cursor) : Nat := c.rest.length + 1

end Cursor

end Chip8.Yaml
