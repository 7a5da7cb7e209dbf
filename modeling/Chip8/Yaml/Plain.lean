import Chip8.Yaml.Quoted

/-! # Plain scalars

A scalar without quotes. It ends before a comment, a mapping value, an indicator of the flow
collection around it, or a line that is indented less; line ends inside are folded.
-/

namespace Chip8.Yaml

/-- Whether a plain scalar ends before a character that is followed by `next`. -/
def endsPlain (inFlow : Bool) (ch next : Char) : Bool :=
  isGap ch
    || (ch = ':' && (isGap next || (inFlow && next ∈ [',', '[', ']', '{', '}'])))
    || (inFlow && ch ∈ [',', '?', '[', ']', '{', '}'])

/-- The word of a plain scalar at the start of a text. -/
def plainWord (inFlow : Bool) : List Char → List Char
  | [] => []
  | ch :: rest =>
      if endsPlain inFlow ch (rest.headD '\x00') then [] else ch :: plainWord inFlow rest

/-- What stands between two words of a plain scalar: the text it reads as, whether a line ended,
and whether the scalar cannot go on. -/
structure PlainGap where
  text : List Char
  lineEnded : Bool
  closed : Bool
  next : Cursor

/-- The blanks and blank lines after the first line end of a gap. -/
def plainBreaks : Nat → Cursor → List Char → List Char × Bool × Cursor
  | 0, c, breaks => (breaks, false, c)
  | fuel + 1, c, breaks =>
      let c := c.skipBlanks
      match c.takeBreak? with
      | some (b, c) =>
          if c.atDocumentMarker then (breaks, true, c) else plainBreaks fuel c (breaks ++ [b])
      | none => (breaks, false, c)

def plainGap (c : Cursor) : PlainGap :=
  let (blanks, c) := c.takeWhile (· = ' ')
  match c.takeBreak? with
  | none => ⟨blanks, false, blanks = [], c⟩
  | some (first, c) =>
      if c.atDocumentMarker then ⟨[], true, true, c⟩
      else
        let (breaks, closed, c) := plainBreaks c.rounds c []
        if closed then ⟨[], true, true, c⟩ else ⟨folded first breaks, true, false, c⟩

structure PlainScalar where
  text : List Char
  /-- Whether the reading stopped at the beginning of a line. -/
  lineEnded : Bool
  next : Cursor

/-- The plain scalar here; `indent` is the least column of its further lines. -/
def readPlain (inFlow : Bool) (indent : Int) (c : Cursor) : PlainScalar :=
  go c.rounds c [] [] false
where
  go : Nat → Cursor → List Char → List Char → Bool → PlainScalar
    | 0, c, text, _, lineEnded => ⟨text, lineEnded, c⟩
    | fuel + 1, c, text, gap, lineEnded =>
        let word := plainWord inFlow c.rest
        if c.peek = '#' || word = [] then ⟨text, lineEnded, c⟩
        else
          let text := text ++ gap ++ word
          let after := plainGap (c.advance word.length)
          if after.closed || after.next.peek = '#'
              || (!inFlow && decide ((after.next.column : Int) < indent)) then
            ⟨text, after.lineEnded, after.next⟩
          else go fuel after.next text after.text after.lineEnded

end Chip8.Yaml
