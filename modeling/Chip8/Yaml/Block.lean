import Chip8.Yaml.Cursor

/-! # Block scalars

The indented lines after a bar or an angle bracket. A literal scalar keeps its line ends; a folded
one reads a single line end between two unindented lines as a blank. A sign in the header says
whether the line ends at the end are all kept or all dropped; otherwise one is kept.
-/

namespace Chip8.Yaml

/-- What the header of a block scalar says about the line ends at its end. -/
inductive Chomping where
  | clip
  | keep
  | strip
deriving DecidableEq, Repr

structure BlockHeader where
  chomping : Chomping
  increment : Option Nat

/-- The sign of a header here, if there is one. -/
def readChomping (c : Cursor) : Option Chomping × Cursor :=
  if c.peek = '+' then (some .keep, c.advance 1)
  else if c.peek = '-' then (some .strip, c.advance 1)
  else (none, c)

/-- The indentation of a header here, if there is one: a digit other than zero. -/
def readIncrement (c : Cursor) : Reads (Option Nat × Cursor) :=
  let ch := c.peek
  if ch = '0' then c.refuse
  else if '1' ≤ ch && ch ≤ '9' then .ok (some (ch.toNat - 48), c.advance 1)
  else .ok (none, c)

/-- The rest of a header line: blanks, a comment, the line end. -/
def endHeaderLine (c : Cursor) : Reads Cursor :=
  let c := c.skipBlanks.skipComment
  match c.takeBreak? with
  | some (_, c) => .ok c
  | none => if c.rest = [] then .ok c else c.refuse

/-- The header after the indicator: sign and indentation in either order. -/
def readHeader (c : Cursor) : Reads (BlockHeader × Cursor) := do
  let (before, c) := readChomping c
  let (increment, c) ← readIncrement c
  let (after, c) := if before.isNone ∧ increment.isSome then readChomping c else (none, c)
  if isLineEnd c.peek || c.peek = ' ' then
    return (⟨(before.or after).getD .clip, increment⟩, ← endHeaderLine c)
  else c.refuse

/-- Blank lines at the start of a scalar whose indentation is not given: their line ends and the
widest of them. -/
def leadingBreaks : Nat → Cursor → List Char → Nat → List Char × Nat × Cursor
  | 0, c, breaks, widest => (breaks, widest, c)
  | fuel + 1, c, breaks, widest =>
      if c.peek = ' ' then
        let c := c.advance 1
        leadingBreaks fuel c breaks (max widest c.column)
      else match c.takeBreak? with
        | some (b, c) => leadingBreaks fuel c (breaks ++ [b]) widest
        | none => (breaks, widest, c)

/-- The place after at most as many blanks as reach the indentation. -/
def skipIndent (indent : Nat) (c : Cursor) : Cursor :=
  c.advance (min (indent - c.column) (c.rest.takeWhile (· = ' ')).length)

/-- The line ends of blank lines, and the place on the next line after its indentation. -/
def innerBreaks (indent : Nat) : Nat → Cursor → List Char → List Char × Cursor
  | 0, c, breaks => (breaks, c)
  | fuel + 1, c, breaks =>
      let c := skipIndent indent c
      match c.takeBreak? with
      | some (b, c) => innerBreaks indent fuel c (breaks ++ [b])
      | none => (breaks, c)

/-- The lines of a block scalar from the place after the indentation of one of them; `breaks` are
the blank lines before it. -/
def blockLines (isFolded : Bool) (chomping : Chomping) (indent : Nat) :
    Nat → Cursor → (text breaks : List Char) → (lineEnd : List Char) → List Char × Cursor
  | 0, c, text, _, _ => (text, c)
  | fuel + 1, c, text, breaks, lineEnd =>
      let finished := fun (text breaks lineEnd : List Char) (c : Cursor) =>
        (text ++ (if chomping ≠ .strip then lineEnd else [])
          ++ (if chomping = .keep then breaks else []), c)
      if c.column = indent ∧ c.rest ≠ [] then
        let startsBlank := c.peek = ' ' || c.peek = '\t'
        let (line, c) := c.takeWhile fun ch => !isBreak ch
        let text := text ++ breaks ++ line
        let (lineEnd, c) : List Char × Cursor := match c.takeBreak? with
          | some (b, c) => ([b], c)
          | none => ([], c)
        let (breaks, c) := innerBreaks indent c.rounds c []
        if c.column = indent ∧ c.rest ≠ [] then
          let goesOnBlank := c.peek = ' ' || c.peek = '\t'
          let joint :=
            if isFolded && lineEnd = ['\n'] && !startsBlank && !goesOnBlank then
              if breaks = [] then [' '] else []
            else lineEnd
          blockLines isFolded chomping indent fuel c (text ++ joint) breaks lineEnd
        else finished text breaks lineEnd c
      else finished text breaks lineEnd c

/-- The block scalar whose indicator stands here; `indent` is the indentation around it. -/
def readBlock (indent : Int) (c : Cursor) : Reads (List Char × Cursor) := do
  let isFolded := c.peek = '>'
  let (header, c) ← readHeader (c.advance 1)
  let least := (max (indent + 1) 1).toNat
  let (breaks, indent, c) := match header.increment with
    | none =>
        let (breaks, widest, c) := leadingBreaks c.rounds c [] 0
        (breaks, max least widest, c)
    | some increment =>
        let indent := least + increment - 1
        let (breaks, c) := innerBreaks indent c.rounds c []
        (breaks, indent, c)
  let (text, c) := blockLines isFolded header.chomping indent c.rounds c [] breaks []
  return (text, c)

end Chip8.Yaml
