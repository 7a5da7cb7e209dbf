import Chip8.Yaml.Cursor

/-! # Quoted scalars

The text between apostrophes or quotation marks. A line end inside is folded: alone it reads as a
blank, and blank lines after it read as line feeds. Between quotation marks a backslash starts an
escape; between apostrophes a doubled apostrophe stands for one.
-/

namespace Chip8.Yaml

open Text

def escapedChar? (c : Char) : Option Char :=
  match c with
  | '0' => some '\x00'
  | 'a' => some '\x07'
  | 'b' => some '\x08'
  | 't' => some '\t'
  | '\t' => some '\t'
  | 'n' => some '\n'
  | 'v' => some '\x0B'
  | 'f' => some '\x0C'
  | 'r' => some '\r'
  | 'e' => some '\x1B'
  | ' ' => some ' '
  | '"' => some '"'
  | '\\' => some '\\'
  | '/' => some '/'
  | 'N' => some '\u0085'
  | '_' => some '\u00A0'
  | 'L' => some '\u2028'
  | 'P' => some '\u2029'
  | _ => none

/-- The number of hexadecimal digits after an escape letter. -/
def escapeWidth? (c : Char) : Option Nat :=
  match c with
  | 'x' => some 2
  | 'u' => some 4
  | 'U' => some 8
  | _ => none

/-- The line ends of the blank lines here; a document marker must not stand among them. -/
def blankLines (c : Cursor) : Reads (List Char × Cursor) :=
  go c.rounds c []
where
  go : Nat → Cursor → List Char → Reads (List Char × Cursor)
    | 0, c, breaks => .ok (breaks, c)
    | fuel + 1, c, breaks =>
        if c.atDocumentMarker then c.refuse 3
        else
          let c := c.skipWhile fun ch => ch = ' ' || ch = '\t'
          match c.takeBreak? with
          | some (b, c) => go fuel c (breaks ++ [b])
          | none => .ok (breaks, c)

def folded (first : Char) (breaks : List Char) : List Char :=
  (if first ≠ '\n' then [first] else if breaks = [] then [' '] else []) ++ breaks

/-- The code point written by an escape of a number of hexadecimal digits. -/
def escapedCode (c : Cursor) (width : Nat) : Reads (CodePoint × Cursor) :=
  let digits := (c.rest.take width).takeWhile fun ch => (Number.digitIn 16 ch).isSome
  if digits.length = width then
    let code := Number.valueOf 16 digits
    let fail := fun (problem : ScalarProblem) => .error ⟨.scalar problem, c.index + width - 1⟩
    match CodePoint.ofNat? code with
    | some point => .ok (point, c.advance width)
    | none => if code < 0x80000000 then fail .noSuchCodePoint else fail .codePointTooWide
  else c.refuse digits.length

def readEscape (c : Cursor) : Reads (CodeText × Cursor) :=
  let letter := c.peek
  match escapedChar? letter, escapeWidth? letter, c.takeBreak? with
  | some ch, _, _ => .ok ([.char ch], c.advance 1)
  | none, some width, _ => do
      let (point, c) ← escapedCode (c.advance 1) width
      return ([point], c)
  | none, none, some (_, c) => do
      let (breaks, c) ← blankLines c
      return (codes breaks, c)
  | none, none, none => c.refuse

/-- A run without blanks and line ends. -/
def quotedWord (double : Bool) (c : Cursor) : Reads (CodeText × Cursor) :=
  go c.rounds c []
where
  go : Nat → Cursor → CodeText → Reads (CodeText × Cursor)
    | 0, c, text => .ok (text, c)
    | fuel + 1, c, text =>
        let plain := fun ch => !(ch = '\'' || ch = '"' || ch = '\\' || isGap ch)
        let (run, c) := c.takeWhile plain
        let text := text ++ codes run
        let ch := c.peek
        if !double && ch = '\'' && c.peek 1 = '\'' then
          go fuel (c.advance 2) (text ++ [.char '\''])
        else if (double && ch = '\'') || (!double && (ch = '"' || ch = '\\')) then
          go fuel (c.advance 1) (text ++ [.char ch])
        else if double && ch = '\\' then
          match readEscape (c.advance 1) with
          | .ok (points, c) => go fuel c (text ++ points)
          | .error problem => .error problem
        else .ok (text, c)

/-- A run of blanks or folded line ends. -/
def quotedGap (c : Cursor) : Reads (List Char × Cursor) := do
  let (blanks, c) := c.takeWhile fun ch => ch = ' ' || ch = '\t'
  match c.takeBreak? with
  | some (first, c) =>
      let (breaks, c) ← blankLines c
      return (folded first breaks, c)
  | none => if c.rest = [] then c.refuse else return (blanks, c)

/-- The scalar between the quote here and the next one that closes it. -/
def readQuoted (c : Cursor) : Reads (CodeText × Cursor) := do
  let quote := c.peek
  let double := quote = '"'
  let rec go : Nat → Cursor → CodeText → Reads (CodeText × Cursor)
    | 0, c, _ => c.refuse
    | fuel + 1, c, text =>
        if c.peek = quote then .ok (text, c.advance 1)
        else do
          let (gap, c) ← quotedGap c
          let (word, c) ← quotedWord double c
          go fuel c (text ++ codes gap ++ word)
  let (word, c) ← quotedWord double (c.advance 1)
  go c.rounds c word

end Chip8.Yaml
