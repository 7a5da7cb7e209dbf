import Chip8.FileTree
import Chip8.Number.Reading
import Chip8.Schedule
import Chip8.Text.Blank
import Chip8.Text.Utf8

/-! # Schedule files

A schedule as text: one event a line, written as the frame in decimal digits, the key in
hexadecimal ones and the level. Blank lines and lines that begin with a number sign are skipped.
The first line that is no event ends the reading.
-/

namespace Chip8.Schedule

open Text Number

/-- The test that a line fails first. -/
inductive LineFlaw where
  /-- Not three words, or the third one is no level. -/
  | shape
  /-- The frame or the key is no number. -/
  | number
  /-- The frame is negative or there is no such key. -/
  | range
deriving DecidableEq, Repr

inductive ScheduleProblem where
  | badLine (flaw : LineFlaw) (line : String)
  | unreadable (problem : FileProblem)
  /-- A file that is no text. -/
  | encoding (problem : Utf8Problem)
deriving DecidableEq, Repr

def LineFlaw.remark : LineFlaw → String
  | shape => ""
  | number => " (bad frame or key)"
  | range => " (out of range)"

/-- Whether the problem is caught: a refusal of the operating system is not. -/
def ScheduleProblem.isCaught : ScheduleProblem → Bool
  | badLine .. => true
  | unreadable problem => !problem.isSystem
  | encoding _ => true

def ScheduleProblem.message : ScheduleProblem → String
  | badLine flaw line => "Bad schedule line" ++ flaw.remark ++ ": " ++ quoted line
  | unreadable problem => problem.message
  | encoding problem => problem.message

/-- The level that a word names, in any case of letters. -/
def levelOf? (word : List Char) : Option Bool :=
  let word := word.map Char.toLower
  if word = "down".toList then some true else if word = "up".toList then some false else none

/-- The event of a line without white space at its ends. -/
def readLine (line : List Char) : Except LineFlaw KeyEvent :=
  match words line with
  | [frame, key, level] =>
      match levelOf? level with
      | none => .error .shape
      | some pressed =>
          match readInteger 10 frame, readInteger 16 key with
          | .ok frame, .ok key =>
              if frame < 0 ∨ key < 0 ∨ 15 < key then .error .range else .ok ⟨frame, key, pressed⟩
          | _, _ => .error .number
  | _ => .error .shape

/-- Whether a line without white space at its ends is skipped. -/
def isSkipped (line : List Char) : Bool := line.isEmpty || line.head? = some '#'

def readLines : List (List Char) → Except ScheduleProblem (List KeyEvent)
  | [] => .ok []
  | line :: rest =>
      let line := strip line
      if isSkipped line then readLines rest
      else
        match readLine line with
        | .error flaw => .error (.badLine flaw (String.ofList line))
        | .ok event => (readLines rest).map (event :: ·)

def ofText (text : List Char) : Except ScheduleProblem (List KeyEvent) := readLines (lines text)

def endedLines (text : List Char) : List (List Char) := (text.splitOnP (· = '\n')).dropLast

/-- The events of a file. Where it is no text, the lines before that are judged first. -/
def ofBytes (bytes : List UInt8) : Except ScheduleProblem (List KeyEvent) :=
  match readText bytes with
  | (text, none) => ofText text
  | (text, some problem) => do
      let _ ← readLines (endedLines text)
      throw (.encoding problem)

def ofFile (tree : FileTree) (path : String) : Except ScheduleProblem (List KeyEvent) :=
  match tree.read path with
  | .error problem => .error (.unreadable problem)
  | .ok bytes => ofBytes bytes

end Chip8.Schedule
