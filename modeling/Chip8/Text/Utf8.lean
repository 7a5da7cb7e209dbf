import Chip8.Text.Quoted

/-! # UTF-8

Bytes decoded to characters, and texts that have no bytes. A byte sequence that starts no
character is refused at its first byte; one that breaks off is refused with the bytes that still
fitted. Files are decoded in blocks, and a refusal counts positions from the first byte that was not
decoded with an earlier block.
-/

namespace Chip8.Text

/-- Why bytes are no text. -/
inductive Utf8Reason where
  | invalidStart
  | invalidContinuation
  | unexpectedEnd
deriving DecidableEq, Repr

def Utf8Reason.message : Utf8Reason → String
  | invalidStart => "invalid start byte"
  | invalidContinuation => "invalid continuation byte"
  | unexpectedEnd => "unexpected end of data"

/-- Bytes that are no text: the first one, its position and the number of refused bytes. -/
structure Utf8Problem where
  byte : UInt8
  position : Nat
  count : Nat
  reason : Utf8Reason
deriving DecidableEq, Repr

/-- The sentence that describes bytes that are no text. -/
def Utf8Problem.message (p : Utf8Problem) : String :=
  let place :=
    if p.count = 1 then
      "byte 0x" ++ (zeroFilled 16 2 p.byte.toNat).toLower ++ " in position " ++ decimal p.position
    else
      "bytes in position " ++ decimal p.position ++ "-" ++ decimal (p.position + p.count - 1)
  "'utf-8' codec can't decode " ++ place ++ ": " ++ p.reason.message

/-- The sentence that describes a text that has no bytes, as it has halves of pairs: it names the
first of them, and those right behind it. -/
def noEncodingMessage (text : CodeText) : String :=
  let before := text.takeWhile fun p => p.char?.isSome
  let halves := (text.drop before.length).takeWhile fun p => p.char?.isNone
  let place :=
    if halves.length = 1 then
      "character '" ++ escapedCodes halves ++ "' in position " ++ decimal before.length
    else
      "characters in position " ++ decimal before.length ++ "-"
        ++ decimal (before.length + halves.length - 1)
  "'utf-8' codec can't encode " ++ place ++ ": surrogates not allowed"

namespace Utf8

def isTail (b : UInt8) : Bool := 0x80 ≤ b && b ≤ 0xBF

/-- Whether a byte may follow a lead byte of three or four bytes: no overlong form, no surrogate,
nothing beyond the last code point. -/
def isSecond (lead b : UInt8) : Bool :=
  isTail b
    && (lead != 0xE0 || 0xA0 ≤ b) && (lead != 0xED || b ≤ 0x9F)
    && (lead != 0xF0 || 0x90 ≤ b) && (lead != 0xF4 || b ≤ 0x8F)

/-- The number of bytes of a character with this lead byte; zero for a byte that leads none. -/
def width (lead : UInt8) : Nat :=
  if lead ≤ 0x7F then 1
  else if lead < 0xC2 then 0
  else if lead ≤ 0xDF then 2
  else if lead ≤ 0xEF then 3
  else if lead ≤ 0xF4 then 4
  else 0

/-- How many of the bytes after a lead byte fit it, at most `wanted`. -/
def fitting (lead : UInt8) (wanted : Nat) (rest : List UInt8) : Nat :=
  match wanted, rest with
  | 0, _ => 0
  | _, [] => 0
  | wanted + 1, b :: rest =>
      if isSecond lead b then 1 + ((rest.take wanted).takeWhile isTail).length else 0

/-- The character of a lead byte and its tail. -/
def assemble (lead : UInt8) (tail : List UInt8) : Char :=
  let head := match tail.length with
    | 0 => lead.toNat
    | 1 => lead.toNat % 32
    | 2 => lead.toNat % 16
    | _ => lead.toNat % 8
  Char.ofNat (tail.foldl (fun code b => code * 64 + b.toNat % 64) head)

/-- The decoded characters in reverse and the bytes of a character that is not complete yet, or
the first refusal. At the end of the data an incomplete character is refused. -/
def decodeFrom (atEnd : Bool) (position : Nat) (done : List Char) :
    List UInt8 → Except Utf8Problem (List Char × List UInt8)
  | [] => .ok (done, [])
  | lead :: rest =>
      let count := width lead
      if count = 0 then .error ⟨lead, position, 1, .invalidStart⟩
      else
        let fit := fitting lead (count - 1) rest
        if fit = count - 1 then
          decodeFrom atEnd (position + count) (assemble lead (rest.take fit) :: done)
            (rest.drop fit)
        else if fit < rest.length then .error ⟨lead, position, fit + 1, .invalidContinuation⟩
        else if atEnd then .error ⟨lead, position, fit + 1, .unexpectedEnd⟩
        else .ok (done, lead :: rest)
termination_by bytes => bytes.length
decreasing_by
  simp only [List.length_cons, List.length_drop]
  omega

/-- The number of bytes read from a file at a time. -/
abbrev blockSize : Nat := 8192

def blocks (bytes : List UInt8) : List (List UInt8) :=
  if _long : blockSize < bytes.length then bytes.take blockSize :: blocks (bytes.drop blockSize)
  else if bytes = [] then [] else [bytes]
termination_by bytes.length
decreasing_by
  have bound : 8192 < bytes.length := _long
  rw [List.length_drop]
  change bytes.length - 8192 < bytes.length
  omega

/-- The characters of successive blocks after the bytes left over from the block before. A refusal
comes with the characters of the blocks before it. -/
def decodeBlocks (done : List Char) (left : List UInt8) :
    List (List UInt8) → List Char × Option Utf8Problem
  | [] =>
      match decodeFrom true 0 done left with
      | .ok (all, _) => (all.reverse, none)
      | .error problem => (done.reverse, some problem)
  | block :: rest =>
      match decodeFrom false 0 done (left ++ block) with
      | .ok (all, left) => decodeBlocks all left rest
      | .error problem => (done.reverse, some problem)

end Utf8

/-- Line ends of every kind written as a line feed. -/
def unifyLineEnds : List Char → List Char
  | '\r' :: '\n' :: rest => '\n' :: unifyLineEnds rest
  | '\r' :: rest => '\n' :: unifyLineEnds rest
  | c :: rest => c :: unifyLineEnds rest
  | [] => []

/-- A text without a carriage return at its end. -/
def dropHeldReturn (text : List Char) : List Char :=
  if text.getLast? = some '\r' then text.dropLast else text

/-- The text of a file with unified line ends, up to the block with the first refusal. A carriage
return just before that block is held back, as a line feed might follow it. -/
def readText (bytes : List UInt8) : List Char × Option Utf8Problem :=
  match Utf8.decodeBlocks [] [] (Utf8.blocks bytes) with
  | (text, none) => (unifyLineEnds text, none)
  | (text, some problem) => (unifyLineEnds (dropHeldReturn text), some problem)

/-- The lines of a text, without their line feeds; what follows the last line feed is a line unless
it is empty. -/
def lines (text : List Char) : List (List Char) :=
  let parts := text.splitOnP (· = '\n')
  if parts.getLast? = some [] then parts.dropLast else parts

end Chip8.Text
