import Chip8.Text.Blank
import Chip8.Text.DecimalDigit

/-! # Integer literals

A sign, digits of the base with single underscores between them, blanks around. In the
bases two, eight and sixteen `0b`, `0o` and `0x` may precede the digits, with an underscore after
it. Digits of any script count. A decimal
literal may have 4300 digits.
-/

namespace Chip8.Number

open Text

inductive IntegerProblem where
  | malformed
  /-- More decimal digits than a literal may have. -/
  | tooLong (digits : Nat)
deriving DecidableEq, Repr

abbrev maxDecimalDigits : Nat := 4300

/-- A character as numbers see it: digits of every script as the basic ones, wide blanks as the
basic blank, any other character beyond the basic set as one that no number has. -/
def basicChar (c : Char) : Char :=
  if c.toNat < 0x7F then c
  else if isWideBlank c then ' '
  else match digitValue? c with
    | some d => Char.ofNat (48 + d)
    | none => '?'

/-- The value of a basic character as a digit of a base. -/
def digitIn (base : Nat) (c : Char) : Option Nat :=
  let value :=
    if '0' ≤ c ∧ c ≤ '9' then c.toNat - 48
    else if 'a' ≤ c ∧ c ≤ 'z' then c.toNat - 87
    else if 'A' ≤ c ∧ c ≤ 'Z' then c.toNat - 55
    else base
  if value < base then some value else none

/-- Underscores only between two characters that are none. -/
def wellSeparated : List Char → Bool
  | [] => false
  | ['_'] => false
  | [_] => true
  | '_' :: _ => false
  | _ :: '_' :: rest => wellSeparated rest
  | _ :: rest => wellSeparated rest

/-- A text without its sign, and whether the sign was a minus. -/
def splitSign : List Char → Bool × List Char
  | '-' :: rest => (true, rest)
  | '+' :: rest => (false, rest)
  | cs => (false, cs)

/-- The letter that marks a base after a zero, if the base has one. -/
def baseMark? : Nat → Option Char
  | 2 => some 'b'
  | 8 => some 'o'
  | 16 => some 'x'
  | _ => none

/-- A text without the mark of its base and one underscore after it. -/
def dropBaseMark (base : Nat) : List Char → List Char
  | '0' :: x :: rest =>
      if baseMark? base = some x.toLower then
        match rest with
        | '_' :: digits => digits
        | digits => digits
      else '0' :: x :: rest
  | cs => cs

/-- The number written by digits of a base. -/
def valueOf (base : Nat) (digits : List Char) : Nat :=
  digits.foldl (fun value c => value * base + (digitIn base c).getD 0) 0

def readInteger (base : Nat) (text : List Char) : Except IntegerProblem Int :=
  let (negative, unsigned) := splitSign ((text.map basicChar).dropWhile isPlainBlank)
  let body := dropBaseMark base unsigned
  let isPart := fun c => c = '_' || (digitIn base c).isSome
  let (run, rest) := (body.takeWhile isPart, body.dropWhile isPart)
  let digits := run.filter (· ≠ '_')
  if !wellSeparated run then .error .malformed
  else if base = 10 ∧ maxDecimalDigits < digits.length then .error (.tooLong digits.length)
  else if !rest.all isPlainBlank then .error .malformed
  else
    let value : Int := valueOf base digits
    .ok (if negative then -value else value)

end Chip8.Number
