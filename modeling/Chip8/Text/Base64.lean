/-! # Base 64

Bytes written by letters, digits and two signs, of which four stand for three bytes. Characters of
no meaning are skipped. Equals signs fill up the last four; what follows them is not read.
-/

namespace Chip8.Text

/-- The value of a character as a digit of base 64. -/
def sextet? (c : Char) : Option Nat :=
  if 'A' ≤ c ∧ c ≤ 'Z' then some (c.toNat - 65)
  else if 'a' ≤ c ∧ c ≤ 'z' then some (c.toNat - 71)
  else if '0' ≤ c ∧ c ≤ '9' then some (c.toNat + 4)
  else if c = '+' then some 62
  else if c = '/' then some 63
  else none

/-- The bytes of a text from within a group of four digits: `place` digits of the group are read,
`left` is the value of the bits that are still unused, and `filled` equals signs in a row were seen
since the last digit. A group must be complete. -/
def groupBytes (place left filled : Nat) : List Char → Option (List UInt8)
  | [] => if place = 0 then some [] else none
  | c :: rest =>
      if c = '=' then
        if place < 2 then groupBytes place left filled rest
        else if 4 ≤ place + filled + 1 then some []
        else groupBytes place left (filled + 1) rest
      else
        match sextet? c with
        | none => groupBytes place left filled rest
        | some digit =>
            match place with
            | 0 => groupBytes 1 digit 0 rest
            | 1 => (groupBytes 2 (digit % 16) 0 rest).map (UInt8.ofNat (left * 4 + digit / 16) :: ·)
            | 2 => (groupBytes 3 (digit % 4) 0 rest).map (UInt8.ofNat (left * 16 + digit / 4) :: ·)
            | _ => (groupBytes 0 0 0 rest).map (UInt8.ofNat (left * 64 + digit) :: ·)

def base64Bytes? (text : List Char) : Option (List UInt8) := groupBytes 0 0 0 text

end Chip8.Text
