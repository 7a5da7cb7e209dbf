/-! # Numerals

Integers written in a base, in capital digits, and filled up to a width. A sign counts towards the
width; filling zeros stand after the sign, filling blanks before it.
-/

namespace Chip8.Text

/-- The digits of a natural number in a base up to sixteen, with capital letters. -/
def digits (base n : Nat) : List Char := (Nat.toDigits base n).map Char.toUpper

/-- An integer in a base, with a minus sign if it is negative. -/
def numeral (base : Nat) (z : Int) : String :=
  if z < 0 then "-" ++ String.ofList (digits base z.natAbs)
  else String.ofList (digits base z.natAbs)

/-- An integer in a base, with zeros after the sign up to the width. -/
def zeroFilled (base width : Nat) (z : Int) : String :=
  let body := digits base z.natAbs
  if z < 0 then "-" ++ String.ofList (List.replicate (width - 1 - body.length) '0' ++ body)
  else String.ofList (List.replicate (width - body.length) '0' ++ body)

/-- A text with blanks before it up to the width. -/
def alignRight (width : Nat) (s : String) : String :=
  String.ofList (List.replicate (width - s.length) ' ') ++ s

/-- A text with blanks after it up to the width. -/
def alignLeft (width : Nat) (s : String) : String :=
  s ++ String.ofList (List.replicate (width - s.length) ' ')

/-- An integer in capital hexadecimal digits. -/
def hex (z : Int) : String := numeral 16 z

/-- An integer in at least two capital hexadecimal digits. -/
def hex2 (z : Int) : String := zeroFilled 16 2 z

/-- An integer in at least three capital hexadecimal digits. -/
def hex3 (z : Int) : String := zeroFilled 16 3 z

/-- An integer in at least four capital hexadecimal digits. -/
def hex4 (z : Int) : String := zeroFilled 16 4 z

def decimal (z : Int) : String := numeral 10 z

/-- A byte string in pairs of capital hexadecimal digits, one blank between two bytes. -/
def hexBytes (bytes : List UInt8) : String :=
  " ".intercalate (bytes.map fun b => hex2 b.toNat)

end Chip8.Text
