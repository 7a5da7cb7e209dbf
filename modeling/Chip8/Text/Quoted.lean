import Chip8.Text.CodePoint
import Chip8.Text.Numeral
import Chip8.Text.Printable

/-! # Quoted text

How messages quote a text: between apostrophes, or between quotation marks if it has an apostrophe
and no quotation mark. The quote, the backslash and unprintable characters are escaped. Bytes are
quoted in the same way after a letter, and all of them beyond the basic set are escaped.
-/

namespace Chip8.Text

/-- A hexadecimal escape of a given width, in small letters. -/
def hexEscape (letter : Char) (width code : Nat) : List Char :=
  let body := Nat.toDigits 16 code
  '\\' :: letter :: (List.replicate (width - body.length) '0' ++ body)

def quotedChar (quote c : Char) : List Char :=
  if c = quote || c = '\\' then ['\\', c]
  else if c = '\t' then ['\\', 't']
  else if c = '\n' then ['\\', 'n']
  else if c = '\r' then ['\\', 'r']
  else if isPrintable c then [c]
  else if c.toNat < 0x100 then hexEscape 'x' 2 c.toNat
  else if c.toNat < 0x10000 then hexEscape 'u' 4 c.toNat
  else hexEscape 'U' 8 c.toNat

def quotedPoint (quote : Char) : CodePoint → List Char
  | .char c => quotedChar quote c
  | .half number => hexEscape 'u' 4 (CodePoint.half number).code

def quoteFor (cs : List Char) : Char := if '\'' ∈ cs ∧ '"' ∉ cs then '"' else '\''

/-- A text of code points between quotes. -/
def quotedCodes (text : CodeText) : String :=
  let quote := quoteFor (text.map CodePoint.visible)
  String.ofList (quote :: text.flatMap (quotedPoint quote) ++ [quote])

def quoted (s : String) : String := quotedCodes (codes s.toList)

def escapedCodes (text : CodeText) : String :=
  String.ofList (text.flatMap fun p =>
    match p with
    | .char c => [c]
    | .half _ => hexEscape 'u' 4 p.code)

def quotedByte (quote : Char) (b : UInt8) : List Char :=
  if b < 0x7F then quotedChar quote (Char.ofNat b.toNat) else hexEscape 'x' 2 b.toNat

def quotedBytes (bytes : List UInt8) : String :=
  let quote := quoteFor (bytes.map fun b => Char.ofNat b.toNat)
  String.ofList ('b' :: quote :: bytes.flatMap (quotedByte quote) ++ [quote])

end Chip8.Text
