import Chip8.Number.DecimalLiteral
import Chip8.Text.Quoted

/-! # Reading numbers

Texts and bytes read as integers and decimals, with the reasons why some are none.
-/

namespace Chip8.Number

open Text

inductive Literal where
  | text (text : CodeText)
  | bytes (bytes : List UInt8)
deriving DecidableEq, Repr

namespace Literal

def quoted : Literal → String
  | text t => quotedCodes t
  | bytes b => quotedBytes b

/-- A byte as a character. Bytes beyond the basic set read as a character that no number has. -/
def byteChar (b : UInt8) : Char := if b < 0x80 then Char.ofNat b.toNat else '\uFFFD'

/-- The characters of a literal; halves of pairs read as a character that no number has. -/
def chars : Literal → List Char
  | text t => t.map CodePoint.visible
  | bytes b => b.map byteChar

end Literal

/-- Why a text or another value is no number. -/
inductive NumberProblem where
  /-- An integer was due and this kind of value has none. -/
  | noInteger (kind : String)
  /-- A decimal was due and this kind of value has none. -/
  | noDecimal (kind : String)
  | badInteger (base : Nat) (literal : Literal)
  | badDecimal (literal : Literal)
  | tooManyDigits (digits : Nat)
  | notANumber
  /-- An infinite decimal where an integer was due. -/
  | infinite
  /-- An integer beyond the range of decimals. -/
  | tooLarge
deriving DecidableEq, Repr

namespace NumberProblem

/-- Problems of range, which are reported as they are and not as a wrong kind of value. -/
def isOverflow : NumberProblem → Bool
  | infinite => true
  | tooLarge => true
  | _ => false

/-- The sentence that describes the problem. -/
def message : NumberProblem → String
  | noInteger kind =>
      "int() argument must be a string, a bytes-like object or a real number, not '" ++ kind ++ "'"
  | noDecimal kind => "float() argument must be a string or a real number, not '" ++ kind ++ "'"
  | badInteger base literal =>
      "invalid literal for int() with base " ++ decimal base ++ ": "
        ++ String.ofList (literal.quoted.toList.take 200)
  | badDecimal literal => "could not convert string to float: " ++ literal.quoted
  | tooManyDigits digits =>
      "Exceeds the limit (4300 digits) for integer string conversion: value has " ++ decimal digits
        ++ " digits; use sys.set_int_max_str_digits() to increase the limit"
  | notANumber => "cannot convert float NaN to integer"
  | infinite => "cannot convert float infinity to integer"
  | tooLarge => "int too large to convert to float"

end NumberProblem

def integerOf (base : Nat) (literal : Literal) : Except NumberProblem Int :=
  match readInteger base literal.chars with
  | .ok z => .ok z
  | .error .malformed => .error (.badInteger base literal)
  | .error (.tooLong digits) => .error (.tooManyDigits digits)

def decimalOf (literal : Literal) : Except NumberProblem Float :=
  match readDecimal literal.chars with
  | some x => .ok x
  | none => .error (.badDecimal literal)

def integerText (base : Nat) (s : String) : Except NumberProblem Int :=
  integerOf base (.text (codes s.toList))

def decimalOfText (s : String) : Except NumberProblem Float :=
  decimalOf (.text (codes s.toList))

end Chip8.Number
