import Chip8.Text.Base64
import Chip8.Text.LowerCase
import Chip8.Value
import Chip8.Yaml.Kind
import Chip8.Yaml.Problem

/-! # Values of scalars

The value that the text of a scalar has as one of its kind.
-/

namespace Chip8.Yaml

open Number Text

/-- A text without its sign, and whether the sign was a minus. -/
def withoutSign : CodeText → Bool × CodeText
  | .char '-' :: rest => (true, rest)
  | .char '+' :: rest => (false, rest)
  | text => (false, text)

def withoutUnderscores (text : CodeText) : CodeText := text.filter (· ≠ .char '_')

/-- The text of a number without its sign, and whether that is a minus. A number has to have some
character. -/
def unsignedText (text : CodeText) : Except ScalarProblem (Bool × CodeText) :=
  match text with
  | [] => .error .emptyNumber
  | text => .ok (withoutSign text)

def integerIn (base : Nat) (digits : CodeText) : Except ScalarProblem Int :=
  (integerOf base (.text digits)).mapError .number

def decimalIn (digits : CodeText) : Except ScalarProblem Float :=
  (decimalOf (.text digits)).mapError .number

def colonParts (text : CodeText) : List CodeText := text.splitOnP (· = .char ':')

/-- The integer that a text has in the notation that it begins with. -/
def integerScalar (text : CodeText) : Except ScalarProblem Int := do
  let (negative, unsigned) ← unsignedText (withoutUnderscores text)
  let magnitude : Int ← match unsigned with
    | [] => .error .emptyNumber
    | [.char '0'] => .ok 0
    | .char '0' :: .char 'b' :: digits => integerIn 2 digits
    | .char '0' :: .char 'x' :: digits => integerIn 16 digits
    | .char '0' :: digits => integerIn 8 (.char '0' :: digits)
    | _ => do
        let parts ← (colonParts unsigned).mapM (integerIn 10)
        pure (parts.foldl (fun value part => value * 60 + part) 0)
  return if negative then -magnitude else magnitude

-- Powers are the built-in ones, whatever instances a caller's imports add.
attribute [local instance (high)] instPowNat

def sixtyPower (n : Nat) : Except ScalarProblem Float :=
  match Binary64.ofInt? ((60 : Int) ^ n) with
  | some x => .ok x
  | none => .error (.number .tooLarge)

/-- Parts of base sixty, the lowest first, added up from the lowest. -/
def sumOfSixties (place : Nat) (sum : Float) : List Float → Except ScalarProblem Float
  | [] => .ok sum
  | part :: rest => do
      let power ← sixtyPower place
      sumOfSixties (place + 1) (sum + part * power) rest

/-- The word for what is not a number, with its point. -/
def notANumberWord : CodeText := codes ".nan".toList

/-- The decimal that a text has, in any case of letters. -/
def decimalScalar (text : CodeText) : Except ScalarProblem Float := do
  let (negative, unsigned) ← unsignedText (lowerCase (withoutUnderscores text))
  let sign : Float := if negative then -1.0 else 1.0
  if unsigned = codes ".inf".toList then return Binary64.infinity negative
  else if unsigned = notANumberWord then return 0.0 / 0.0
  else
    match colonParts unsigned with
    | [number] => return sign * (← decimalIn number)
    | parts => return sign * (← sumOfSixties 0 0.0 (← parts.mapM decimalIn).reverse)

/-- Whether a decimal is written as the word for what is not a number. -/
def isNotANumberWord (text : CodeText) : Bool :=
  (withoutSign (lowerCase (withoutUnderscores text))).2 = notANumberWord

/-- The truth value of a word in any case of letters. -/
def truthScalar (text : CodeText) : Except ScalarProblem Bool :=
  let small := lowerCase text
  let isOne := fun (words : List String) => words.any fun word => small == codes word.toList
  if isOne ["yes", "true", "on"] then .ok true
  else if isOne ["no", "false", "off"] then .ok false
  else .error (.unknownTruth small)

def zoneMinutes : Char × List Char × List Char → Int
  | (sign, hours, minutes) =>
      let value : Int := valueOf 10 hours * 60 + valueOf 10 minutes
      if sign = '-' then -value else value

def timeScalar (text : CodeText) : Except ScalarProblem Value :=
  match (chars? text).bind fun cs => timeDigits (dropLineFeed cs) with
  | none => .error .noTimeStamp
  | some t =>
      let date : CalendarDay := ⟨valueOf 10 t.year, valueOf 10 t.month, valueOf 10 t.day⟩
      let value : Except CalendarProblem Value := match t.clock with
        | none => (CalendarDay.ofParts date.year date.month date.day).map .day
        | some (hour, minute, second, fraction) =>
            let microsecond := valueOf 10 ((fraction ++ List.replicate 6 '0').take 6)
            TimeStamp.checked ⟨date, valueOf 10 hour, valueOf 10 minute, valueOf 10 second,
              microsecond, t.zone.map zoneMinutes⟩ |>.map .time
      value.mapError .calendar

def bytesScalar (text : CodeText) : Except Problem Value :=
  match chars? text with
  | some cs =>
      if cs.all fun c => c.toNat < 0x80 then
        ((base64Bytes? cs).map fun bytes => .ok (.bytes bytes)).getD (.error .malformed)
      else .error .malformed
  | none => .error .malformed

def scalarValue (kind : Kind) (text : CodeText) : Except Problem Value :=
  match kind with
  | .null => .ok .null
  | .truth => ((truthScalar text).map .bool).mapError .scalar
  | .integer => ((integerScalar text).map .int).mapError .scalar
  | .decimal => ((decimalScalar text).map .float).mapError .scalar
  | .text => .ok (.ofCodes text)
  | .bytes => bytesScalar text
  | .timeStamp => (timeScalar text).mapError .scalar
  | _ => .error .malformed

end Chip8.Yaml
