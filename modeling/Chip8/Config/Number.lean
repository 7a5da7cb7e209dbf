import Chip8.Number.Reading
import Chip8.Value

/-! # Numbers from values

How the settings read a number from a value: numbers and truth values as they are, a decimal
without its fraction where an integer is due, texts and bytes as literals, foreign objects as they
answer, anything else not at all.
-/

namespace Chip8.Config

open Number Text

inductive Misfit where
  | number (problem : NumberProblem)
  /-- A foreign object raises an error when it is asked. -/
  | raised (error : Raised)
deriving DecidableEq, Repr

namespace Misfit

/-- Whether the problem is caught: a number beyond every range is not. -/
def isCaught : Misfit → Bool
  | number problem => !problem.isOverflow
  | raised error => error.isConversion

def message : Misfit → CodeText
  | number problem => codesOf problem.message
  | raised error => error.message

end Misfit

/-- The integer of a value that is no foreign object. -/
def plainInteger : Value → Except NumberProblem Int
  | .bool b => .ok (if b then 1 else 0)
  | .int z => .ok z
  | .float x =>
      match Binary64.ofFloat x with
      | .notANumber => .error .notANumber
      | .infinite _ => .error .infinite
      | finite => .ok (finite.truncated.getD 0)
  | .text s => integerText 10 s
  | .brokenText t => integerOf 10 (.text t)
  | .bytes b => integerOf 10 (.bytes b)
  | v => .error (.noInteger v.kindName)

def integer : Value → Except Misfit Int
  | .foreign object => object.integer.mapError .raised
  | v => (plainInteger v).mapError .number

/-- The decimal of a value that is no foreign object. -/
def plainDecimal : Value → Except NumberProblem Float
  | .bool b => .ok (if b then 1.0 else 0.0)
  | .int z =>
      match Binary64.ofInt? z with
      | some x => .ok x
      | none => .error .tooLarge
  | .float x => .ok x
  | .text s => decimalOfText s
  | .brokenText t => decimalOf (.text t)
  | .bytes b => decimalOf (.bytes b)
  | v => .error (.noDecimal v.kindName)

def decimalNumber : Value → Except Misfit Float
  | .foreign object => object.decimal.mapError .raised
  | v => (plainDecimal v).mapError .number

end Chip8.Config
