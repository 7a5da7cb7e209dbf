import Chip8.Number.Binary64
import Chip8.Number.IntegerLiteral

/-! # Decimal literals

A sign, digits with a point somewhere, an exponent; or infinity or not-a-number in any case of
letters. Single underscores may stand between digits, blanks around the whole. The value is rounded
to nearest, and is infinite beyond the range.
-/

namespace Chip8.Number

open Text

def isBasicDigit (c : Char) : Bool := '0' ≤ c && c ≤ '9'

/-- Whether every underscore stands between two digits; `before` is the character before. -/
def underscoresBetweenDigits (before : Char) : List Char → Bool
  | [] => before ≠ '_'
  | c :: rest =>
      (c ≠ '_' || isBasicDigit before) && (before ≠ '_' || isBasicDigit c)
        && underscoresBetweenDigits c rest

/-- The exponent at the end of a literal: `none` if there is junk, zero if there is nothing. -/
def readExponent : List Char → Option Int
  | [] => some 0
  | e :: rest =>
      let (negative, digits) := splitSign rest
      if (e = 'e' ∨ e = 'E') ∧ digits ≠ [] ∧ digits.all isBasicDigit then
        let value : Int := valueOf 10 digits
        some (if negative then -value else value)
      else none

def readFinite (negative : Bool) (cs : List Char) : Option Float :=
  let whole := cs.takeWhile isBasicDigit
  let (fraction, rest) := match cs.dropWhile isBasicDigit with
    | '.' :: rest => (rest.takeWhile isBasicDigit, rest.dropWhile isBasicDigit)
    | rest => ([], rest)
  if whole ++ fraction = [] then none
  else (readExponent rest).map fun exponent =>
    Binary64.ofDecimal negative (valueOf 10 (whole ++ fraction)) (exponent - fraction.length)

def readDecimal (text : List Char) : Option Float :=
  let basic := text.map basicChar
  if '_' ∈ basic ∧ !underscoresBetweenDigits ' ' basic then none
  else
    let (negative, unsigned) := splitSign (trimWith isPlainBlank (basic.filter (· ≠ '_')))
    let word := String.ofList (unsigned.map Char.toLower)
    if word = "inf" ∨ word = "infinity" then some (Binary64.infinity negative)
    else if word = "nan" then some (0.0 / 0.0)
    else readFinite negative unsigned

end Chip8.Number
