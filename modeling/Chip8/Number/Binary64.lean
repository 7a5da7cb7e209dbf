/-! # Binary floating point

A finite number of the 64-bit binary format is a sign and `significand * 2 ^ exponent`. Fractions
are rounded to it by exact integer arithmetic: to nearest, a tie to the even significand.
-/

namespace Chip8.Number

-- Powers are the built-in ones, whatever instances a caller's imports add.
attribute [local instance (high)] instPowNat

/-- The parts of a number in the 64-bit binary format. -/
inductive Binary64 where
  | finite (negative : Bool) (significand : Nat) (exponent : Int)
  | infinite (negative : Bool)
  | notANumber
deriving DecidableEq, Repr

namespace Binary64

/-- The number of bits of the fraction; the eleven bits of the scale are above it. -/
abbrev fractionBits : Nat := 52

abbrev signPlace : Nat := 63

def ofFloat (x : Float) : Binary64 :=
  let bits := x.toBits.toNat
  let negative := decide (2 ^ signPlace ≤ bits)
  let scale : Nat := bits / 2 ^ fractionBits % 2048
  let fraction := bits % 2 ^ fractionBits
  if scale = 2047 then if fraction = 0 then .infinite negative else .notANumber
  else if scale = 0 then .finite negative fraction (-1074)
  else .finite negative (2 ^ fractionBits + fraction) ((scale : Int) - 1075)

/-- The number with these 63 bits below its sign. -/
def ofParts (negative : Bool) (bits : Nat) : Float :=
  Float.ofBits (UInt64.ofNat (if negative then 2 ^ signPlace + bits else bits))

def infinity (negative : Bool) : Float := ofParts negative (2047 * 2 ^ fractionBits)

/-- A quotient rounded to nearest, a tie to even. -/
def roundedQuotient (numerator denominator : Nat) : Nat :=
  let whole := numerator / denominator
  let rest := 2 * (numerator % denominator)
  if denominator < rest ∨ (rest = denominator ∧ whole % 2 = 1) then whole + 1 else whole

/-- The least exponent of a number whose significand holds the leading 53 bits of a fraction. -/
def leadingExponent (numerator denominator : Nat) : Int :=
  let guess : Int := (numerator.log2 : Int) - denominator.log2 - 52
  -- The guess is exact or one too high.
  let enough := if 0 ≤ guess then numerator < denominator * 2 ^ (52 + guess.toNat)
    else numerator * 2 ^ (-guess).toNat < denominator * 2 ^ fractionBits
  max (if enough then guess - 1 else guess) (-1074)

/-- A positive fraction rounded to the format; a fraction beyond its range becomes infinite. -/
def ofFraction (negative : Bool) (numerator denominator : Nat) : Float :=
  if numerator = 0 then ofParts negative 0
  else
    let exponent := leadingExponent numerator denominator
    let significand :=
      if 0 ≤ exponent then roundedQuotient numerator (denominator * 2 ^ exponent.toNat)
      else roundedQuotient (numerator * 2 ^ (-exponent).toNat) denominator
    -- A significand below `2 ^ fractionBits` only occurs at the least exponent, with scale zero.
    let bits :=
      if significand < 2 ^ fractionBits then significand
      else (exponent + 1075).toNat * 2 ^ fractionBits + (significand - 2 ^ fractionBits)
    if 2047 * 2 ^ fractionBits ≤ bits then infinity negative else ofParts negative bits

/-- An integer rounded to the format; `none` if it is beyond its range. -/
def ofInt? (z : Int) : Option Float :=
  let rounded := ofFraction (decide (z < 0)) z.natAbs 1
  match ofFloat rounded with
  | .finite .. => some rounded
  | _ => none

/-- A decimal number `digits * 10 ^ exponent` rounded to the format. -/
def ofDecimal (negative : Bool) (digits : Nat) (exponent : Int) : Float :=
  let magnitude : Int := (Nat.toDigits 10 digits).length + exponent
  if digits = 0 ∨ magnitude < -400 then ofParts negative 0
  else if 400 < magnitude then infinity negative
  else if 0 ≤ exponent then ofFraction negative (digits * 10 ^ exponent.toNat) 1
  else ofFraction negative digits (10 ^ (-exponent).toNat)

/-- The whole part of a finite number. -/
def truncated : Binary64 → Option Int
  | finite negative significand exponent =>
      let magnitude : Int :=
        if 0 ≤ exponent then significand * 2 ^ exponent.toNat
        else significand / 2 ^ (-exponent).toNat
      some (if negative then -magnitude else magnitude)
  | _ => none

/-- The integer that a number is equal to, if it is equal to one. -/
def exactInt? : Binary64 → Option Int
  | finite negative significand exponent =>
      if exponent < 0 ∧ significand % 2 ^ (-exponent).toNat ≠ 0 then none
      else truncated (finite negative significand exponent)
  | _ => none

def ofInteger (z : Int) : Binary64 := finite (decide (z < 0)) z.natAbs 0

/-- Whether a number is less than another one; what is no number compares with nothing. -/
def before : Binary64 → Binary64 → Bool
  | notANumber, _ => false
  | _, notANumber => false
  | infinite negative, infinite other => negative && !other
  | infinite negative, finite .. => negative
  | finite .., infinite negative => !negative
  | finite negative significand exponent, finite negative' significand' exponent' =>
      let least := min exponent exponent'
      let scaled := fun (negative : Bool) (significand : Nat) (exponent : Int) =>
        let magnitude : Int := significand * 2 ^ (exponent - least).toNat
        if negative then -magnitude else magnitude
      scaled negative significand exponent < scaled negative' significand' exponent'

end Binary64

end Chip8.Number
