import Chip8.Number.Binary64

/-! # Shortest decimals

A finite number is shown with the fewest decimal digits that read back to it, and among those with
the digits nearest to it. All comparisons are between exact integers.
-/

namespace Chip8.Number

-- Powers are the built-in ones, whatever instances a caller's imports add.
attribute [local instance (high)] instPowNat

/-- A value `digits * 10 ^ exponent`. -/
structure Decimal where
  digits : Nat
  exponent : Int
deriving DecidableEq, Repr

/-- A fraction in nonnegative integers that is equal to `n * 2 ^ p * 10 ^ q`. -/
def scaled (n : Nat) (p q : Int) : Nat × Nat :=
  (n * 2 ^ p.toNat * 10 ^ q.toNat, 2 ^ (-p).toNat * 10 ^ (-q).toNat)

/-- Whether a decimal lies in the interval that is rounded to `significand * 2 ^ exponent`. The
ends, halfway to the neighbours, belong to it if the significand is even. -/
def readsBack (significand : Nat) (exponent : Int) (d : Decimal) : Bool :=
  let quarter := exponent - 2
  let narrow := significand = 2 ^ Binary64.fractionBits ∧ -1074 < exponent
  let low := scaled (4 * significand - (if narrow then 1 else 2)) quarter 0
  let high := scaled (4 * significand + 2) quarter 0
  let value := scaled d.digits 0 d.exponent
  let above := low.1 * value.2 < value.1 * low.2
  let below := value.1 * high.2 < high.1 * value.2
  let onLow := low.1 * value.2 = value.1 * low.2
  let onHigh := value.1 * high.2 = high.1 * value.2
  (above || (onLow && significand % 2 == 0)) && (below || (onHigh && significand % 2 == 0))

/-- The number of decimal digits before the point of a fraction, minus the zeros after it. -/
def decimalScale (significand : Nat) (exponent : Int) : Int :=
  let guess : Int := ((significand.log2 : Int) + exponent) * 30103 / 100000 - 1
  let (n, m) := scaled significand exponent 0
  let fits (k : Int) : Bool := n * 10 ^ (-k).toNat < m * 10 ^ k.toNat
  if fits guess then guess
  else if fits (guess + 1) then guess + 1
  else if fits (guess + 2) then guess + 2
  else guess + 3

/-- The best decimal with a number of digits, if one of them reads back. -/
def decimalWith (significand : Nat) (exponent scale : Int) (count : Nat) : Option Decimal :=
  let unit := scale - count
  let (n, m) := scaled significand exponent (-unit)
  let floor : Decimal := ⟨n / m, unit⟩
  let ceiling : Decimal := ⟨n / m + 1, unit⟩
  match readsBack significand exponent floor, readsBack significand exponent ceiling with
  | true, true =>
      let rest := 2 * (n % m)
      some (if rest < m ∨ (rest = m ∧ n / m % 2 = 0) then floor else ceiling)
  | true, false => some floor
  | false, true => some ceiling
  | false, false => none

/-- Zeros at the end of the digits moved into the exponent. -/
def Decimal.normalized (fuel : Nat) (d : Decimal) : Decimal :=
  match fuel with
  | 0 => d
  | fuel + 1 =>
      if d.digits ≠ 0 ∧ d.digits % 10 = 0 then
        Decimal.normalized fuel ⟨d.digits / 10, d.exponent + 1⟩
      else d

/-- The shortest decimal of a positive finite number; seventeen digits always suffice. -/
def shortest (significand : Nat) (exponent : Int) : Decimal :=
  let scale := decimalScale significand exponent
  let found := (List.range 17).findSome? fun count =>
    decimalWith significand exponent scale (count + 1)
  (found.getD ⟨significand, exponent⟩).normalized 20

/-- A number as text: positional from `10 ^ -4` up to below `10 ^ 16`, with a point always, and
otherwise with a signed exponent of at least two digits. -/
def decimalText (x : Float) : String :=
  match Binary64.ofFloat x with
  | .notANumber => "nan"
  | .infinite negative => if negative then "-inf" else "inf"
  | .finite negative significand exponent =>
      let sign := if negative then "-" else ""
      if significand = 0 then sign ++ "0.0"
      else
        let d := shortest significand exponent
        let digits := Nat.toDigits 10 d.digits
        -- The value is `0.digits * 10 ^ point`.
        let point := (digits.length : Int) + d.exponent
        let body :=
          if -3 ≤ point ∧ point ≤ 0 then
            "0." ++ String.ofList (List.replicate (-point).toNat '0' ++ digits)
          else if 0 < point ∧ point ≤ 16 then
            let whole := digits.take point.toNat
            let zeros := List.replicate (point.toNat - whole.length) '0'
            let fraction := digits.drop point.toNat
            String.ofList (whole ++ zeros ++ '.' :: (if fraction = [] then ['0'] else fraction))
          else
            let power := point - 1
            let powerDigits := Nat.toDigits 10 power.natAbs
            let fraction := if digits.length = 1 then [] else '.' :: digits.drop 1
            String.ofList (digits.take 1 ++ fraction ++ 'e' :: (if power < 0 then '-' else '+')
              :: (List.replicate (2 - powerDigits.length) '0' ++ powerDigits))
        sign ++ body

end Chip8.Number
