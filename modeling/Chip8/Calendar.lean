import Chip8.Text.Numeral

/-! # Calendar

Days of the calendar and times of a day, checked when they are made, and as text.
-/

namespace Chip8

open Text

-- The sum of an empty list is the literal zero, whatever instances a caller's imports add.
attribute [local instance (high)] Zero.ofOfNat0

structure CalendarDay where
  year : Nat
  month : Nat
  day : Nat
deriving DecidableEq, Repr

/-- A time of a day; the offset from the prime meridian is in minutes, if it is known. -/
structure TimeStamp where
  date : CalendarDay
  hour : Nat
  minute : Nat
  second : Nat
  microsecond : Nat
  offset : Option Int
deriving DecidableEq, Repr

/-- Why numbers are no day or time. -/
inductive CalendarProblem where
  | year (year : Nat)
  | month
  | day
  | hour
  | minute
  | second
  /-- An offset of a day or more. -/
  | offset (minutes : Int)
deriving DecidableEq, Repr

/-- A span of whole minutes as messages show it: days, and the seconds beyond them. -/
def spanText (minutes : Int) : String :=
  let days := Int.fdiv minutes 1440
  let seconds := Int.fmod minutes 1440 * 60
  let parts := (if days = 0 then [] else ["days=" ++ decimal days])
    ++ (if seconds = 0 then [] else ["seconds=" ++ decimal seconds])
  "datetime.timedelta(" ++ (if parts = [] then "0" else ", ".intercalate parts) ++ ")"

def CalendarProblem.message : CalendarProblem → String
  | year number => "year " ++ decimal number ++ " is out of range"
  | month => "month must be in 1..12"
  | day => "day is out of range for month"
  | hour => "hour must be in 0..23"
  | minute => "minute must be in 0..59"
  | second => "second must be in 0..59"
  | offset minutes =>
      "offset must be a timedelta strictly between -timedelta(hours=24) and timedelta(hours=24), "
        ++ "not " ++ spanText minutes ++ "."

def isLeapYear (year : Nat) : Bool :=
  year % 4 = 0 && (year % 100 ≠ 0 || year % 400 = 0)

def daysIn (year : Nat) : Nat → Nat
  | 2 => if isLeapYear year then 29 else 28
  | 4 => 30
  | 6 => 30
  | 9 => 30
  | 11 => 30
  | _ => 31

namespace CalendarDay

def ofParts (year month day : Nat) : Except CalendarProblem CalendarDay :=
  if year = 0 then .error (.year year)
  else if month = 0 ∨ 12 < month then .error .month
  else if day = 0 ∨ daysIn year month < day then .error .day
  else .ok ⟨year, month, day⟩

/-- The number of days before a day since the first day of year 1. -/
def ordinal (d : CalendarDay) : Nat :=
  let years := d.year - 1
  let months := (List.range (d.month - 1)).map fun m => daysIn d.year (m + 1)
  365 * years + years / 4 - years / 100 + years / 400 + months.sum + (d.day - 1)

def text (d : CalendarDay) : String :=
  zeroFilled 10 4 d.year ++ "-" ++ zeroFilled 10 2 d.month ++ "-" ++ zeroFilled 10 2 d.day

end CalendarDay

namespace TimeStamp

/-- A time if its numbers are in range. The offset is checked first, then the day. -/
def checked (t : TimeStamp) : Except CalendarProblem TimeStamp := do
  if let some minutes := t.offset then
    if 1440 ≤ minutes.natAbs then throw (.offset minutes)
  let date ← CalendarDay.ofParts t.date.year t.date.month t.date.day
  if 23 < t.hour then throw .hour
  if 59 < t.minute then throw .minute
  if 59 < t.second then throw .second
  return { t with date }

/-- The microseconds of a time since the beginning of year 1, on the prime meridian if the offset
from it is known. -/
def instant (t : TimeStamp) : Int :=
  let minutes : Int := (t.date.ordinal * 24 + t.hour) * 60 + t.minute - t.offset.getD 0
  (minutes * 60 + t.second) * 1000000 + t.microsecond

/-- Whether times are the same instant. A time of unknown offset differs from any other kind. -/
def sameInstant (t u : TimeStamp) : Bool :=
  t.offset.isSome == u.offset.isSome && t.instant == u.instant

/-- A time as text: the day, the time, and fractions and the offset only where there are any. -/
def text (t : TimeStamp) : String :=
  let clock := zeroFilled 10 2 t.hour ++ ":" ++ zeroFilled 10 2 t.minute ++ ":"
    ++ zeroFilled 10 2 t.second
  let fraction := if t.microsecond = 0 then "" else "." ++ zeroFilled 10 6 t.microsecond
  let offset := match t.offset with
    | none => ""
    | some minutes =>
        (if minutes < 0 then "-" else "+") ++ zeroFilled 10 2 (minutes.natAbs / 60 : Nat) ++ ":"
          ++ zeroFilled 10 2 (minutes.natAbs % 60 : Nat)
  t.date.text ++ " " ++ clock ++ fraction ++ offset

end TimeStamp

end Chip8
