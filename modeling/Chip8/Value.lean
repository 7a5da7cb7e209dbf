import Chip8.Calendar
import Chip8.Foreign
import Chip8.Number.IntegerLiteral
import Chip8.Number.Shortest
import Chip8.Text.Quoted

/-! # Values

The values that a configuration is written in: scalars, lists, mappings and sets, and objects of
other programs, which may raise errors when they are looked at. The entries of a mapping are in the
order in which their keys came first, and no two keys are the same.
-/

namespace Chip8

open Text Number

/-- A value of a configuration. -/
inductive Value where
  | null
  | bool (b : Bool)
  | int (z : Int)
  | float (x : Float)
  | text (s : String)
  /-- A text that no string holds, as it has halves of pairs. -/
  | brokenText (text : CodeText)
  | bytes (bytes : List UInt8)
  | list (items : List Value)
  | mapping (entries : List (Value × Value))
  | set (items : List Value)
  | day (d : CalendarDay)
  | time (t : TimeStamp)
  | foreign (object : Foreign)
deriving Inhabited

namespace Value

def ofCodes (t : CodeText) : Value :=
  match chars? t with
  | some cs => text (String.ofList cs)
  | none => brokenText t

/-- Whether a value counts as yes: nothing, zero and everything empty do not. -/
def truthy : Value → Except Raised Bool
  | null => .ok false
  | bool b => .ok b
  | int z => .ok (z ≠ 0)
  | float x => .ok (!(x == 0.0))
  | text s => .ok (s ≠ "")
  | brokenText t => .ok !t.isEmpty
  | bytes b => .ok !b.isEmpty
  | list items => .ok !items.isEmpty
  | mapping entries => .ok !entries.isEmpty
  | set items => .ok !items.isEmpty
  | day _ => .ok true
  | time _ => .ok true
  | foreign object => object.truth

/-- The kind of a value, as messages name it. -/
def kindName : Value → String
  | null => "NoneType"
  | bool _ => "bool"
  | int _ => "int"
  | float _ => "float"
  | text _ => "str"
  | brokenText _ => "str"
  | bytes _ => "bytes"
  | list _ => "list"
  | mapping _ => "dict"
  | set _ => "set"
  | day _ => "datetime.date"
  | time _ => "datetime.datetime"
  | foreign object => object.kind

/-- A scalar that is no text, as it is spelled. Collections, which messages never show, have no
text. -/
def spelling : Value → String
  | null => "None"
  | bool b => if b then "True" else "False"
  | int z => decimal z
  | float x => decimalText x
  | bytes b => quotedBytes b
  | day d => d.text
  | time t => t.text
  | _ => ""

def text? : Value → Option CodeText
  | text s => some (codesOf s)
  | brokenText t => some t
  | _ => none

/-- The error that an integer with too many digits raises where it is shown. -/
def tooLongToShow : Raised :=
  ⟨.value, "ValueError", codesOf ("Exceeds the limit (" ++ decimal maxDecimalDigits
    ++ " digits) for integer string conversion; use sys.set_int_max_str_digits() to increase "
    ++ "the limit")⟩

/-- A scalar as messages show it, unless it cannot be shown. -/
def shown : Value → Except Raised CodeText
  | int z =>
      if maxDecimalDigits < (digits 10 z.natAbs).length then .error tooLongToShow
      else .ok (codesOf (decimal z))
  | foreign object => object.text
  | v => .ok (v.text?.getD (codesOf v.spelling))

def name? : Value → Option String
  | text s => some s
  | foreign object => object.name?
  | _ => none

/-- The error that a key raises when it is compared with some names. -/
def clash? (names : List String) : Value → Option Raised
  | foreign object => names.findSome? object.clash
  | _ => none

def isForeign : Value → Bool
  | foreign _ => true
  | _ => false

/-- The integer that a number is equal to; truth values count as zero and one. -/
def wholeNumber? : Value → Option Int
  | bool b => some (if b then 1 else 0)
  | int z => some z
  | float x => (Binary64.ofFloat x).exactInt?
  | _ => none

/-- A number in a form in which all numbers have an order. -/
def number? : Value → Option Binary64
  | bool b => some (.ofInteger (if b then 1 else 0))
  | int z => some (.ofInteger z)
  | float x => some (.ofFloat x)
  | _ => none

def sameName (a b : Value) : Bool :=
  match a.name?, b.name? with
  | some s, some t => s == t
  | _, _ => false

/-- Whether two keys are the same. Numbers are compared by value, whatever their kind; what is not
a number differs from itself. -/
def sameKey (a b : Value) : Bool :=
  match a.wholeNumber?, b.wholeNumber? with
  | some m, some n => m == n
  | some _, none => false
  | none, some _ => false
  | none, none =>
    match a, b with
    | null, null => true
    | float x, float y => x == y
    | brokenText s, brokenText t => s == t
    | bytes s, bytes t => s == t
    | day d, day e => d == e
    | time t, time u => t.sameInstant u
    | _, _ => a.sameName b

def lookup (entries : List (Value × Value)) (name : String) : Option Value :=
  (entries.find? fun entry => entry.1.sameKey (text name)).map (·.2)

end Value

end Chip8
