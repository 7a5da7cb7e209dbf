import Chip8.Number.DecimalLiteral
import Chip8.Text.CodePoint

/-! # Kinds of nodes

What a node of a document stands for. A tag says it outright; a plain scalar without a tag says it
by its form, for instance digits with a point for a decimal.
-/

namespace Chip8.Yaml

open Number Text

inductive Kind where
  | null
  | truth
  | integer
  | decimal
  | text
  | bytes
  | timeStamp
  | sequence
  | mapping
  | set
  /-- A sequence of mappings with one entry each. -/
  | pairs
  /-- The key whose value is merged into its mapping. -/
  | merge
  /-- The key whose value stands for its mapping where a scalar is due. -/
  | default
  /-- A tag that no value is known for. -/
  | unknown
deriving DecidableEq, Repr

def standardPrefix : String := "tag:yaml.org,2002:"

def standardTags : List (String × Kind) := [
  ("null", .null), ("bool", .truth), ("int", .integer), ("float", .decimal), ("str", .text),
  ("binary", .bytes), ("timestamp", .timeStamp), ("seq", .sequence), ("map", .mapping),
  ("set", .set), ("omap", .pairs), ("pairs", .pairs), ("merge", .merge), ("value", .default)]

def Kind.ofTag (tag : String) : Kind :=
  ((standardTags.find? fun entry => standardPrefix ++ entry.1 == tag).map (·.2)).getD .unknown

/-- Whether the sixtieths after the first part of a number are well formed. -/
def isSixtieth (cs : List Char) : Bool :=
  match cs with
  | [d] => isBasicDigit d
  | [t, d] => '0' ≤ t && t ≤ '5' && isBasicDigit d
  | _ => false

def isSpacedDigit (c : Char) : Bool := isBasicDigit c || c = '_'

/-- Digits with underscores anywhere but in front. -/
def isSpacedNumber (cs : List Char) : Bool :=
  (cs.head?.any isBasicDigit) && cs.all isSpacedDigit

/-- An exponent, which must have a sign, or nothing. -/
def isExponent : List Char → Bool
  | [] => true
  | e :: sign :: digits =>
      (e = 'e' || e = 'E') && (sign = '+' || sign = '-') && digits ≠ []
        && digits.all isBasicDigit
  | _ => false

/-- The form of decimals: digits with a point, perhaps with an exponent; numbers of base sixty with
a point; infinities and not-a-number with a point before them. -/
def isDecimalForm (cs : List Char) : Bool :=
  let unsigned := (splitSign cs).2
  let (whole, rest) := unsigned.span isSpacedDigit
  let pointed := match rest with
    | '.' :: fraction =>
        (whole.head?.any isBasicDigit && isExponent (fraction.dropWhile isSpacedDigit))
          || (unsigned = cs && whole = [] && fraction.head?.any isBasicDigit
            && isExponent (fraction.dropWhile isSpacedDigit))
    | _ => false
  let sixties := match unsigned.splitOnP (· = ':') with
    | first :: parts =>
        let (last, fraction) := (parts.getLastD []).span (· ≠ '.')
        isSpacedNumber first && parts.dropLast.all isSixtieth && isSixtieth last
          && fraction ≠ [] && (fraction.drop 1).all isSpacedDigit
    | [] => false
  pointed || sixties
    || unsigned ∈ [".inf".toList, ".Inf".toList, ".INF".toList]
    || cs ∈ [".nan".toList, ".NaN".toList, ".NAN".toList]

/-- The form of integers: decimal without zeros in front, octal with one, binary and hexadecimal
with a mark, or parts of base sixty. -/
def isIntegerForm (cs : List Char) : Bool :=
  let unsigned := (splitSign cs).2
  match unsigned with
  | ['0'] => true
  | '0' :: 'b' :: digits => digits ≠ [] && digits.all fun c => c = '_' || c = '0' || c = '1'
  | '0' :: 'x' :: digits => digits ≠ [] && digits.all fun c => c = '_' || (digitIn 16 c).isSome
  | '0' :: digits => digits.all fun c => c = '_' || (digitIn 8 c).isSome
  | _ =>
      match unsigned.splitOnP (· = ':') with
      | first :: parts => isSpacedNumber first && parts.all isSixtieth
      | [] => false

/-- The numbers that a day or time is written with. -/
structure TimeDigits where
  year : List Char
  month : List Char
  day : List Char
  /-- The hour, minute and second, and the digits after a point. -/
  clock : Option (List Char × List Char × List Char × List Char)
  /-- The sign, hours and minutes of an offset; no hours for the prime meridian. -/
  zone : Option (Char × List Char × List Char)

/-- The digits at the start of a text, at least `low` and at most `high`. -/
def digitRun (low high : Nat) (cs : List Char) : Option (List Char × List Char) :=
  let run := (cs.take high).takeWhile isBasicDigit
  if low ≤ run.length then some (run, cs.drop run.length) else none

/-- A text after a character that it must begin with. -/
def after (c : Char) : List Char → Option (List Char)
  | d :: rest => if d = c then some rest else none
  | [] => none

def isInlineBlank (c : Char) : Bool := c = ' ' || c = '\t'

/-- The offset at the end of a time. -/
def zoneDigits (cs : List Char) : Option (Option (Char × List Char × List Char)) :=
  if cs = [] then some none
  else
    match cs.dropWhile isInlineBlank with
    | ['Z'] => some (some ('Z', [], []))
    | sign :: rest =>
        if sign = '+' ∨ sign = '-' then do
          let (hours, rest) ← digitRun 1 2 rest
          if rest = [] then return some (sign, hours, [])
          let (minutes, rest) ← digitRun 2 2 (← after ':' rest)
          if rest = [] then return some (sign, hours, minutes) else none
        else none
    | [] => none

def timeDigits (cs : List Char) : Option TimeDigits := do
  let (year, cs) ← digitRun 4 4 cs
  let (month, cs) ← digitRun 1 2 (← after '-' cs)
  let (day, cs) ← digitRun 1 2 (← after '-' cs)
  if cs = [] then return ⟨year, month, day, none, none⟩
  let cs ← match cs with
    | 'T' :: rest => some rest
    | 't' :: rest => some rest
    | c :: rest => if isInlineBlank c then some (rest.dropWhile isInlineBlank) else none
    | [] => none
  let (hour, cs) ← digitRun 1 2 cs
  let (minute, cs) ← digitRun 2 2 (← after ':' cs)
  let (second, cs) ← digitRun 2 2 (← after ':' cs)
  let (fraction, cs) := match cs with
    | '.' :: rest => rest.span isBasicDigit
    | cs => ([], cs)
  return ⟨year, month, day, some (hour, minute, second, fraction), ← zoneDigits cs⟩

/-- The form of days and times. A day alone has two digits for the month and the day. -/
def isTimeForm (cs : List Char) : Bool :=
  match timeDigits cs with
  | some t => t.clock.isSome || (t.month.length = 2 && t.day.length = 2)
  | none => false

def yesWords : List String :=
  ["yes", "Yes", "YES", "true", "True", "TRUE", "on", "On", "ON"]

def noWords : List String :=
  ["no", "No", "NO", "false", "False", "FALSE", "off", "Off", "OFF"]

def dropLineFeed (cs : List Char) : List Char :=
  if cs.getLast? = some '\n' then cs.dropLast else cs

/-- The kind that characters have by their form; a line feed at their end does not count, unless
it is all there is. -/
def Kind.ofChars (text : List Char) : Kind :=
  let cs := dropLineFeed text
  let word := String.ofList cs
  if text = [] then .null
  else if word ∈ yesWords ∨ word ∈ noWords then .truth
  else if isDecimalForm cs then .decimal
  else if isIntegerForm cs then .integer
  else if word = "<<" then .merge
  else if word ∈ ["~", "null", "Null", "NULL"] then .null
  else if isTimeForm cs then .timeStamp
  else if word = "=" then .default
  else if word ∈ ["!", "&", "*"] then .unknown
  else .text

/-- The kind that a plain scalar has by its form. -/
def Kind.ofPlain (text : CodeText) : Kind := ((chars? text).map ofChars).getD .text

end Chip8.Yaml
