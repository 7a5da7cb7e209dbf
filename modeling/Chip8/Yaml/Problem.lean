import Chip8.Calendar
import Chip8.Foreign
import Chip8.Number.Reading
import Chip8.Text.Utf8

/-! # Problems of documents

Why a text is no document with a value.
-/

namespace Chip8.Yaml

open Text

/-- Why a scalar has no value although the document is well formed. -/
inductive ScalarProblem where
  | number (problem : Number.NumberProblem)
  /-- A number without any character. -/
  | emptyNumber
  /-- A day or time that the calendar does not have. -/
  | calendar (problem : CalendarProblem)
  /-- A word that is no truth value where one is due. -/
  | unknownTruth (word : CodeText)
  /-- A text that is no day or time where one is due. -/
  | noTimeStamp
  /-- A mapping with a default value where a day or time is due. -/
  | mappingAsTime
  /-- A mapping that is its own default value. -/
  | endlessDefault
  /-- An escaped code point beyond the last one. -/
  | noSuchCodePoint
  /-- An escaped code point beyond all machine integers. -/
  | codePointTooWide
deriving DecidableEq, Repr

def ScalarProblem.message : ScalarProblem → String
  | number problem => problem.message
  | emptyNumber => "string index out of range"
  | calendar problem => problem.message
  | unknownTruth word => quotedCodes word
  | noTimeStamp => "'NoneType' object has no attribute 'groupdict'"
  | mappingAsTime => "expected string or bytes-like object, got 'list'"
  | endlessDefault => "maximum recursion depth exceeded"
  | noSuchCodePoint => "chr() arg not in range(0x110000)"
  | codePointTooWide => "Python int too large to convert to C int"

/-- The family and the kind of the error that a scalar without a value raises. -/
def ScalarProblem.kind : ScalarProblem → ErrorFamily × String
  | number problem =>
      if problem.isOverflow then (.other, "OverflowError") else (.value, "ValueError")
  | emptyNumber => (.other, "IndexError")
  | unknownTruth _ => (.other, "KeyError")
  | noTimeStamp => (.other, "AttributeError")
  | mappingAsTime => (.type, "TypeError")
  | endlessDefault => (.other, "RecursionError")
  | codePointTooWide => (.other, "OverflowError")
  | _ => (.value, "ValueError")

/-- Why a text is no document with a value. -/
inductive Problem where
  /-- The text breaks the rules of the language. -/
  | malformed
  /-- A scalar has no value. -/
  | scalar (problem : ScalarProblem)
  /-- The bytes are no text. -/
  | encoding (problem : Utf8Problem)
deriving DecidableEq, Repr

/-- The error that is raised for a problem. What exactly is malformed is not told. -/
def Problem.raised : Problem → Raised
  | malformed => ⟨.document, "YAMLError", []⟩
  | scalar problem =>
      let (family, kind) := problem.kind
      ⟨family, kind, codesOf problem.message⟩
  | encoding problem => ⟨.value, "UnicodeDecodeError", codesOf problem.message⟩

end Chip8.Yaml
