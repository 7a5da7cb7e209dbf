import Chip8.Text.CodePoint

/-! # Foreign objects

Objects of other programs and libraries. All that is known of one is what it answers when it is
asked for a number, a truth or a text or compared with a name: a value, or an error that it raises.
Where errors are caught they are told apart by their family.
-/

namespace Chip8

inductive ErrorFamily where
  /-- A value of a kind that does not fit. -/
  | type
  /-- A value that does not fit, of a kind that does. -/
  | value
  /-- A refusal of the operating system. -/
  | system
  /-- A text that is no document. -/
  | document
  | other
deriving DecidableEq, Repr

/-- An error that code outside raises. -/
structure Raised where
  family : ErrorFamily
  kind : String
  message : Text.CodeText
deriving DecidableEq, Repr

namespace Raised

/-- Whether the error is caught where values are converted. -/
def isConversion (e : Raised) : Bool := e.family = .type ∨ e.family = .value

/-- Whether the error is caught where files are read. -/
def isReading (e : Raised) : Bool := e.family = .system ∨ e.family = .document

end Raised

/-- An object of another program, by its answers. -/
structure Foreign where
  kind : String
  /-- The text that it counts as where it is a key. -/
  name? : Option String
  /-- The error that it raises where it is a key and compared with a text, if it raises one. -/
  clash : String → Option Raised
  integer : Except Raised Int
  decimal : Except Raised Float
  truth : Except Raised Bool
  text : Except Raised Text.CodeText

end Chip8
