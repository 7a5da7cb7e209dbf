import Chip8.Config.Number
import Chip8.FileTree

/-! # Problems of configurations

Why a configuration is not accepted. A rejection is an answer about the configuration; the other
problems come from values that could not even be judged.
-/

namespace Chip8.Config

open Text

/-- Why a configuration is rejected. -/
inductive Rejection where
  | fileMissing (path : CodeText)
  | fileUnreadable (path : CodeText) (problem : FileProblem)
  /-- The reader gives the file up. -/
  | fileMalformed (path : CodeText) (error : Raised)
  | fileNotMapping (path : CodeText)
  /-- A source of a kind that no configuration is read from. -/
  | unsupported
  | badTypes (problem : Misfit)
  | dialectNotMapping
  | unknownSwitches (names : List CodeText)
  | switchNotTruth (name : CodeText)
  | cyclesNotPositive
  | rateNotPositive
  | limitNegative
deriving DecidableEq, Repr

def listed (names : List CodeText) : CodeText := (codesOf ", ").intercalate names

def Rejection.message : Rejection → CodeText
  | fileMissing path => codesOf "Config file not found: " ++ path
  | fileUnreadable path problem =>
      codesOf "Failed to load config file " ++ path ++ codesOf (": " ++ problem.message)
  | fileMalformed path error =>
      codesOf "Failed to load config file " ++ path ++ codesOf ": " ++ error.message
  | fileNotMapping path =>
      codesOf "Config file " ++ path ++ codesOf " does not contain a mapping"
  | unsupported => codesOf "Unsupported config input"
  | badTypes problem => codesOf "Bad types in config: " ++ problem.message
  | dialectNotMapping => codesOf "quirks must be a mapping"
  | unknownSwitches names => codesOf "Unknown quirk(s): " ++ listed names
  | switchNotTruth name => codesOf "quirk " ++ name ++ codesOf " must be boolean"
  | cyclesNotPositive => codesOf "cycles_per_frame must be positive"
  | rateNotPositive => codesOf "frame_rate must be positive"
  | limitNegative => codesOf "frame_limit must be non-negative"

inductive OrderProblem where
  /-- Keys of two kinds. -/
  | kinds (kind other : String)
  /-- A day and a time. -/
  | dayAndTime
  /-- Times of which only one has a known offset from the prime meridian. -/
  | offsets
deriving DecidableEq, Repr

/-- The sentence that describes why keys have no order. -/
def OrderProblem.message : OrderProblem → String
  | kinds kind other =>
      "'<' not supported between instances of '" ++ kind ++ "' and '" ++ other ++ "'"
  | dayAndTime => "can't compare datetime.datetime to datetime.date"
  | offsets => "can't compare offset-naive and offset-aware datetimes"

/-- Why no configuration is loaded. -/
inductive LoadProblem where
  | rejected (rejection : Rejection)
  /-- A file that cannot be looked for, or opened under its name. -/
  | file (problem : FileProblem)
  /-- A value whose conversion fails in a way that is not caught. -/
  | conversion (problem : Misfit)
  /-- An error of the reader, or of a foreign key, that is not caught. -/
  | raised (error : Raised)
  /-- Unknown switches that have no common order. -/
  | incomparable (problem : OrderProblem)
deriving DecidableEq, Repr

def LoadProblem.message : LoadProblem → CodeText
  | rejected rejection => rejection.message
  | file problem => codesOf problem.message
  | conversion problem => problem.message
  | raised error => error.message
  | incomparable problem => codesOf problem.message

end Chip8.Config
