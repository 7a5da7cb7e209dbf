import Chip8.Config.Number
import Chip8.Config.Switches
import Chip8.Machine

/-! # Configurations

The settings of a machine from a mapping, from a file with one, or from nothing. Numbers are read
first, then the dialect, then all are checked. Entries that no setting has are kept as they are.
-/

namespace Chip8

open Text Number

/-- The settings of a machine, and the other entries of their source. -/
structure Config where
  settings : Settings
  extra : List (Value × Value)

namespace Config

inductive Source where
  /-- Nothing was given: all settings have their defaults. -/
  | default
  | mapping (entries : List (Value × Value))
  | file (path : CodeText)
  /-- A source of a kind that no configuration is read from. -/
  | unsupported

def settingNames : List String :=
  ["cycles_per_frame", "frame_rate", "frame_limit", "seed", "lenient_log", "quirks"]

def isSettingName (key : Value) : Bool := key.name?.any (· ∈ settingNames)

/-- A converted value of a setting, or the problem as far as it is caught. -/
def converted {α : Type} : Except Misfit α → Except LoadProblem α
  | .ok x => .ok x
  | .error problem =>
      if problem.isCaught then .error (.rejected (.badTypes problem))
      else .error (.conversion problem)

/-- The seed that a value gives; nothing gives none. -/
def seedOf : Value → Except Misfit (Option Int)
  | .null => .ok none
  | v => (integer v).map some

def truthOf (v : Value) : Except Misfit Bool := v.truthy.mapError .raised

/-- The settings that are given by some entries, not yet checked. -/
def settingsOf (reader : Reader) (entries : List (Value × Value)) :
    Except LoadProblem Settings := do
  let setting := fun (name : String) (usual : Value) => (Value.lookup entries name).getD usual
  let usual : Settings := {}
  let cycles ← converted (integer (setting "cycles_per_frame" (.int usual.cyclesPerFrame)))
  let rate ← converted (decimalNumber (setting "frame_rate" (.float usual.frameRate)))
  let limit ← converted (integer (setting "frame_limit" (.int usual.frameLimit)))
  let seed ← converted (seedOf (setting "seed" .null))
  let lenient ← converted (truthOf (setting "lenient_log" (.bool usual.lenientLog)))
  let dialect ← dialect reader (setting "quirks" .null)
  return ⟨cycles, rate, limit, seed, lenient, dialect⟩

/-- Settings that make sense: a positive burst and rate, and a limit that is not negative. -/
def checked (s : Settings) : Except Rejection Settings :=
  if s.cyclesPerFrame ≤ 0 then .error .cyclesNotPositive
  else if s.frameRate ≤ 0 then .error .rateNotPositive
  else if s.frameLimit < 0 then .error .limitNegative
  else .ok s

def ofEntries (reader : Reader) (entries : List (Value × Value)) : Except LoadProblem Config := do
  compareKeys settingNames entries
  let settings ← settingsOf reader entries
  let settings ← (checked settings).mapError .rejected
  return ⟨settings, entries.filter fun entry => !isSettingName entry.1⟩

def toEntries (c : Config) : List (Value × Value) :=
  [(.text "cycles_per_frame", .int c.settings.cyclesPerFrame),
    (.text "frame_rate", .float c.settings.frameRate),
    (.text "frame_limit", .int c.settings.frameLimit),
    (.text "seed", match c.settings.seed with
      | none => .null
      | some seed => .int seed),
    (.text "lenient_log", .bool c.settings.lenientLog),
    (.text "quirks", dialectValue c.settings.dialect)]
    ++ c.extra

/-- What is read from a file, or the error as far as it is caught. -/
def reading {α : Type} (path : CodeText) : Except Raised α → Except LoadProblem α
  | .ok x => .ok x
  | .error error =>
      if error.isReading then .error (.rejected (.fileMalformed path error))
      else .error (.raised error)

/-- The entries of the mapping that a value is. An empty value has none. -/
def entriesOf (path : CodeText) : Value → Except LoadProblem (List (Value × Value))
  | .mapping entries => .ok entries
  | value => do
      if ← reading path value.truthy then throw (.rejected (.fileNotMapping path))
      return []

def readEntries (reader : Reader) (files : Files) (path : CodeText) :
    Except LoadProblem (List (Value × Value)) :=
  match files.read path with
  | .error problem =>
      if problem.isSystem then .error (.rejected (.fileUnreadable path problem))
      else .error (.file problem)
  | .ok bytes => do entriesOf path (← reading path (reader.document bytes))

def ofFile (reader : Reader) (files : Files) (path : CodeText) : Except LoadProblem Config :=
  match files.has path with
  | .error problem => .error (.file problem)
  | .ok false => .error (.rejected (.fileMissing path))
  | .ok true => do ofEntries reader (← readEntries reader files path)

/-- The configuration of a source. -/
def load (reader : Reader) (files : Files) : Source → Except LoadProblem Config
  | .default => ofEntries reader []
  | .mapping entries => ofEntries reader entries
  | .file path => ofFile reader files path
  | .unsupported => .error (.rejected .unsupported)

end Config

end Chip8
