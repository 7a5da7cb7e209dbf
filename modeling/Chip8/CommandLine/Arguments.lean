import Chip8.Number.Reading

/-! # Command line arguments

The arguments of the command: the program file, and options that may stand anywhere before a
separator of two hyphens. An option may be shortened as long as it is the only one that fits, and
its value stands behind it or after an equals sign. The last value of an option counts. Readers of
arguments differ in two rules, which are given with the arguments. Arguments may have halves of
pairs, where their bytes are no characters.
-/

namespace Chip8.CommandLine

open Text

inductive Flag where
  | help
  | frames
  | keys
  | config
  | realtime
  | debug
  | logfile
  | console
deriving DecidableEq, Repr

/-- The spellings of the options, in the order of messages. -/
def spellings : List (String × Flag) := [
  ("-h", .help), ("--help", .help), ("--frames", .frames), ("--keys", .keys),
  ("--config", .config), ("--realtime", .realtime), ("--debug", .debug),
  ("--logfile", .logfile), ("--console", .console)]

/-- All spellings of an option, as messages show it. -/
def Flag.label (flag : Flag) : String :=
  "/".intercalate ((spellings.filter fun entry => entry.2 = flag).map (·.1))

def Flag.hasValue : Flag → Bool
  | frames => true
  | keys => true
  | config => true
  | logfile => true
  | _ => false

inductive ArgumentProblem where
  | ambiguous (word : CodeText) (candidates : List String)
  | noValue (flag : Flag)
  /-- A value for an option that has none. -/
  | extraValue (flag : Flag) (value : CodeText)
  | noInteger (flag : Flag) (value : CodeText)
  | noProgram
  | unrecognized (words : List CodeText)
deriving DecidableEq, Repr

def ArgumentProblem.message : ArgumentProblem → CodeText
  | ambiguous word candidates =>
      codesOf "ambiguous option: " ++ word
        ++ codesOf (" could match " ++ ", ".intercalate candidates)
  | noValue flag => codesOf ("argument " ++ flag.label ++ ": expected one argument")
  | extraValue flag value =>
      codesOf ("argument " ++ flag.label ++ ": ignored explicit argument " ++ quotedCodes value)
  | noInteger flag value =>
      codesOf ("argument " ++ flag.label ++ ": invalid int value: " ++ quotedCodes value)
  | noProgram => codesOf "the following arguments are required: rom"
  | unrecognized words =>
      codesOf "unrecognized arguments: " ++ (codesOf " ").intercalate words

/-- The value of an option: not given, given without a value by two hyphens behind the equals sign,
or a value. -/
inductive Given (α : Type) where
  | absent
  | emptied
  | value (a : α)
deriving DecidableEq, Repr

structure Options where
  program : CodeText
  frames : Given Int
  keys : Given CodeText
  config : Given CodeText
  realtime : Bool
  debug : Bool
  logfile : Given CodeText
  console : Bool

inductive Request where
  | help
  | run (options : Options)

/-- An argument by its role. -/
inductive Word where
  | plain (text : CodeText)
  | option (flag : Flag) (value : Option CodeText)
  | unknown (text : CodeText)
  | separator
deriving DecidableEq, Repr

/-- Whether an argument is a negative number, which is no option. -/
def isNegativeNumber (cs : List Char) : Bool :=
  let isDigit := fun c => (digitValue? c).isSome
  match if cs.getLast? = some '\n' then cs.dropLast else cs with
  | '-' :: number =>
      match number.dropWhile isDigit with
      | [] => number ≠ []
      | '.' :: fraction => fraction ≠ [] && fraction.all isDigit
      | _ => false
  | _ => false

/-- The rules in which readers of arguments differ. -/
structure ArgumentRules where
  /-- Two hyphens behind an equals sign are a value like others, and not the lack of one. -/
  keepsHyphens : Bool
  /-- The letters behind a short spelling are options one by one, up to one that is none. -/
  readsLetters : Bool
deriving DecidableEq, Repr

def ArgumentRules.current : ArgumentRules := ⟨true, true⟩

def cutAtEquals (text : CodeText) : CodeText × Option CodeText :=
  match text.dropWhile (· ≠ .char '=') with
  | _ :: value => (text.takeWhile (· ≠ .char '='), some value)
  | [] => (text, none)

/-- The value behind the short spelling of help where the letters behind it are read one by one:
help is given at the first letter that is another one. -/
def valueBehindLetters : CodeText → Option CodeText
  | .char 'h' :: .char '=' :: value => some value
  | .char 'h' :: behind => valueBehindLetters behind
  | .char '-' :: behind => some (.char '-' :: behind)
  | _ => none

/-- The value behind the short spelling of help: what follows the letter, which may be repeated. -/
def valueBehindHelp (behind : CodeText) : Option CodeText :=
  match behind, behind.dropWhile (· = .char 'h') with
  | [], _ => some []
  | _ :: _, [] => none
  | _ :: _, rest => some rest

/-- The options that an inexact argument may mean. -/
def candidates (rules : ArgumentRules) (text : CodeText) : List (String × Word) :=
  match text with
  | .char '-' :: .char '-' :: _ =>
      let (start, value) := cutAtEquals text
      (spellings.filter fun entry => start.isPrefixOf (codesOf entry.1)).map fun entry =>
        (entry.1, .option entry.2 value)
  | .char '-' :: .char 'h' :: behind =>
      let value := if rules.readsLetters then valueBehindLetters behind else valueBehindHelp behind
      [("-h", .option .help value)]
  | _ => []

def exactly (rules : ArgumentRules) (spelling : CodeText) (value : Option CodeText) :
    Option Word :=
  (spellings.find? fun entry => codesOf entry.1 = spelling).map fun entry =>
    .option entry.2 (if spelling = codesOf "-h" ∧ !rules.readsLetters
      then value.bind valueBehindHelp else value)

def wordOf (rules : ArgumentRules) (text : CodeText) : Except ArgumentProblem Word :=
  let (start, value) := cutAtEquals text
  if text.head? ≠ some (.char '-') ∨ text = codesOf "-" then .ok (.plain text)
  else if let some word := exactly rules start value then .ok word
  else
    match candidates rules text with
    | [(_, word)] => .ok word
    | [] =>
        let isNumber := (chars? text).any isNegativeNumber
        .ok (if isNumber ∨ .char ' ' ∈ text then .plain text else .unknown text)
    | several => .error (.ambiguous text (several.map (·.1)))

/-- The roles of all arguments; those after the separator are plain. -/
def wordsOf (rules : ArgumentRules) : List CodeText → Except ArgumentProblem (List Word)
  | [] => .ok []
  | text :: rest =>
      if text = codesOf "--" then .ok (.separator :: rest.map .plain)
      else do
        let word ← wordOf rules text
        return word :: (← wordsOf rules rest)

/-- The options read so far, the program if it was found, and the arguments that nothing takes. -/
structure Reading where
  options : Options
  hasProgram : Bool
  extra : List CodeText

def Reading.found (r : Reading) (program : CodeText) : Reading :=
  { r with options := { r.options with program := program }, hasProgram := true }

def Reading.leave (r : Reading) (text : CodeText) : Reading :=
  { r with extra := r.extra ++ [text] }

/-- A value of an option as it counts: two hyphens alone may be none. -/
def givenBy (rules : ArgumentRules) (value : CodeText) : Given CodeText :=
  if value = codesOf "--" ∧ !rules.keepsHyphens then .emptied else .value value

def Options.put (rules : ArgumentRules) (o : Options) (flag : Flag) (value : CodeText) :
    Except ArgumentProblem Options :=
  match flag with
  | .frames =>
      match givenBy rules value with
      | .absent => .ok o
      | .emptied => .ok { o with frames := .emptied }
      | .value value =>
          match Number.integerOf 10 (.text value) with
          | .ok n => .ok { o with frames := .value n }
          | .error _ => .error (.noInteger flag value)
  | .keys => .ok { o with keys := givenBy rules value }
  | .config => .ok { o with config := givenBy rules value }
  | .logfile => .ok { o with logfile := givenBy rules value }
  | _ => .ok o

def Options.switchOn (o : Options) : Flag → Options
  | .realtime => { o with realtime := true }
  | .debug => { o with debug := true }
  | .console => { o with console := true }
  | _ => o

/-- Read arguments in order. `none` stands for a request for help. -/
def readWords (rules : ArgumentRules) :
    List Word → Reading → Except ArgumentProblem (Option Reading)
  | [], r => .ok (some r)
  | .plain text :: .separator :: rest, r =>
      if r.hasProgram then readWords rules rest ((r.leave text).leave (codesOf "--"))
      else readWords rules rest (r.found text)
  | .plain text :: rest, r =>
      if r.hasProgram then readWords rules rest (r.leave text)
      else readWords rules rest (r.found text)
  | .separator :: rest, r =>
      if r.hasProgram ∨ rest = [] then readWords rules rest (r.leave (codesOf "--"))
      else readWords rules rest r
  | .unknown text :: rest, r => readWords rules rest (r.leave text)
  | .option flag value :: rest, r =>
      if flag.hasValue then
        match value, rest with
        | some value, rest => do
            readWords rules rest { r with options := ← r.options.put rules flag value }
        | none, .plain value :: rest => do
            readWords rules rest { r with options := ← r.options.put rules flag value }
        | none, _ => .error (.noValue flag)
      else
        match value with
        | some value => .error (.extraValue flag value)
        | none =>
            if flag = .help then .ok none
            else readWords rules rest { r with options := r.options.switchOn flag }
termination_by words => words.length

def request (rules : ArgumentRules) (arguments : List CodeText) :
    Except ArgumentProblem Request := do
  let start : Options :=
    ⟨[], .absent, .absent, .absent, false, false, .absent, false⟩
  match ← readWords rules (← wordsOf rules arguments) ⟨start, false, []⟩ with
  | none => return .help
  | some r =>
      if !r.hasProgram then throw .noProgram
      if r.extra ≠ [] then throw (.unrecognized r.extra)
      return .run r.options

end Chip8.CommandLine
