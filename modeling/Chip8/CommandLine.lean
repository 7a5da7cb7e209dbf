import Chip8.CommandLine.Arguments
import Chip8.Config
import Chip8.Headless
import Chip8.Memory.Dump
import Chip8.Schedule.File

/-! # The command line

The command runs a program file without a window and prints its last frame. Problems of the input
are answered by one line and exit code 2. A log file is always made; it is empty unless debugging
is asked for, and then memory is dumped as well.
-/

namespace Chip8.CommandLine

open Text

def commandName : String := "chip8-run"

/-- The log file unless another one is named. -/
def usualLogfile : String := "processor.log"

def dumpFile : String := "memory_dump.txt"

/-- Why the command breaks off without an exit code. -/
inductive Failure where
  | logfile (problem : FileProblem)
  /-- The log file was given without a name. -/
  | logfileUnnamed
  | config (problem : Config.LoadProblem)
  | schedule (problem : Schedule.ScheduleProblem)
  | program (problem : FileProblem)
  | refused (reason : Refusal)
  /-- The number of frames was given without a number. -/
  | framesUnnumbered
  /-- A text that cannot be printed. -/
  | unprintable (text : CodeText)
deriving DecidableEq, Repr

def Failure.message : Failure → CodeText
  | logfile problem => codesOf problem.message
  | logfileUnnamed => codesOf "expected str, bytes or os.PathLike object, not list"
  | config problem => problem.message
  | schedule problem => codesOf problem.message
  | program problem => codesOf problem.message
  | refused reason => codesOf reason.message
  | framesUnnumbered => codesOf "'<' not supported between instances of 'int' and 'list'"
  | unprintable text => codesOf (noEncodingMessage text)

abbrev badInput : Nat := 2

/-- What the command does after its arguments are read: how it ends, what it prints, its log and the
lines of the memory dump, if there is one. -/
structure Conduct where
  ending : Except Failure Nat
  printed : String
  log : List LogEntry
  dump : Option (List String)

def linesText (lines : List String) : String := String.join (lines.map (· ++ "\n"))

/-- What is said about bad input: a label and a text. -/
structure Complaint where
  label : String
  text : CodeText
deriving DecidableEq, Repr

namespace Conduct

/-- An answer about bad input: one line with a complaint. If the text cannot be printed, the command
breaks off when the label is. -/
def complain (c : Complaint) (log : List LogEntry) : Conduct :=
  match chars? c.text with
  | some cs => ⟨.ok badInput, linesText [c.label ++ " " ++ String.ofList cs], log, none⟩
  | none => ⟨.error (.unprintable c.text), c.label ++ " ", log, none⟩

def fail (failure : Failure) (log : List LogEntry) : Conduct := ⟨.error failure, "", log, none⟩

end Conduct

def configSource : Given CodeText → Config.Source
  | .absent => .default
  | .emptied => .unsupported
  | .value path => .file path

/-- The schedule file that is asked for; an empty name asks for none. -/
def schedulePath : Given CodeText → Option CodeText
  | .value path => if path = [] then none else some path
  | _ => none

/-- A program that could not be run: one that is too large is answered. -/
def conductRefusal (reason : Refusal) (log : List LogEntry) : Conduct :=
  match reason with
  | .programTooLarge .. => .complain ⟨"Cannot load ROM:", codesOf reason.message⟩ log
  | _ => .fail (.refused reason) log

/-- The run of a program for a number of frames, and the dump of memory after it under
debugging. -/
def conductRun (tree : FileTree) (o : Options) (s : Settings) (program : List UInt8)
    (schedule : List KeyEvent) (frames : Option Int) (log : List LogEntry) : Conduct :=
  let run := Machine.runProgram s program schedule frames o.realtime
  let log := log ++ run.log
  match run.answer with
  | .error reason => conductRefusal reason log
  | .ok report =>
      let printed := linesText [report.screen.picture, "FRAMES: " ++ decimal report.frames,
        "STATE: " ++ report.ending.text]
      if !o.debug then ⟨.ok 0, printed, log, none⟩
      else
        match tree.writeProblem? dumpFile with
        | some problem => ⟨.ok 0, printed, log ++ [.dumpRefused problem.message], none⟩
        | none => ⟨.ok 0, printed, log, some run.machine.memory.dump⟩

/-- A program that is loaded, but not run as the number of frames is none. -/
def conductLoad (s : Settings) (program : List UInt8) (log : List LogEntry) : Conduct :=
  let loaded := (Machine.initial s).load s program
  let log := log ++ loaded.log
  match loaded.answer with
  | .error reason => conductRefusal reason log
  | .ok () => .fail .framesUnnumbered log

/-- The search for the program file, and its run. -/
def conductProgram (tree : FileTree) (o : Options) (s : Settings) (schedule : List KeyEvent)
    (log : List LogEntry) : Conduct :=
  match tree.files.has o.program with
  | .error problem => .fail (.program problem) log
  | .ok false => .complain ⟨"ROM file not found:", o.program⟩ log
  | .ok true =>
      match tree.files.read o.program, o.frames with
      | .error problem, _ => .fail (.program problem) log
      | .ok program, .absent => conductRun tree o s program schedule none log
      | .ok program, .value count => conductRun tree o s program schedule (some count) log
      | .ok program, .emptied => conductLoad s program log

/-- The search for the schedule file, and what follows. The file is looked for under its tidy path,
but read under the path as it is given. -/
def conductSchedule (tree : FileTree) (o : Options) (s : Settings) (text : CodeText) : Conduct :=
  match pathOf? text with
  | none => .complain ⟨"Key schedule file not found:", text⟩ []
  | some path =>
      match tree.has (tidyPath path) with
      | .error problem => .fail (.schedule (.unreadable problem)) []
      | .ok false => .complain ⟨"Key schedule file not found:", text⟩ []
      | .ok true =>
          match Schedule.ofFile tree path with
          | .ok events => conductProgram tree o s events [.scheduleRead path events]
          | .error problem =>
              if problem.isCaught then
                .complain ⟨"Bad key schedule:", text⟩ [.scheduleRefused path]
              else .fail (.schedule problem) []

/-- The configuration, then the schedule, then the program: the first bad one is answered. -/
def conduct (reader : Config.Reader) (tree : FileTree) (o : Options) : Conduct :=
  match Config.load reader tree.files (configSource o.config) with
  | .error (.rejected rejection) => .complain ⟨"Bad config:", rejection.message⟩ []
  | .error problem => .fail (.config problem) []
  | .ok config =>
      match schedulePath o.keys with
      | none => conductProgram tree o config.settings [] []
      | some path => conductSchedule tree o config.settings path

/-- The result of the command: how it ends, what it prints, the line about refused arguments, and
the files afterwards. -/
structure Result where
  ending : Except Failure Nat
  output : String
  complaint : Option CodeText
  files : FileTree

def logLine (entry : LogEntry) : String := entry.level ++ " " ++ entry.text

def consoleLine (entry : LogEntry) : String := alignRight 5 entry.level ++ " " ++ entry.text

/-- What the options ask for, with a log file. It is emptied first: it may be one of the files that
are read. -/
def runLogged (reader : Config.Reader) (tree : FileTree) (o : Options) (logfile : String) :
    Result :=
  match tree.writeProblem? logfile with
  | some problem => ⟨.error (.logfile problem), "", none, tree⟩
  | none =>
      let tree := tree.write logfile []
      let done := conduct reader tree o
      let log := if o.debug then done.log else []
      let echoed := if o.console then log.map consoleLine else []
      let tree := tree.write logfile (linesText (log.map logLine)).toUTF8.toList
      let tree := match done.dump with
        | some lines => tree.write dumpFile (linesText lines).toUTF8.toList
        | none => tree
      ⟨done.ending, linesText echoed ++ done.printed, none, tree⟩

def runOptions (reader : Config.Reader) (tree : FileTree) (o : Options) : Result :=
  match o.logfile with
  | .absent => runLogged reader tree o usualLogfile
  | .emptied => ⟨.error .logfileUnnamed, "", none, tree⟩
  | .value text =>
      match pathOf? text with
      | none => ⟨.error (.logfile (.noEncoding text)), "", none, tree⟩
      | some path => runLogged reader tree o path

def usage : String :=
  "usage: " ++ commandName ++ " [-h] [--frames FRAMES] [--keys KEYS] [--config CONFIG] "
    ++ "[--realtime] [--debug] [--logfile LOGFILE] [--console] rom\n"

/-- The command with its arguments. -/
def run (reader : Config.Reader) (rules : ArgumentRules) (tree : FileTree)
    (arguments : List CodeText) : Result :=
  match request rules arguments with
  | .error problem =>
      ⟨.ok badInput, "", some (codesOf (commandName ++ ": error: ") ++ problem.message), tree⟩
  | .ok .help => ⟨.ok 0, usage, none, tree⟩
  | .ok (.run o) => runOptions reader tree o

end Chip8.CommandLine
