import Chip8.CommandLine
import Chip8.Proofs.FileTrees

/-! # Input files of the command

The command empties its log file before it looks at its input. As long as the log file is none of
the input files, the command ends and prints as if it had not.
-/

namespace Chip8.CommandLine

open Text FileTree

/-- What the command shows of a conduct: its exit code, if it has one, and what it prints. -/
def Conduct.shown (c : Conduct) : Option Nat × String := (c.ending.toOption, c.printed)

def Complaint.line (c : Complaint) : CodeText := codesOf (c.label ++ " ") ++ c.text

/-- What is shown is one line about bad input. -/
def IsAnswer (c : Complaint) (shown : Option Nat × String) : Prop :=
  shown.1 = some badInput ∧ codesOf shown.2 = c.line ++ codesOf "\n"

/-- The path of the log file, the usual one unless another one is named. -/
def logfileOf : Given CodeText → Option String
  | .absent => some usualLogfile
  | .emptied => none
  | .value text => pathOf? text

def configPath : Given CodeText → Option CodeText
  | .value text => some text
  | _ => none

def framesAsked : Given Int → Option Int
  | .value count => some count
  | _ => none

def inputPaths (o : Options) : List CodeText :=
  o.program :: (schedulePath o.keys).toList ++ (configPath o.config).toList

def reportLines (report : RunReport) : List String :=
  [report.screen.picture, "FRAMES: " ++ decimal report.frames, "STATE: " ++ report.ending.text]

/-- What is at a path as it is given, if there is something. -/
def found (tree : FileTree) (text : CodeText) : Option FileEntry :=
  (pathOf? text).bind fun path => (tree.follow (tidyPath path)).toOption

variable {reader : Config.Reader} {tree : FileTree} {o : Options} {s : Settings}
  {program : List UInt8} {path : String} {text : CodeText}
  {schedule : List KeyEvent} {frames : Option Int} {log : List LogEntry} {logfile : String}

/-- The input files of a command are other files than the log file. -/
def IsApart (logfile : String) (o : Options) : Prop :=
  ∀ text ∈ inputPaths o, ∀ path, pathOf? text = some path →
    (Location.ofPath path).path ≠ (Location.ofPath logfile).path

def HasNoDirectory (tree : FileTree) (o : Options) : Prop :=
  ∀ text ∈ inputPaths o, ∀ entry, found tree text = some entry → entry.isDirectory = false

section Complain

variable {c : Complaint}

theorem shown_complain_of_chars? {cs : List Char} (whole : chars? c.text = some cs)
    (log : List LogEntry) :
    (Conduct.complain c log).shown =
      (some badInput, linesText [c.label ++ " " ++ String.ofList cs]) := by
  unfold Conduct.complain
  rw [whole]
  rfl

/-- A text that cannot be printed breaks the command off behind the label. -/
theorem shown_complain_of_halves (halves : chars? c.text = none) (log : List LogEntry) :
    (Conduct.complain c log).shown = (none, c.label ++ " ") := by
  unfold Conduct.complain
  rw [halves]
  rfl

theorem shown_complain (log log' : List LogEntry) :
    (Conduct.complain c log').shown = (Conduct.complain c log).shown := by
  cases whole : chars? c.text with
  | some cs => rw [shown_complain_of_chars? whole, shown_complain_of_chars? whole]
  | none => rw [shown_complain_of_halves whole, shown_complain_of_halves whole]

/-- A complaint that can be printed is one line about bad input. -/
theorem isAnswer_complain (whole : chars? c.text ≠ none) (log : List LogEntry) :
    IsAnswer c (Conduct.complain c log).shown := by
  obtain ⟨cs, whole⟩ := Option.ne_none_iff_exists'.mp whole
  have again : codesOf (String.ofList cs) = c.text := by
    rw [codesOf, String.toList_ofList, codes_of_chars? whole]
  rw [shown_complain_of_chars? whole]
  refine ⟨rfl, ?_⟩
  simp only [linesText, List.map_cons, List.map_nil, String.join_cons, String.join_nil,
    String.append_empty, codesOf_append, again, Complaint.line]

end Complain

theorem shown_conductRefusal (reason : Refusal) (log log' : List LogEntry) :
    (conductRefusal reason log).shown = (conductRefusal reason log').shown := by
  unfold conductRefusal
  split
  · exact shown_complain log' log
  · rfl

theorem shown_conductRun_of_ok {report : RunReport} (unpaced : o.realtime = false)
    (reported : (Machine.runProgram s program schedule frames).answer = .ok report) :
    (conductRun tree o s program schedule frames log).shown =
      (some 0, linesText (reportLines report)) := by
  simp only [conductRun, unpaced, reported]
  split
  · rfl
  · split <;> rfl

theorem shown_conductRun_of_error {reason : Refusal} (unpaced : o.realtime = false)
    (refused : (Machine.runProgram s program schedule frames).answer = .error reason) :
    (conductRun tree o s program schedule frames log).shown = (conductRefusal reason []).shown := by
  simp only [conductRun, unpaced, refused]
  exact shown_conductRefusal ..

/-- What is shown of a run depends neither on files nor on what was logged before. -/
theorem shown_conductRun (unpaced : o.realtime = false) (tree tree' : FileTree)
    (log log' : List LogEntry) :
    (conductRun tree' o s program schedule frames log').shown =
      (conductRun tree o s program schedule frames log).shown := by
  cases answer : (Machine.runProgram s program schedule frames).answer with
  | ok report => rw [shown_conductRun_of_ok unpaced answer, shown_conductRun_of_ok unpaced answer]
  | error reason =>
    rw [shown_conductRun_of_error unpaced answer, shown_conductRun_of_error unpaced answer]

theorem shown_conductLoad (log log' : List LogEntry) :
    (conductLoad s program log').shown = (conductLoad s program log).shown := by
  simp only [conductLoad]
  split
  · exact shown_conductRefusal ..
  · rfl

theorem conductProgram_eq (tree : FileTree) (o : Options) (s : Settings)
    (schedule : List KeyEvent) (log : List LogEntry) :
    conductProgram tree o s schedule log =
      match tree.files.has o.program with
      | .error problem => .fail (.program problem) log
      | .ok false => .complain ⟨"ROM file not found:", o.program⟩ log
      | .ok true =>
          match tree.files.read o.program with
          | .error problem => .fail (.program problem) log
          | .ok program =>
              if o.frames = .emptied then conductLoad s program log
              else conductRun tree o s program schedule (framesAsked o.frames) log := by
  unfold conductProgram
  cases tree.files.has o.program with
  | error problem => rfl
  | ok present =>
    cases present with
    | false => rfl
    | true =>
      cases tree.files.read o.program with
      | error problem => rfl
      | ok program => cases o.frames <;> rfl

theorem program_mem_inputPaths (o : Options) : o.program ∈ inputPaths o := List.mem_cons_self ..

theorem schedule_mem_inputPaths (asked : schedulePath o.keys = some text) :
    text ∈ inputPaths o := by
  simp [inputPaths, asked]

theorem config_mem_inputPaths (asked : o.config = .value text) : text ∈ inputPaths o := by
  simp [inputPaths, asked, configPath]

variable (writable : tree.writeProblem? logfile = none) (apart : IsApart logfile o)
include writable apart

theorem has_files_write (member : text ∈ inputPaths o) (bytes : List UInt8) :
    (tree.write logfile bytes).files.has text = tree.files.has text := by
  simp only [files]
  split
  · rfl
  · next path named =>
    apply has_write writable
    rw [Location.ofPath_tidyPath]
    exact apart text member path named

/-- An input file that is there is read as before the log file was written. -/
theorem read_files_write (member : text ∈ inputPaths o) (bytes : List UInt8)
    (present : tree.files.has text = .ok true) :
    (tree.write logfile bytes).files.read text = tree.files.read text := by
  simp only [files] at present ⊢
  split
  · rfl
  · next path named =>
    rw [named] at present
    apply read_write_of_has writable _ bytes present
    rw [Location.ofPath_tidyPath]
    exact apart text member path named

theorem load_write (bytes : List UInt8) :
    Config.load reader (tree.write logfile bytes).files (configSource o.config) =
      Config.load reader tree.files (configSource o.config) := by
  cases asked : o.config with
  | absent => rfl
  | emptied => rfl
  | value text =>
    have member := config_mem_inputPaths asked
    change Config.ofFile reader _ text = Config.ofFile reader _ text
    unfold Config.ofFile Config.readEntries
    rw [has_files_write writable apart member bytes]
    split
    · rfl
    · rfl
    · next present => rw [read_files_write writable apart member bytes present]

theorem shown_conductProgram_write (unpaced : o.realtime = false) (bytes : List UInt8)
    (log log' : List LogEntry) :
    (conductProgram (tree.write logfile bytes) o s schedule log').shown =
      (conductProgram tree o s schedule log).shown := by
  have member := program_mem_inputPaths o
  rw [conductProgram_eq, conductProgram_eq, has_files_write writable apart member bytes]
  split
  · rfl
  · exact shown_complain ..
  · next present =>
    rw [read_files_write writable apart member bytes present]
    split
    · rfl
    · split
      · exact shown_conductLoad ..
      · exact shown_conductRun unpaced ..

theorem shown_conductSchedule_write (unpaced : o.realtime = false)
    (asked : schedulePath o.keys = some text) (bytes : List UInt8) :
    (conductSchedule (tree.write logfile bytes) o s text).shown =
      (conductSchedule tree o s text).shown := by
  unfold conductSchedule
  split
  · rfl
  · next path named =>
    have other := apart text (schedule_mem_inputPaths asked) path named
    rw [has_write writable (by rwa [Location.ofPath_tidyPath]) bytes]
    split
    · rfl
    · rfl
    · have alike := read_write writable other bytes
      unfold Schedule.ofFile
      generalize (tree.write logfile bytes).read path = now at alike
      generalize tree.read path = before at alike
      cases alike with
      | same =>
        cases now with
        | error problem => rfl
        | ok text =>
          simp only
          split
          · exact shown_conductProgram_write writable apart unpaced ..
          · rfl
      | nothing absent absent' =>
        simp only [Schedule.ScheduleProblem.isCaught, absent.2, absent'.2]
        rfl

/-- What is shown is what the input files lead to, though the log file was emptied before. -/
theorem shown_conduct_write (unpaced : o.realtime = false) (bytes : List UInt8) :
    (conduct reader (tree.write logfile bytes) o).shown = (conduct reader tree o).shown := by
  unfold conduct
  rw [load_write writable apart bytes]
  split
  · rfl
  · rfl
  · split
    · exact shown_conductProgram_write writable apart unpaced ..
    · next asked => exact shown_conductSchedule_write writable apart unpaced asked bytes

end Chip8.CommandLine
