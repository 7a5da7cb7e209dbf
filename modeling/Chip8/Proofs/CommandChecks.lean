import Chip8.Proofs.CommandFiles
import Chip8.Proofs.HeadlessRun

/-! # Checks of the command

The command checks its input in a fixed order: the configuration, the schedule, the program. Each
check has a complaint for its failure. A few inputs slip through, though the command cannot go on
with them: a complaint that cannot be printed, a name that cannot be looked up, a file that is not
opened, or not under the path as it is given, and a number of frames without a number.
-/

namespace Chip8

namespace Schedule

theorem key_of_readLine {line : List Char} {e : KeyEvent} (read : readLine line = .ok e) :
    0 ≤ e.key ∧ e.key < 16 := by
  unfold readLine at read
  split at read
  · split at read
    · cases read
    · split at read
      · split at read
        · cases read
        · next inRange =>
          obtain rfl := Except.ok.inj read
          constructor <;> simp only [] <;> omega
      · cases read
  · cases read

theorem keys_of_readLines {lines : List (List Char)} {events : List KeyEvent}
    (read : readLines lines = .ok events) : ∀ e ∈ events, 0 ≤ e.key ∧ e.key < 16 := by
  induction lines generalizing events with
  | nil =>
    obtain rfl := Except.ok.inj read
    simp
  | cons line rest ih =>
    simp only [readLines] at read
    split at read
    · exact ih read
    · split at read
      · cases read
      · next e isEvent =>
        cases later : readLines rest with
        | error problem =>
          rw [later] at read
          cases read
        | ok others =>
          rw [later] at read
          obtain rfl := Except.ok.inj read
          exact List.forall_mem_cons.mpr ⟨key_of_readLine isEvent, ih later⟩

/-- Keys of schedule files exist. -/
theorem keys_of_ofFile {tree : FileTree} {path : String} {events : List KeyEvent}
    (read : ofFile tree path = .ok events) : ∀ e ∈ events, 0 ≤ e.key ∧ e.key < 16 := by
  unfold ofFile at read
  split at read
  · cases read
  · unfold ofBytes at read
    split at read
    · exact keys_of_readLines read
    · next text problem _ =>
      cases judged : readLines (endedLines text) with
      | error problem =>
        rw [judged] at read
        cases read
      | ok events =>
        rw [judged] at read
        cases read

end Schedule

namespace CommandLine

open Text FileTree Machine

section Checks

/-- The bytes of the file at a path as it is given. A closed file shows none. -/
def contents (tree : FileTree) (text : CodeText) : Option (List UInt8) :=
  match found tree text with
  | some (.file bytes) => some bytes
  | _ => none

/-- The schedule that is asked for; without a schedule file it is empty. -/
def scheduleOf (tree : FileTree) (o : Options) :
    Except Schedule.ScheduleProblem (List KeyEvent) :=
  match schedulePath o.keys with
  | none => .ok []
  | some text =>
      match pathOf? text with
      | none => .error (.unreadable (.noEncoding text))
      | some path => Schedule.ofFile tree path

def configRejected (reader : Config.Reader) (tree : FileTree) (o : Options) : Option Complaint :=
  match Config.load reader tree.files (configSource o.config) with
  | .error (.rejected rejection) => some ⟨"Bad config:", rejection.message⟩
  | _ => none

def scheduleMissing (tree : FileTree) (o : Options) : Option Complaint :=
  (schedulePath o.keys).bind fun text =>
    if (found tree text).isNone then some ⟨"Key schedule file not found:", text⟩ else none

/-- The complaint about a schedule file that is no schedule. -/
def scheduleRejected (tree : FileTree) (o : Options) : Option Complaint :=
  (schedulePath o.keys).bind fun text =>
    match scheduleOf tree o with
    | .ok _ => none
    | .error problem => if problem.isCaught then some ⟨"Bad key schedule:", text⟩ else none

def programMissing (tree : FileTree) (o : Options) : Option Complaint :=
  if (found tree o.program).isNone then some ⟨"ROM file not found:", o.program⟩ else none

/-- The complaint about a program that does not fit. -/
def programTooLarge (tree : FileTree) (o : Options) : Option Complaint :=
  (contents tree o.program).bind fun program =>
    if program.length ≤ programCapacity then none
    else some ⟨"Cannot load ROM:",
      codesOf (Refusal.programTooLarge program.length programCapacity).message⟩

/-- The complaint of the first check that fails, in the order in which the input is checked. -/
def firstComplaint (reader : Config.Reader) (tree : FileTree) (o : Options) : Option Complaint :=
  (configRejected reader tree o).or <| (scheduleMissing tree o).or <|
    (scheduleRejected tree o).or <|
    (programMissing tree o).or (programTooLarge tree o)

/-- The configuration is accepted or rejected. -/
def IsJudged (reader : Config.Reader) (tree : FileTree) (o : Options) : Prop :=
  ∀ problem, Config.load reader tree.files (configSource o.config) = .error problem →
    ∃ rejection, problem = .rejected rejection

/-- Input that is not answered, though the command cannot go on with it. -/
inductive SlipsThrough (reader : Config.Reader) (tree : FileTree) (o : Options) : Prop
  /-- The first check that fails has a complaint that cannot be printed. -/
  | unprintable (c : Complaint) :
      firstComplaint reader tree o = some c → chars? c.text = none → SlipsThrough reader tree o
  /-- A schedule file of which it cannot even be said whether it is there. -/
  | scheduleName (text : CodeText) (problem : FileProblem) :
      configRejected reader tree o = none → schedulePath o.keys = some text →
      tree.files.has text = .error problem → SlipsThrough reader tree o
  /-- A schedule file that is closed, or that is there under its tidy path only. -/
  | scheduleFile (problem : Schedule.ScheduleProblem) :
      configRejected reader tree o = none → scheduleMissing tree o = none →
      scheduleOf tree o = .error problem → problem.isCaught = false → SlipsThrough reader tree o
  /-- A program file of which it cannot even be said whether it is there. -/
  | programName (problem : FileProblem) :
      configRejected reader tree o = none → scheduleMissing tree o = none →
      scheduleRejected tree o = none → tree.files.has o.program = .error problem →
      SlipsThrough reader tree o
  /-- A program file that is closed. -/
  | programFile (problem : FileProblem) :
      configRejected reader tree o = none → scheduleMissing tree o = none →
      scheduleRejected tree o = none → programMissing tree o = none →
      tree.files.read o.program = .error problem → SlipsThrough reader tree o
  /-- A number of frames without a number. -/
  | frames : firstComplaint reader tree o = none → o.frames = .emptied → SlipsThrough reader tree o

/-- What is printed before input that slips through breaks the command off: nothing, or the label of
a complaint that cannot be printed. -/
def IsRemnant (reader : Config.Reader) (tree : FileTree) (o : Options) (output : String) : Prop :=
  output = "" ∨ ∃ c, firstComplaint reader tree o = some c ∧ chars? c.text = none ∧
    output = c.label ++ " "

end Checks

/-- What comes of the search for a file that is no directory. -/
inductive Sought (tree : FileTree) (text : CodeText) : Prop
  | unnameable (problem : FileProblem) :
      tree.files.has text = .error problem → found tree text = none → Sought tree text
  | missing : tree.files.has text = .ok false → found tree text = none → Sought tree text
  | closed (problem : FileProblem) :
      tree.files.has text = .ok true → tree.files.read text = .error problem →
      found tree text ≠ none → contents tree text = none → Sought tree text
  | opened (bytes : List UInt8) :
      tree.files.has text = .ok true → tree.files.read text = .ok bytes →
      found tree text ≠ none → contents tree text = some bytes → Sought tree text

section Search

variable {tree : FileTree} {text : CodeText} {path : String}

theorem found_of_pathOf? (named : pathOf? text = some path) :
    found tree text = (tree.follow (tidyPath path)).toOption := by
  rw [found, named]
  rfl

theorem has_of_pathOf? (named : pathOf? text = some path) :
    tree.files.has text = tree.has (tidyPath path) := by
  simp only [files, named]

theorem read_of_pathOf? (named : pathOf? text = some path) :
    tree.files.read text = tree.read (tidyPath path) := by
  simp only [files, named]

theorem sought (noDirectory : ∀ entry, found tree text = some entry → entry.isDirectory = false) :
    Sought tree text := by
  cases named : pathOf? text with
  | none => exact .missing (by simp only [files, named]) (by rw [found, named]; rfl)
  | some path =>
    have lookedUp : found tree text = (tree.follow (tidyPath path)).toOption :=
      found_of_pathOf? named
    cases followed : tree.follow (tidyPath path) with
    | error problem =>
      rw [followed] at lookedUp
      by_cases absent : problem.isAbsence = true
      · refine .missing ?_ lookedUp
        rw [has_of_pathOf? named, has_of_problem followed absent]
      · refine .unnameable problem ?_ lookedUp
        rw [has_of_pathOf? named, has, followed]
        exact if_neg absent
    | ok entry =>
      rw [followed] at lookedUp
      have present : tree.files.has text = .ok true := by
        rw [has_of_pathOf? named, has, followed]
      have seen : found tree text ≠ none := lookedUp ▸ Option.some_ne_none entry
      have isFile := noDirectory entry lookedUp
      cases entry with
      | file bytes =>
        refine .opened bytes present ?_ seen ?_
        · rw [read_of_pathOf? named, FileTree.read, followed]
          rfl
        · rw [contents, lookedUp]
          rfl
      | closedFile number remark =>
        refine .closed (.system number remark (tidyPath path)) present ?_ seen ?_
        · rw [read_of_pathOf? named, FileTree.read, followed]
          rfl
        · rw [contents, lookedUp]
          rfl
      | directory => cases isFile
      | closedDirectory => cases isFile

end Search

section Program

variable {tree : FileTree} {o : Options} {s : Settings} {program : List UInt8} {c : Complaint}
  {schedule : List KeyEvent} {log : List LogEntry}

theorem conductProgram_of_read (present : tree.files.has o.program = .ok true)
    (read : tree.files.read o.program = .ok program) :
    conductProgram tree o s schedule log =
      if o.frames = .emptied then conductLoad s program log
      else conductRun tree o s program schedule (framesAsked o.frames) log := by
  simp only [conductProgram_eq, present, read]

theorem shown_conductProgram_of_unnameable {problem : FileProblem}
    (failed : tree.files.has o.program = .error problem) :
    (conductProgram tree o s schedule log).shown = (none, "") := by
  rw [conductProgram_eq, failed]
  rfl

variable (files : ∀ entry, found tree o.program = some entry → entry.isDirectory = false)
include files

theorem shown_conductProgram_of_missing (missing : programMissing tree o = some c) :
    (∃ problem, tree.files.has o.program = .error problem) ∨
      (conductProgram tree o s schedule log).shown = (Conduct.complain c []).shown := by
  rw [programMissing] at missing
  cases sought files with
  | unnameable problem failed => exact .inl ⟨problem, failed⟩
  | missing absent nothing =>
    rw [nothing, Option.isNone_none, if_pos rfl] at missing
    obtain rfl := Option.some.inj missing
    rw [conductProgram_eq, absent]
    exact .inr (shown_complain ..)
  | closed _ _ _ seen | opened _ _ _ seen => simp [seen] at missing

/-- A program that is not missing is there. It is read, if it is not closed. -/
theorem read_program (present : programMissing tree o = none) :
    tree.files.has o.program = .ok true ∧
      ((∃ problem, tree.files.read o.program = .error problem ∧ contents tree o.program = none) ∨
        ∃ program, tree.files.read o.program = .ok program ∧
          contents tree o.program = some program) := by
  rw [programMissing] at present
  cases sought files with
  | unnameable _ _ nothing | missing _ nothing => simp [nothing] at present
  | closed problem isThere failed _ noBytes => exact ⟨isThere, .inl ⟨problem, failed, noBytes⟩⟩
  | opened program isThere read _ bytes => exact ⟨isThere, .inr ⟨program, read, bytes⟩⟩

omit files in
theorem shown_conductProgram_of_closed {problem : FileProblem}
    (present : tree.files.has o.program = .ok true)
    (failed : tree.files.read o.program = .error problem) :
    (conductProgram tree o s schedule log).shown = (none, "") := by
  simp only [conductProgram_eq, present, failed]
  rfl

theorem shown_conductProgram_of_tooLarge (unpaced : o.realtime = false)
    (present : programMissing tree o = none) (tooLarge : programTooLarge tree o = some c) :
    (conductProgram tree o s schedule log).shown = (Conduct.complain c []).shown := by
  obtain ⟨isThere, ⟨problem, _, noBytes⟩ | ⟨program, read, bytes⟩⟩ := read_program files present
  · rw [programTooLarge, noBytes] at tooLarge
    cases tooLarge
  · rw [programTooLarge, bytes, Option.bind_some] at tooLarge
    split at tooLarge
    · cases tooLarge
    · next large =>
      obtain rfl := Option.some.inj tooLarge
      rw [conductProgram_of_read isThere read]
      split
      · rw [conductLoad, load_of_tooLarge s (initial s) (Nat.lt_of_not_le large)]
        exact shown_complain ..
      · have refused := runProgram_of_tooLarge s (Nat.lt_of_not_le large) schedule
          (framesAsked o.frames)
        rw [shown_conductRun_of_error unpaced refused]
        rfl

/-- A program that passes its checks is run, if it is not closed and the number of frames is a
number. -/
theorem shown_conductProgram_of_noComplaint (s : Settings) (log : List LogEntry)
    (unpaced : o.realtime = false) (keys : ∀ e ∈ schedule, 0 ≤ e.key ∧ e.key < 16)
    (present : programMissing tree o = none) (noLarger : programTooLarge tree o = none) :
    (∃ problem, tree.files.read o.program = .error problem) ∨
    ∃ program, contents tree o.program = some program ∧ program.length ≤ programCapacity ∧
      if o.frames = .emptied then (conductProgram tree o s schedule log).shown = (none, "")
      else ∃ report, (runProgram s program schedule (framesAsked o.frames)).answer = .ok report ∧
        (conductProgram tree o s schedule log).shown =
          (some 0, linesText (reportLines report)) := by
  obtain ⟨isThere, ⟨problem, failed, _⟩ | ⟨program, read, bytes⟩⟩ := read_program files present
  · exact .inl ⟨problem, failed⟩
  · rw [programTooLarge, bytes, Option.bind_some] at noLarger
    split at noLarger
    · next fits =>
      refine .inr ⟨program, bytes, fits, ?_⟩
      rw [conductProgram_of_read isThere read]
      split
      · rw [conductLoad, load_of_fits s (initial s) fits]
        rfl
      · obtain ⟨report, reported⟩ := runProgram_reports s fits keys (framesAsked o.frames)
        exact ⟨report, reported, shown_conductRun_of_ok unpaced reported⟩
    · cases noLarger

end Program

section Conduct

variable {reader : Config.Reader} {tree : FileTree} {o : Options} {config : Config}
  {text : CodeText} {path : String} {c : Complaint}

/-- Without a complaint about it, the configuration is accepted. -/
theorem exists_config (judged : IsJudged reader tree o)
    (noComplaint : configRejected reader tree o = none) :
    ∃ config, Config.load reader tree.files (configSource o.config) = .ok config := by
  cases loaded : Config.load reader tree.files (configSource o.config) with
  | ok config => exact ⟨config, rfl⟩
  | error problem =>
    obtain ⟨rejection, rfl⟩ := judged problem loaded
    rw [configRejected, loaded] at noComplaint
    cases noComplaint

theorem isJudged_of_accepted
    (accepted : Config.load reader tree.files (configSource o.config) = .ok config) :
    IsJudged reader tree o := by
  intro problem failed
  rw [accepted] at failed
  cases failed

theorem conduct_of_configRejected (complaint : configRejected reader tree o = some c) :
    conduct reader tree o = .complain c [] := by
  unfold configRejected at complaint
  split at complaint
  · next rejection rejected =>
    obtain rfl := Option.some.inj complaint
    rw [conduct, rejected]
  · cases complaint

theorem conduct_of_schedule
    (accepted : Config.load reader tree.files (configSource o.config) = .ok config)
    (asked : schedulePath o.keys = some text) :
    conduct reader tree o = conductSchedule tree o config.settings text := by
  rw [conduct, accepted, asked]

theorem conduct_of_noSchedule
    (accepted : Config.load reader tree.files (configSource o.config) = .ok config)
    (asked : schedulePath o.keys = none) :
    conduct reader tree o = conductProgram tree o config.settings [] [] := by
  rw [conduct, accepted, asked]

/-- A schedule file of which it cannot be said whether it is there breaks the command off. -/
theorem shown_conduct_of_scheduleName
    (accepted : Config.load reader tree.files (configSource o.config) = .ok config)
    (asked : schedulePath o.keys = some text) {problem : FileProblem}
    (failed : tree.files.has text = .error problem) :
    (conduct reader tree o).shown = (none, "") := by
  rw [conduct_of_schedule accepted asked]
  unfold conductSchedule
  split
  · next unnamed =>
    simp only [files, unnamed] at failed
    cases failed
  · next path named =>
    rw [has_of_pathOf? named] at failed
    rw [failed]
    rfl

variable (accepted : Config.load reader tree.files (configSource o.config) = .ok config)
  (files : ∀ text, schedulePath o.keys = some text →
    ∀ entry, found tree text = some entry → entry.isDirectory = false)
include accepted files

theorem shown_conduct_of_scheduleMissing (complaint : scheduleMissing tree o = some c) :
    (∃ text problem, schedulePath o.keys = some text ∧ tree.files.has text = .error problem) ∨
      (conduct reader tree o).shown = (Conduct.complain c []).shown := by
  obtain ⟨text, asked, missing⟩ := Option.bind_eq_some_iff.mp complaint
  cases sought (files text asked) with
  | unnameable problem failed => exact .inl ⟨text, problem, asked, failed⟩
  | missing absent nothing =>
    rw [nothing, Option.isNone_none, if_pos rfl] at missing
    obtain rfl := Option.some.inj missing
    refine .inr ?_
    rw [conduct_of_schedule accepted asked]
    unfold conductSchedule
    split
    · rfl
    · next path named =>
      rw [has_of_pathOf? named] at absent
      rw [absent]
  | closed _ _ _ seen | opened _ _ _ seen => simp [seen] at missing

omit accepted in
/-- A schedule file that is not missing is there. -/
theorem exists_path_of_scheduleMissing (asked : schedulePath o.keys = some text)
    (present : scheduleMissing tree o = none) :
    ∃ path, pathOf? text = some path ∧ tree.has (tidyPath path) = .ok true := by
  have seen : found tree text ≠ none := by
    intro nothing
    simp [scheduleMissing, asked, nothing] at present
  have isThere : tree.files.has text = .ok true := by
    cases sought (files text asked) with
    | unnameable _ _ nothing | missing _ nothing => exact absurd nothing seen
    | closed _ isThere | opened _ isThere => exact isThere
  cases named : pathOf? text with
  | none =>
    simp only [FileTree.files, named] at isThere
    cases isThere
  | some path => exact ⟨path, rfl, has_of_pathOf? named ▸ isThere⟩

omit accepted files in
theorem scheduleOf_of_asked (asked : schedulePath o.keys = some text)
    (named : pathOf? text = some path) : scheduleOf tree o = Schedule.ofFile tree path := by
  simp only [scheduleOf, asked, named]

/-- After a schedule that is read, the search for the program follows. -/
theorem conduct_of_scheduleOf (present : scheduleMissing tree o = none)
    {schedule : List KeyEvent} (read : scheduleOf tree o = .ok schedule) :
    (∀ e ∈ schedule, 0 ≤ e.key ∧ e.key < 16) ∧
      ∃ log, conduct reader tree o = conductProgram tree o config.settings schedule log := by
  cases asked : schedulePath o.keys with
  | none =>
    rw [scheduleOf, asked] at read
    obtain rfl := Except.ok.inj read
    exact ⟨by simp, [], conduct_of_noSchedule accepted asked⟩
  | some text =>
    obtain ⟨path, named, isThere⟩ := exists_path_of_scheduleMissing files asked present
    rw [scheduleOf_of_asked asked named] at read
    refine ⟨Schedule.keys_of_ofFile read, [.scheduleRead path schedule], ?_⟩
    rw [conduct_of_schedule accepted asked]
    unfold conductSchedule
    simp only [named, isThere, read]

/-- A schedule that is not read is complained about, if its problem is caught. -/
theorem shown_conduct_of_scheduleOf_error (present : scheduleMissing tree o = none)
    {problem : Schedule.ScheduleProblem} (failed : scheduleOf tree o = .error problem) :
    ∃ text, schedulePath o.keys = some text ∧ (conduct reader tree o).shown =
      if problem.isCaught then (Conduct.complain ⟨"Bad key schedule:", text⟩ []).shown
      else (none, "") := by
  cases asked : schedulePath o.keys with
  | none =>
    rw [scheduleOf, asked] at failed
    cases failed
  | some text =>
    obtain ⟨path, named, isThere⟩ := exists_path_of_scheduleMissing files asked present
    rw [scheduleOf_of_asked asked named] at failed
    refine ⟨text, rfl, ?_⟩
    rw [conduct_of_schedule accepted asked]
    unfold conductSchedule
    simp only [named, isThere, failed]
    split
    · exact shown_complain ..
    · rfl

/-- Without a complaint about it the schedule is read, and the search for the program follows. The
exception is a schedule file that is closed, or that is there under its tidy path only. -/
theorem conduct_of_noComplaint (noComplaint : configRejected reader tree o = none)
    (present : scheduleMissing tree o = none) (readable : scheduleRejected tree o = none) :
    (SlipsThrough reader tree o ∧ (conduct reader tree o).shown = (none, "")) ∨
    ∃ schedule log, scheduleOf tree o = .ok schedule ∧
      (∀ e ∈ schedule, 0 ≤ e.key ∧ e.key < 16) ∧
      conduct reader tree o = conductProgram tree o config.settings schedule log := by
  cases read : scheduleOf tree o with
  | ok schedule =>
    obtain ⟨keys, log, goesOn⟩ := conduct_of_scheduleOf accepted files present read
    exact .inr ⟨schedule, log, rfl, keys, goesOn⟩
  | error problem =>
    obtain ⟨text, asked, shown⟩ :=
      shown_conduct_of_scheduleOf_error accepted files present read
    have escapes : ¬ problem.isCaught = true := by
      intro caught
      simp [scheduleRejected, asked, read, caught] at readable
    rw [if_neg escapes] at shown
    exact .inl ⟨.scheduleFile problem noComplaint present read (Bool.eq_false_iff.mpr escapes),
      shown⟩

end Conduct

end CommandLine

end Chip8
