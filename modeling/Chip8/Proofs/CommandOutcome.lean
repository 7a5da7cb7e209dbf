import Chip8.Proofs.CommandChecks
import Chip8.Proofs.StreamBlindness

/-! # Outcomes of the command

The command answers the first check that fails with one line and exit code 2. If none fails it
prints what a headless run of the program under the configuration reports. Input that slips through
the checks breaks it off.
-/

namespace Chip8.CommandLine

open Text FileTree Machine

/-- The result of the command is the line of the first check that fails, with exit code 2, or what
a headless run reports, with exit code 0. -/
def Agrees (reader : Config.Reader) (tree : FileTree) (o : Options) (result : Result) : Prop :=
  match firstComplaint reader tree o with
  | some c => result.ending = .ok badInput ∧ codesOf result.output = c.line ++ codesOf "\n"
  | none => result.ending = .ok 0 ∧ ∃ program schedule s,
      contents tree o.program = some program ∧ scheduleOf tree o = .ok schedule ∧
      Config.prepare reader tree.files (configSource o.config) = .ok s ∧
      ∀ stream, (s.seed ≠ none → stream = .ofSeed s.seed) →
        IsDetermined s stream program schedule ((framesAsked o.frames).getD s.frameLimit) →
        ∃ report, (runFrom s stream program schedule (framesAsked o.frames)).answer = .ok report ∧
          result.output = linesText (reportLines report)

section Outcome

variable {reader : Config.Reader} {tree : FileTree} {o : Options} {c : Complaint}

theorem HasNoDirectory.atProgram (files : HasNoDirectory tree o) :
    ∀ entry, found tree o.program = some entry → entry.isDirectory = false :=
  files o.program (program_mem_inputPaths o)

theorem HasNoDirectory.atSchedule (files : HasNoDirectory tree o) (text : CodeText)
    (asked : schedulePath o.keys = some text) :
    ∀ entry, found tree text = some entry → entry.isDirectory = false :=
  files text (schedule_mem_inputPaths asked)

variable (unpaced : o.realtime = false) (files : HasNoDirectory tree o)
  (judged : IsJudged reader tree o)
include unpaced files judged

/-- The first check that fails is complained about, unless the command is broken off before. -/
theorem shown_of_firstComplaint (complaint : firstComplaint reader tree o = some c) :
    (SlipsThrough reader tree o ∧ (conduct reader tree o).shown = (none, "")) ∨
      (conduct reader tree o).shown = (Conduct.complain c []).shown := by
  rw [firstComplaint, Option.or_eq_some_iff] at complaint
  obtain complaint | ⟨noComplaint, later⟩ := complaint
  · exact .inr (by rw [conduct_of_configRejected complaint])
  obtain ⟨config, accepted⟩ := exists_config judged noComplaint
  rw [Option.or_eq_some_iff] at later
  obtain complaint | ⟨present, later⟩ := later
  · obtain ⟨text, problem, asked, failed⟩ | shown :=
      shown_conduct_of_scheduleMissing accepted files.atSchedule complaint
    · exact .inl ⟨.scheduleName text problem noComplaint asked failed,
        shown_conduct_of_scheduleName accepted asked failed⟩
    · exact .inr shown
  rw [Option.or_eq_some_iff] at later
  obtain complaint | ⟨readable, later⟩ := later
  · obtain ⟨text, asked, rejected⟩ := Option.bind_eq_some_iff.mp complaint
    cases read : scheduleOf tree o with
    | ok schedule =>
      rw [read] at rejected
      cases rejected
    | error problem =>
      obtain ⟨text', asked', shown⟩ :=
        shown_conduct_of_scheduleOf_error accepted files.atSchedule present read
      obtain rfl := Option.some.inj (asked.symm.trans asked')
      simp only [read] at rejected
      split at rejected
      · next caught =>
        obtain rfl := Option.some.inj rejected
        exact .inr (shown.trans (if_pos caught))
      · cases rejected
  obtain slips | ⟨schedule, log, -, -, goesOn⟩ :=
    conduct_of_noComplaint accepted files.atSchedule noComplaint present readable
  · exact .inl slips
  rw [Option.or_eq_some_iff] at later
  rw [goesOn]
  obtain complaint | ⟨isThere, complaint⟩ := later
  · obtain ⟨problem, failed⟩ | shown := shown_conductProgram_of_missing files.atProgram complaint
    · exact .inl ⟨.programName problem noComplaint present readable failed,
        shown_conductProgram_of_unnameable failed⟩
    · exact .inr shown
  · exact .inr (shown_conductProgram_of_tooLarge files.atProgram unpaced isThere complaint)

/-- Input that slips through breaks the command off before it has printed a line. -/
theorem shown_of_slipsThrough (slips : SlipsThrough reader tree o) :
    (conduct reader tree o).shown.1 = none ∧
      IsRemnant reader tree o (conduct reader tree o).shown.2 := by
  have silent (shown : (conduct reader tree o).shown = (none, "")) :
      (conduct reader tree o).shown.1 = none ∧
        IsRemnant reader tree o (conduct reader tree o).shown.2 := by
    rw [shown]
    exact ⟨rfl, .inl rfl⟩
  cases slips with
  | unprintable c complaint halves =>
    obtain ⟨-, shown⟩ | shown := shown_of_firstComplaint unpaced files judged complaint
    · exact silent shown
    · rw [shown, shown_complain_of_halves halves]
      exact ⟨rfl, .inr ⟨c, complaint, halves, rfl⟩⟩
  | scheduleName text problem noComplaint asked failed =>
    obtain ⟨config, accepted⟩ := exists_config judged noComplaint
    exact silent (shown_conduct_of_scheduleName accepted asked failed)
  | scheduleFile problem noComplaint present failed escapes =>
    obtain ⟨config, accepted⟩ := exists_config judged noComplaint
    obtain ⟨text, -, shown⟩ :=
      shown_conduct_of_scheduleOf_error accepted files.atSchedule present failed
    rw [escapes] at shown
    exact silent shown
  | programName problem noComplaint present readable failed =>
    obtain ⟨config, accepted⟩ := exists_config judged noComplaint
    obtain ⟨-, shown⟩ | ⟨schedule, log, -, -, goesOn⟩ :=
      conduct_of_noComplaint accepted files.atSchedule noComplaint present readable
    · exact silent shown
    · exact silent (goesOn ▸ shown_conductProgram_of_unnameable failed)
  | programFile problem noComplaint present readable isThere failed =>
    obtain ⟨config, accepted⟩ := exists_config judged noComplaint
    obtain ⟨-, shown⟩ | ⟨schedule, log, -, -, goesOn⟩ :=
      conduct_of_noComplaint accepted files.atSchedule noComplaint present readable
    · exact silent shown
    · have seen := (read_program files.atProgram isThere).1
      exact silent (goesOn ▸ shown_conductProgram_of_closed seen failed)
  | frames noComplaint unnumbered =>
    simp only [firstComplaint, Option.or_eq_none_iff] at noComplaint
    obtain ⟨noComplaint, present, readable, isThere, fits⟩ := noComplaint
    obtain ⟨config, accepted⟩ := exists_config judged noComplaint
    obtain ⟨-, shown⟩ | ⟨schedule, log, -, keys, goesOn⟩ :=
      conduct_of_noComplaint accepted files.atSchedule noComplaint present readable
    · exact silent shown
    · have seen := (read_program files.atProgram isThere).1
      obtain ⟨problem, failed⟩ | ⟨program, -, -, ended⟩ := shown_conductProgram_of_noComplaint
        files.atProgram config.settings log unpaced keys isThere fits
      · exact silent (goesOn ▸ shown_conductProgram_of_closed seen failed)
      · rw [if_pos unnumbered] at ended
        exact silent (goesOn ▸ ended)

/-- If no check fails and nothing slips through, the program is run, and the run is reported. -/
theorem shown_of_noComplaint (caught : ¬ SlipsThrough reader tree o)
    (noComplaint : firstComplaint reader tree o = none) :
    ∃ config program schedule report,
      Config.load reader tree.files (configSource o.config) = .ok config ∧
      contents tree o.program = some program ∧ program.length ≤ programCapacity ∧
      scheduleOf tree o = .ok schedule ∧
      (runProgram config.settings program schedule (framesAsked o.frames)).answer = .ok report ∧
      (conduct reader tree o).shown = (some 0, linesText (reportLines report)) := by
  have numbered : o.frames ≠ .emptied := fun unnumbered => caught (.frames noComplaint unnumbered)
  simp only [firstComplaint, Option.or_eq_none_iff] at noComplaint
  obtain ⟨noComplaint, present, readable, isThere, noLarger⟩ := noComplaint
  obtain ⟨config, accepted⟩ := exists_config judged noComplaint
  obtain ⟨slips, -⟩ | ⟨schedule, log, asked, keys, goesOn⟩ :=
    conduct_of_noComplaint accepted files.atSchedule noComplaint present readable
  · exact absurd slips caught
  obtain ⟨problem, failed⟩ | ⟨program, bytes, fits, ended⟩ := shown_conductProgram_of_noComplaint
    files.atProgram config.settings log unpaced keys isThere noLarger
  · exact absurd (.programFile problem noComplaint present readable isThere failed) caught
  rw [if_neg numbered] at ended
  obtain ⟨report, reported, shown⟩ := ended
  exact ⟨config, program, schedule, report, accepted, bytes, fits, asked, reported, goesOn ▸ shown⟩

end Outcome

section Arguments

variable {rules : ArgumentRules} {o o' : Options}

/-- The number of frames is a number, if it is given. -/
def Options.IsNumbered (o : Options) : Prop := o.frames ≠ .emptied

theorem Options.IsNumbered.put (keeps : rules.keepsHyphens = true) (numbered : o.IsNumbered)
    {flag : Flag} {value : CodeText} (put : o.put rules flag value = .ok o') : o'.IsNumbered := by
  have given : givenBy rules value = .value value := by simp [givenBy, keeps]
  unfold Options.put at put
  simp only [given] at put
  cases flag with
  | frames =>
    cases read : Number.integerOf 10 (.text value) with
    | ok n =>
      rw [read] at put
      obtain rfl := Except.ok.inj put
      intro emptied
      cases emptied
    | error problem =>
      rw [read] at put
      cases put
  | _ =>
    obtain rfl := Except.ok.inj put
    exact numbered

theorem Options.IsNumbered.switchOn (numbered : o.IsNumbered) (flag : Flag) :
    (o.switchOn flag).IsNumbered := by
  cases flag <;> exact numbered

theorem isNumbered_of_readWords (keeps : rules.keepsHyphens = true) {words : List Word}
    {r r' : Reading} (numbered : r.options.IsNumbered)
    (read : readWords rules words r = .ok (some r')) : r'.options.IsNumbered := by
  fun_induction readWords rules words r with
  | case1 r =>
    obtain rfl := Option.some.inj (Except.ok.inj read)
    exact numbered
  | case9 flag r _ value rest ih | case10 flag r _ value rest ih =>
    obtain ⟨o, put, read⟩ := (Config.bind_eq_ok ..).mp read
    exact ih o (numbered.put keeps put) read
  | case11 | case12 | case13 => cases read
  | case14 flag rest r _ _ ih => exact ih (numbered.switchOn flag) read
  | _ => rename_i ih; exact ih numbered read

/-- Where two hyphens are a value like others, no arguments give a number of frames without a
number. -/
theorem isNumbered_of_request (keeps : rules.keepsHyphens = true) {arguments : List CodeText}
    (asked : request rules arguments = .ok (.run o)) : o.IsNumbered := by
  obtain ⟨words, -, asked⟩ := (Config.bind_eq_ok ..).mp asked
  obtain ⟨reading, read, asked⟩ := (Config.bind_eq_ok ..).mp asked
  cases reading with
  | none => cases asked
  | some r =>
    have numbered : r.options.IsNumbered :=
      isNumbered_of_readWords keeps (by intro emptied; cases emptied) read
    dsimp only at asked
    split at asked
    · cases asked
    · split at asked
      · cases asked
      · cases asked
        exact numbered

end Arguments

section Main

variable {reader : Config.Reader} {rules : ArgumentRules} {tree : FileTree}
  {arguments : List CodeText} {o : Options} {logfile : String}

variable (reader) in
/-- A command that is not echoed prints what its conduct prints. -/
theorem run_eq_conduct (asked : request rules arguments = .ok (.run o)) (quiet : o.console = false)
    (named : logfileOf o.logfile = some logfile) (writable : tree.writeProblem? logfile = none) :
    (run reader rules tree arguments).ending =
        (conduct reader (tree.write logfile []) o).ending ∧
      (run reader rules tree arguments).output =
        (conduct reader (tree.write logfile []) o).printed := by
  have logged : run reader rules tree arguments = runLogged reader tree o logfile := by
    rw [run, asked]
    unfold logfileOf at named
    split at named
    · next isUsual =>
      obtain rfl := Option.some.inj named
      simp only [runOptions, isUsual]
    · cases named
    · next isNamed => simp only [runOptions, isNamed, named]
  have nothing : linesText [] = "" := rfl
  rw [logged]
  simp only [runLogged, writable, quiet, Bool.false_eq_true, ↓reduceIte, nothing,
    String.empty_append, and_self]

variable (reader) in
/-- What a command shows is what its conduct shows. -/
theorem shown_run (asked : request rules arguments = .ok (.run o)) (unpaced : o.realtime = false)
    (quiet : o.console = false) (named : logfileOf o.logfile = some logfile)
    (writable : tree.writeProblem? logfile = none) (apart : IsApart logfile o) :
    ((run reader rules tree arguments).ending.toOption, (run reader rules tree arguments).output) =
      (conduct reader tree o).shown := by
  obtain ⟨ending, output⟩ := run_eq_conduct reader asked quiet named writable
  rw [← shown_conduct_write writable apart unpaced [], ending, output]
  rfl

theorem eq_ok_of_toOption {α ε : Type} {r : Except ε α} {a : α} (some : r.toOption = some a) :
    r = .ok a := by
  cases r with
  | error problem => cases some
  | ok b => exact congrArg Except.ok (Option.some.inj some)

/-- A command that gives no exit code does not agree with a headless run. -/
theorem not_agrees_of_error {result : Result} (brokenOff : result.ending.toOption = none) :
    ¬ Agrees reader tree o result := by
  intro agrees
  unfold Agrees at agrees
  split at agrees
  · rw [agrees.1] at brokenOff
    cases brokenOff
  · rw [agrees.1] at brokenOff
    cases brokenOff

/-- The options of a command with a program and nothing else. -/
def programOnly (program : String) : Options :=
  ⟨codesOf program, .absent, .absent, .absent, false, false, .absent, false⟩

theorem request_programOnly (rules : ArgumentRules) {program : String}
    (plain : program.toList.head? ≠ some '-') :
    request rules [codesOf program] = .ok (.run (programOnly program)) := by
  have noHyphen : (codesOf program).head? ≠ some (.char '-') := by
    intro hyphen
    rw [codesOf, codes, List.head?_map] at hyphen
    obtain ⟨c, isHead, isHyphen⟩ := Option.map_eq_some_iff.mp hyphen
    obtain rfl := CodePoint.char.inj isHyphen
    exact plain isHead
  have noSeparator : codesOf program ≠ codesOf "--" := by
    intro separator
    rw [separator] at noHyphen
    exact noHyphen rfl
  simp [request, wordsOf, wordOf, noHyphen, noSeparator, readWords, Reading.found, programOnly,
    bind, Except.bind, pure, Except.pure]

theorem configRejected_programOnly (reader : Config.Reader) (tree : FileTree) (program : String) :
    configRejected reader tree (programOnly program) = none := by
  rw [configRejected, show configSource (programOnly program).config = .default from rfl,
    Config.load_default]

/-- The only input of a command with a program and nothing else is the program. -/
theorem eq_of_mem_programOnly {program path : String} {text : CodeText}
    (member : text ∈ inputPaths (programOnly program)) (named : pathOf? text = some path) :
    path = program := by
  obtain rfl : text = codesOf program := List.mem_singleton.mp member
  rw [pathOf?_codesOf] at named
  exact (Option.some.inj named).symm

def letters (n : Nat) : String := String.ofList (List.replicate n 'a')

theorem notMem_letters {c : Char} (other : c ≠ 'a') (n : Nat) : c ∉ (letters n).toList := by
  rw [letters, String.toList_ofList]
  exact fun member => other (List.eq_of_mem_replicate member)

theorem utf8ByteSize_letters (n : Nat) : (letters n).utf8ByteSize = n := by
  induction n with
  | zero => rfl
  | succ n ih =>
    rw [letters, List.replicate_succ, String.ofList_cons, String.utf8ByteSize_append,
      String.utf8ByteSize_singleton, ← letters, ih, Nat.add_comm]
    rfl

theorem letters_ne {n : Nat} {name : String} (other : name.utf8ByteSize ≠ n) :
    letters n ≠ name := by
  rintro rfl
  exact other (utf8ByteSize_letters n)

theorem isStep_letters {n : Nat} (several : 1 < n) : IsStep (letters n) := by
  refine ⟨notMem_letters (by decide) n, letters_ne ?_, letters_ne ?_⟩
  · rw [String.utf8ByteSize_empty]
    omega
  · rw [show (".".utf8ByteSize) = 1 by decide]
    omega

section LongName

variable (tree : FileTree) {n : Nat} (long : maxNameSize < n)
include long

theorem isStep_of_long : IsStep (letters n) := by
  have limit : maxNameSize = 255 := rfl
  exact isStep_letters (by omega)

theorem has_letters :
    tree.files.has (codesOf (letters n)) = .error (.nameTooLong (letters n)) := by
  rw [has_of_pathOf? (pathOf?_codesOf _), tidyPath_of_isStep (isStep_of_long long)]
  apply has_of_longName tree (isStep_of_long long) (notMem_letters (by decide) n)
  rwa [utf8ByteSize_letters]

theorem found_letters : found tree (codesOf (letters n)) = none := by
  have unnameable := has_letters tree long
  rw [has_of_pathOf? (pathOf?_codesOf _), has] at unnameable
  rw [found_of_pathOf? (pathOf?_codesOf _)]
  cases followed : tree.follow (tidyPath (letters n)) with
  | error problem => rfl
  | ok entry =>
    rw [followed] at unnameable
    cases unnameable

theorem hasNoDirectory_letters : HasNoDirectory tree (programOnly (letters n)) := by
  intro text member entry isEntry
  obtain rfl := List.mem_singleton.mp member
  rw [show found tree (programOnly (letters n)).program = none from found_letters tree long]
    at isEntry
  cases isEntry

theorem firstComplaint_letters (reader : Config.Reader) :
    firstComplaint reader tree (programOnly (letters n)) =
      some ⟨"ROM file not found:", codesOf (letters n)⟩ := by
  have missing : programMissing tree (programOnly (letters n)) =
      some ⟨"ROM file not found:", codesOf (letters n)⟩ := by
    rw [programMissing,
      show found tree (programOnly (letters n)).program = none from found_letters tree long]
    rfl
  rw [firstComplaint, configRejected_programOnly, missing]
  rfl

/-- A program file whose name has more letters than a name can have slips through. -/
theorem slipsThrough_letters (reader : Config.Reader) :
    SlipsThrough reader tree (programOnly (letters n)) :=
  .programName _ (configRejected_programOnly reader tree _) rfl rfl (has_letters tree long)

end LongName

end Main

end Chip8.CommandLine
