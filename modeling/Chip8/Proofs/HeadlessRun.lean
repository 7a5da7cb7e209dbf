import Chip8.Headless
import Chip8.Proofs.ConfigReload
import Chip8.Proofs.FrameSplit
import Chip8.Proofs.ScreenText
import Chip8.Proofs.Suspension

/-! # Outcomes of headless runs

A headless run loads a configuration, makes a machine under it, and runs a program on it. It never
ends on a halted machine without telling of the fault that halted it, and more frames make no
difference after a fault. With a seed the configuration, the program, the schedule and the number
of frames decide all of it.
-/

namespace Chip8

def restingTexts : List String := ["running", "awaiting_key"]

def faultTexts : List String :=
  ["fault: UnknownOpcode", "fault: StackOverflow", "fault: StackUnderflow"]

theorem Ending.text_faulted (fault : Fault) : (faulted fault).text ∈ faultTexts := by
  cases fault <;> simp [text, Fault.name, faultTexts]

theorem Ending.text_resting {mode : Mode} (moves : mode ≠ .halted) :
    (resting mode).text ∈ restingTexts := by
  cases mode with
  | running => decide
  | awaitingKey => decide
  | halted => exact absurd rfl moves

/-- A text is of one kind of ending. -/
theorem not_mem_faultTexts {text : String} (rests : text ∈ restingTexts) : text ∉ faultTexts := by
  revert text
  decide

namespace RunReport

/-- The report on frames that left a machine. -/
def of (report : FrameReport) (m : Machine) : RunReport :=
  ⟨m.screen, report.frames, match report.fault with
    | some fault => .faulted fault
    | none => .resting m.mode⟩

/-- A report accounts for the frames that were asked for: all of them were run, or a fault ended
the run in one of them. -/
structure Covers (count : Int) (report : RunReport) : Prop where
  ending : report.ending.text ∈ restingTexts ∨ report.ending.text ∈ faultTexts
  atMost : (report.frames : Int) ≤ max count 0
  all : report.ending.text ∈ restingTexts → (report.frames : Int) = max count 0
  some : report.ending.text ∈ faultTexts → 1 ≤ report.frames

theorem ending_of_faulted {report : FrameReport} {fault : Fault}
    (faulted : report.fault = .some fault) (m : Machine) :
    (of report m).ending = .faulted fault := by
  rw [of, faulted]

theorem ending_of_finished {report : FrameReport} (finished : report.fault = none) (m : Machine) :
    (of report m).ending = .resting m.mode := by
  rw [of, finished]

end RunReport

namespace Machine

/-- Frames that are run and reported on, with what was logged before. -/
def reportFrames (s : Settings) (count : Int) (schedule : List KeyEvent) (log : List LogEntry)
    (m : Machine) : Outcome RunReport :=
  let run := m.runFrames s count schedule
  match run.answer with
  | .error reason => .refused reason run.machine (log ++ run.log)
  | .ok report =>
      .done (.of report run.machine) run.machine
        (log ++ run.log ++ [.framesRun report.frames report.renders])

/-- A headless run whose random bytes come from a stream. -/
def runFrom (s : Settings) (stream : RandomStream) (program : List UInt8)
    (schedule : List KeyEvent) (frames : Option Int) : Outcome RunReport :=
  let loaded := (initial s).load s program
  match loaded.answer with
  | .error reason => .refused reason loaded.machine loaded.log
  | .ok () =>
      { loaded.machine with random := stream }.reportFrames s (frames.getD s.frameLimit) schedule
        loaded.log

/-- What a headless run under the configuration of a source may come to. With a seed its random
bytes are those of the seed, without one they may be any. -/
def HeadlessRun (reader : Config.Reader) (files : Config.Files) (source : Config.Source)
    (program : List UInt8) (schedule : List KeyEvent) (frames : Option Int)
    (o : Outcome RunReport) : Prop :=
  ∃ s stream, Config.prepare reader files source = .ok s ∧
    (s.seed ≠ none → stream = .ofSeed s.seed) ∧
    o = runFrom s stream program schedule frames

/-- The machine that a program that fits is run on. -/
def programmed (s : Settings) (stream : RandomStream) (program : List UInt8)
    (fits : program.length ≤ programCapacity) : Machine :=
  { initial s with memory := .placeProgram .initial program fits, random := stream }

variable {s : Settings} {stream : RandomStream} {m : Machine} {program : List UInt8}
  {schedule : List KeyEvent} {report : FrameReport}

section Load

theorem runFrom_of_fits (s : Settings) (stream : RandomStream)
    (fits : program.length ≤ programCapacity) (schedule : List KeyEvent) (frames : Option Int) :
    runFrom s stream program schedule frames =
      (programmed s stream program fits).reportFrames s (frames.getD s.frameLimit) schedule
        [.reset programStart, .programLoaded program.length] := by
  rw [runFrom, load_of_fits s (initial s) fits]
  rfl

theorem runFrom_of_tooLarge (s : Settings) (stream : RandomStream)
    (tooLarge : programCapacity < program.length) (schedule : List KeyEvent)
    (frames : Option Int) :
    runFrom s stream program schedule frames =
      .refused (.programTooLarge program.length programCapacity) (initial s) := by
  rw [runFrom, load_of_tooLarge s (initial s) tooLarge]
  rfl

/-- A run of a program takes its random bytes from the seed. -/
theorem runProgram_eq_runFrom (s : Settings) (program : List UInt8) (schedule : List KeyEvent)
    (frames : Option Int) :
    runProgram s program schedule frames =
      runFrom s (.ofSeed s.seed) program schedule frames := by
  by_cases fits : program.length ≤ programCapacity
  · rw [runProgram, runFrom, load_of_fits s (initial s) fits]
    rfl
  · rw [runProgram, runFrom, load_of_tooLarge s (initial s) (Nat.lt_of_not_le fits)]
    rfl

theorem runProgram_of_fits (s : Settings) (fits : program.length ≤ programCapacity)
    (schedule : List KeyEvent) (frames : Option Int) :
    runProgram s program schedule frames =
      (programmed s (.ofSeed s.seed) program fits).reportFrames s (frames.getD s.frameLimit)
        schedule [.reset programStart, .programLoaded program.length] := by
  rw [runProgram_eq_runFrom, runFrom_of_fits s _ fits]

theorem runProgram_of_tooLarge (s : Settings) (tooLarge : programCapacity < program.length)
    (schedule : List KeyEvent) (frames : Option Int) :
    (runProgram s program schedule frames).answer =
      .error (.programTooLarge program.length programCapacity) := by
  rw [runProgram_eq_runFrom, runFrom_of_tooLarge s _ tooLarge]
  rfl

theorem wellFormed_programmed (s : Settings) (stream : RandomStream)
    (fits : program.length ≤ programCapacity) : (programmed s stream program fits).WellFormed :=
  { wellFormed_initial s with memory := Memory.hasFont_initial.placeProgram fits }

/-- With a seed there is one outcome. -/
theorem headlessRun_iff {reader : Config.Reader} {files : Config.Files} {source : Config.Source}
    {config : Config} {seed : Int} (accepted : Config.load reader files source = .ok config)
    (seeded : config.settings.seed = some seed)
    (program : List UInt8) (schedule : List KeyEvent) (frames : Option Int)
    (o : Outcome RunReport) :
    HeadlessRun reader files source program schedule frames o ↔
      o = runProgram config.settings program schedule frames := by
  rw [runProgram_eq_runFrom]
  constructor
  · rintro ⟨s, stream, prepared, ofSeed, rfl⟩
    rw [Config.prepare_of_load accepted] at prepared
    obtain rfl := Except.ok.inj prepared
    rw [ofSeed (by simp [seeded])]
  · rintro rfl
    exact ⟨_, _, Config.prepare_of_load accepted, fun _ => rfl, rfl⟩

end Load

section Frames

/-- A run of frames that no fault ended leaves a machine that runs or waits. -/
theorem WellFormed.mode_of_finished (ok : m.WellFormed) (running : m.mode = .running)
    {count : Int} (reported : (m.runFrames s count schedule).answer = .ok report)
    (finished : report.fault = none) : (m.runFrames s count schedule).machine.mode ≠ .halted := by
  intro halted
  have start : Suspended none m := .of_running running
  have suspended := start.runFrames (s := s) ok count schedule
  rw [reported, faultIn, finished] at suspended
  obtain ⟨-, fault, told, -⟩ := suspended.halts halted
  cases told

/-- Frames that a fault ended are not changed by asking for more. -/
theorem framesFrom_add_of_fault (n k frame renders : Nat) {pending : List KeyEvent}
    {log : Array LogEntry}
    (reported : (m.framesFrom s n frame renders pending log).answer = .ok report)
    (faulted : report.fault ≠ none) :
    m.framesFrom s (n + k) frame renders pending log =
      m.framesFrom s n frame renders pending log := by
  induction n generalizing frame renders pending m log with
  | zero =>
    obtain rfl := Except.ok.inj reported
    exact absurd rfl faulted
  | succ n ih =>
    rw [Nat.add_right_comm]
    simp only [framesFrom] at reported ⊢
    split
    · rfl
    · next moved =>
      rw [moved] at reported
      split
      · rfl
      · rfl
      · next played =>
        rw [played] at reported
        exact ih _ _ reported

theorem runFrames_eq_of_fault {count larger : Int} (more : count ≤ larger)
    (reported : (m.runFrames s count schedule).answer = .ok report)
    (faulted : report.fault ≠ none) :
    m.runFrames s larger schedule = m.runFrames s count schedule := by
  obtain ⟨k, total⟩ := Nat.exists_eq_add_of_le (Int.toNat_le_toNat more)
  rw [runFrames, runFrames, total]
  exact framesFrom_add_of_fault count.toNat k 0 0 reported faulted

theorem reportFrames_eq {count : Int} {log : List LogEntry}
    (reported : (m.runFrames s count schedule).answer = .ok report) :
    m.reportFrames s count schedule log =
      .done (.of report (m.runFrames s count schedule).machine)
        (m.runFrames s count schedule).machine
        (log ++ (m.runFrames s count schedule).log ++
          [.framesRun report.frames report.renders]) := by
  simp only [reportFrames, reported]

/-- A program that fits is run and reported on. -/
theorem runProgram_reports (s : Settings) (fits : program.length ≤ programCapacity)
    (keys : ∀ e ∈ schedule, 0 ≤ e.key ∧ e.key < 16) (frames : Option Int) :
    ∃ report, (runProgram s program schedule frames).answer = .ok report := by
  have ok := wellFormed_programmed s (.ofSeed s.seed) fits
  obtain ⟨report, reported⟩ := ok.runFrames_reports (s := s) (frames.getD s.frameLimit) keys
  rw [runProgram_of_fits s fits, reportFrames_eq reported]
  exact ⟨_, rfl⟩

/-- Reported frames of a running machine are covered, also by a report of a fault. -/
theorem WellFormed.covers (ok : m.WellFormed) (running : m.mode = .running) {count : Int}
    (reported : (m.runFrames s count schedule).answer = .ok report) :
    (RunReport.of report (m.runFrames s count schedule).machine).Covers count := by
  obtain ⟨atMost, within⟩ := frames_of_reported _ _ _ _ _ reported
  have bounded : (report.frames : Int) ≤ max count 0 := by omega
  cases fault : report.fault with
  | none =>
    have ending := RunReport.ending_of_finished fault (m.runFrames s count schedule).machine
    have rests := Ending.text_resting (ok.mode_of_finished running reported fault)
    rw [← ending] at rests
    have all := frames_of_finished _ _ _ _ _ reported fault
    refine ⟨.inl rests, bounded, fun _ => ?_, fun faulted => ?_⟩
    · change (report.frames : Int) = max count 0
      omega
    · exact absurd faulted (not_mem_faultTexts rests)
  | some fault' =>
    have ending := RunReport.ending_of_faulted fault (m.runFrames s count schedule).machine
    have faults := Ending.text_faulted fault'
    rw [← ending] at faults
    refine ⟨.inr faults, bounded, fun rests => ?_, fun _ => within (by simp [fault])⟩
    exact absurd faults (not_mem_faultTexts rests)

/-- A report of a fault is the report of more frames too. -/
theorem WellFormed.reportFrames_more (ok : m.WellFormed) (running : m.mode = .running)
    {count larger : Int} (more : count ≤ larger)
    (reported : (m.runFrames s count schedule).answer = .ok report)
    (faults : (RunReport.of report (m.runFrames s count schedule).machine).ending.text ∈ faultTexts)
    (log : List LogEntry) :
    m.reportFrames s larger schedule log = m.reportFrames s count schedule log := by
  have faulted : report.fault ≠ none := by
    intro finished
    rw [RunReport.ending_of_finished finished] at faults
    exact not_mem_faultTexts (Ending.text_resting (ok.mode_of_finished running reported finished))
      faults
  rw [reportFrames, reportFrames, runFrames_eq_of_fault more reported faulted]

end Frames

/-- With a seed, a headless run of a program that fits, under an accepted configuration and a
schedule of existing keys, has one outcome, which is a report. The ending that it names is none
with a halted machine. Without a fault all frames were run, and with one at least one and no more
than asked for. The picture that it shows has a character for each pixel of the last frame, so no
other frame has this picture. After a fault more frames lead to the same report. -/
theorem headlessRun_of_seeded {reader : Config.Reader} {files : Config.Files}
    {source : Config.Source} {config : Config} {seed : Int}
    (accepted : Config.load reader files source = .ok config)
    (seeded : config.settings.seed = some seed) (fits : program.length ≤ 3584)
    (keys : ∀ e ∈ schedule, 0 ≤ e.key ∧ e.key < 16) (frames : Option Int) :
    let s := config.settings
    let count := frames.getD s.frameLimit
    let ended := runProgram s program schedule frames
    (∀ o, HeadlessRun reader files source program schedule frames o ↔ o = ended) ∧
    ∃ report, ended.answer = .ok report ∧ report.Covers count ∧ report.ending.text ≠ "halted" ∧
      Screen.ShownBy ended.machine.screen.pixels report.screen.picture ∧
      (∀ other : Screen, other.picture = report.screen.picture →
        other.pixels = ended.machine.screen.pixels) ∧
      (report.ending.text ∈ faultTexts → ∀ larger, count ≤ larger →
        (runProgram s program schedule (some larger)).answer = .ok report) := by
  intro s count ended
  let start := programmed s (.ofSeed s.seed) program fits
  have ok : start.WellFormed := wellFormed_programmed s _ fits
  have played := runProgram_of_fits s fits schedule
  obtain ⟨report, reported⟩ := ok.runFrames_reports (s := s) count keys
  have covers := ok.covers rfl reported
  have isEnded := (played frames).trans (reportFrames_eq reported)
  have screen : ended.machine.screen = (start.runFrames s count schedule).machine.screen :=
    congrArg (·.machine.screen) isEnded
  have shows := Screen.shownBy_picture ended.machine.screen
  refine ⟨headlessRun_iff accepted seeded program schedule frames,
    .of report (start.runFrames s count schedule).machine, congrArg Outcome.answer isEnded, covers,
    ?_, screen ▸ shows, ?_, ?_⟩
  · intro halted
    have named := covers.ending
    rw [halted] at named
    revert named
    decide
  · intro other same
    have alike : Screen.ShownBy other.pixels ended.machine.screen.picture := by
      rw [screen]
      exact same ▸ Screen.shownBy_picture other
    exact alike.unique shows
  · intro faults larger more
    rw [played (some larger), Option.getD_some, ok.reportFrames_more rfl more reported faults,
      ← played frames]
    exact congrArg Outcome.answer isEnded

/-- A program that runs in a circle, under a seed and with a key to come. -/
theorem headlessRun_of_seeded_circle :
    let reader : Config.Reader := ⟨fun _ => .ok .null, .ok⟩
    let files := FileTree.files []
    let source : Config.Source := .mapping [(.text "seed", .int 7)]
    let config : Config := ⟨{ seed := some 7 }, []⟩
    let schedule := [⟨2, 1, true⟩]
    let ended := runProgram config.settings [0x12, 0x00] schedule (some 3)
    Config.load reader files source = .ok config ∧ config.settings.seed = some 7 ∧
      (∀ e ∈ schedule, 0 ≤ e.key ∧ e.key < 16) ∧
      (∀ o, HeadlessRun reader files source [0x12, 0x00] schedule (some 3) o ↔ o = ended) ∧
      ∃ report, ended.answer = .ok report ∧ report.Covers 3 := by
  intro reader files source config schedule ended
  have rate : ¬ (60 : Float) ≤ 0 := by decide
  have sensible : Config.checked { seed := some 7 } = .ok { seed := some 7 } := by
    simp [Config.checked, rate]
  have accepted : Config.load reader files source = .ok config :=
    Config.ofEntries_of_sensible
      (Config.not_clashes_cons_text (Config.not_clashes_nil _) "seed" _)
      ⟨rfl, rfl, rfl, rfl, rfl, rfl⟩ sensible
  have keys : ∀ e ∈ schedule, 0 ≤ e.key ∧ e.key < 16 := by decide
  have fits : ([0x12, 0x00] : List UInt8).length ≤ 3584 := by decide
  obtain ⟨one, report, reported, covers, _⟩ :=
    headlessRun_of_seeded accepted rfl fits keys (some 3)
  exact ⟨accepted, rfl, keys, one, report, reported, covers⟩

end Machine

end Chip8
