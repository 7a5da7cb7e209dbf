import Chip8.Proofs.Effects

/-! # Trace lines and nothing else

A lenient log leaves out the trace lines, and that is all it does: each action has the same answer
and the same machine either way, and the log entries of the lenient machine are those of the other
without the trace lines. On a machine that traces, a step taken while it runs is traced before its
instruction and, if that finishes, behind it. Each of the two lines is a row of columns that shows
the registers and the timers of the machine at that point, with the instruction at the end.
-/

namespace Chip8

open Text

/-- A column of a trace line: its caption and what it shows. -/
structure Column where
  caption : String
  shown : String
deriving DecidableEq

namespace Moment

/-- The columns of a trace line ahead of the name of the instruction. -/
def columns (t : Moment) : List Column :=
  [⟨"STATE: ", alignLeft 12 t.mode.label⟩,
   ⟨" STEP: ", alignLeft 10 t.stage.name⟩,
   ⟨" PC: ", hex3 t.pc⟩,
   ⟨" I: ", hex3 t.index⟩,
   ⟨" SP: ", alignRight 2 (decimal t.sp)⟩,
   ⟨" DT: ", alignRight 3 (decimal t.delay)⟩,
   ⟨" ST: ", alignRight 3 (decimal t.sound)⟩,
   ⟨" V: ", hexBytes t.v.toList⟩]

def row (columns : List Column) : String :=
  String.join (columns.map fun c => c.caption ++ c.shown)

theorem text_eq_row (t : Moment) :
    t.text = row t.columns ++ "\tINSTR: " ++ t.instruction.mnemonic := by
  unfold text row columns
  rw [← String.toList_inj]
  simp only [List.map_cons, List.map_nil, String.join_cons, String.join_nil, String.toList_append,
    List.append_assoc, String.toList_empty, List.nil_append]

end Moment

/-- The columns of the trace line that shows a machine. -/
def Machine.columns (m : Machine) (stage : Stage) : List Column :=
  [⟨"STATE: ", alignLeft 12 m.mode.label⟩,
   ⟨" STEP: ", alignLeft 10 stage.name⟩,
   ⟨" PC: ", hex3 m.registers.pc⟩,
   ⟨" I: ", hex3 m.registers.index⟩,
   ⟨" SP: ", alignRight 2 (decimal m.registers.sp)⟩,
   ⟨" DT: ", alignRight 3 (decimal m.timers.delay)⟩,
   ⟨" ST: ", alignRight 3 (decimal m.timers.sound)⟩,
   ⟨" V: ", hexBytes m.registers.v.toList⟩]

/-- The line of a machine and an instruction at a stage of a step. -/
def Machine.traceLine (m : Machine) (stage : Stage) (i : Instruction) : String :=
  Moment.row (m.columns stage) ++ "\tINSTR: " ++ i.mnemonic

theorem LogEntry.text_trace_of (m : Machine) (stage : Stage) (i : Instruction) :
    (trace (.of m stage i)).text = m.traceLine stage i :=
  Moment.text_eq_row (.of m stage i)

/-- The line of an entry starts like a trace line. -/
def LogEntry.isTraceLine (e : LogEntry) : Bool := "STATE: ".toList.isPrefixOf e.text.toList

/-- Trace entries are the ones whose lines start like a trace line. -/
theorem LogEntry.isTraceLine_eq_isTrace (e : LogEntry) : e.isTraceLine = e.isTrace := by
  cases e with
  | trace moment =>
    obtain ⟨rest, opens⟩ : ∃ rest, (trace moment).text = "STATE: " ++ rest := by
      unfold text Moment.text
      simp only [String.append_assoc]
      exact ⟨_, rfl⟩
    rw [isTraceLine, opens, String.toList_append]
    exact List.isPrefixOf_iff_prefix.mpr (List.prefix_append ..)
  | _ =>
    -- The first letter of every other text already tells it apart.
    unfold isTraceLine text
    simp only [String.toList_append, List.append_assoc]
    rfl

/-- The entries of a log without the trace entries. -/
def untraced (log : List LogEntry) : List LogEntry := log.filter fun e => !e.isTrace

theorem untraced_append (first second : List LogEntry) :
    untraced (first ++ second) = untraced first ++ untraced second :=
  List.filter_append ..

/-- A log without trace entries stays as it is. -/
theorem untraced_of_quiet {log : List LogEntry} (quiet : tracesIn log = []) :
    untraced log = log := by
  apply List.filter_eq_self.mpr
  intro e member
  have := List.filter_eq_nil_iff.mp quiet e member
  simpa using this

def Outcome.untraced {α : Type} (o : Outcome α) : Outcome α :=
  ⟨o.answer, o.machine, Chip8.untraced o.log⟩

/-- The settings with the trace lines left out of the log. -/
def Settings.lenient (s : Settings) : Settings := { s with lenientLog := true }

theorem Outcome.untraced_of_quiet {α : Type} {o : Outcome α} (quiet : tracesIn o.log = []) :
    o.untraced = o := by
  rw [Outcome.untraced, Chip8.untraced_of_quiet quiet]

namespace Machine

variable {s : Settings} {d : Dialect} {m : Machine}

theorem tracesIn_ignoredWrites (a : Int) (count : Nat) : tracesIn (ignoredWrites a count) = [] := by
  apply List.filter_eq_nil_iff.mpr
  intro e member
  obtain ⟨offset, -, reported⟩ := List.mem_filterMap.mp member
  dsimp only at reported
  split at reported
  · cases reported
    exact Bool.false_ne_true
  · cases reported

/-- Operations are not traced. -/
theorem tracesIn_run {operation : Operation} (encodable : operation.Encodable) :
    tracesIn (m.run d operation).log = [] := by
  cases encodable <;>
    simp only [run, Registers.slot_val, assignment_val, Outcome.lookup_ok, Outcome.log_done]
  case ret => cases m.registers.pop m.fetchPc <;> rfl
  case call => split <;> rfl
  case readDelay x => cases assignment x.val m.timers.delay <;> rfl
  case storeDecimal => exact tracesIn_ignoredWrites _ _
  case storeRegisters =>
    unfold blockEnd
    split <;> exact tracesIn_ignoredWrites _ _
  case loadRegisters =>
    unfold blockEnd
    split <;> rfl
  all_goals rfl

theorem tracesIn_exec (word : Int) : tracesIn (m.exec d (.ofWord word)).log = [] := by
  unfold exec
  split
  · next asked => exact tracesIn_run (Instruction.operation?_encodable asked)
  · rfl

theorem tracesIn_pollKey (m : Machine) : tracesIn m.pollKey.log = [] := by
  unfold pollKey
  split
  · rfl
  · cases Registers.slot m.waitRegister <;> rfl

theorem tracesIn_setKey (m : Machine) (index : Int) (pressed : Bool) :
    tracesIn (m.setKey index pressed).log = [] := by
  unfold setKey
  cases m.keypad.setKey index pressed <;> rfl

theorem tracesIn_load (s : Settings) (m : Machine) (program : List UInt8) :
    tracesIn (m.load s program).log = [] := by
  by_cases fits : program.length ≤ programCapacity
  · rw [load_of_fits s m fits]
    rfl
  · rw [load_of_tooLarge s m (Nat.lt_of_not_le fits)]
    rfl

section Lenient

theorem untraced_trace (s : Settings) (stage : Stage) (i : Instruction) (m : Machine) :
    untraced (trace s stage i m) = trace s.lenient stage i m := by
  unfold trace
  split <;> rfl

/-- A lenient cycle is the other one without its trace entries. -/
theorem cycle_lenient (s : Settings) (m : Machine) : m.cycle s.lenient = (m.cycle s).untraced := by
  have executed : untraced (m.fetched.exec s.dialect m.nextInstruction).log =
      (m.fetched.exec s.dialect m.nextInstruction).log :=
    untraced_of_quiet (tracesIn_exec _)
  have dialect : s.lenient.dialect = s.dialect := rfl
  simp only [cycle, dialect]
  split
  · simp only [Outcome.untraced, Outcome.done, untraced_append, untraced_trace, executed]
  · simp only [Outcome.untraced, Outcome.refused, untraced_append, untraced_trace, executed]
    rfl
  · simp only [Outcome.untraced, Outcome.refused, untraced_append, untraced_trace, executed]

theorem step_lenient (s : Settings) (m : Machine) : m.step s.lenient = (m.step s).untraced := by
  cases mode : m.mode with
  | running =>
    rw [step_of_running _ mode, step_of_running _ mode]
    exact cycle_lenient s m
  | awaitingKey =>
    rw [step_of_awaiting _ mode, step_of_awaiting _ mode]
    exact (Outcome.untraced_of_quiet m.tracesIn_pollKey).symm
  | halted =>
    rw [step_of_halted _ mode, step_of_halted _ mode]
    rfl

theorem burst_lenient (s : Settings) (m : Machine) (n : Nat) {log log' : Array LogEntry}
    (without : log'.toList = untraced log.toList) :
    m.burst s.lenient n log' = (m.burst s n log).untraced := by
  induction n generalizing m log log' with
  | zero => simp only [burst, Outcome.untraced, Outcome.done, without]
  | succ n ih =>
    have answer : (m.step s.lenient).answer = (m.step s).answer := by
      rw [step_lenient, Outcome.untraced]
    have machine : (m.step s.lenient).machine = (m.step s).machine := by
      rw [step_lenient, Outcome.untraced]
    have logged : (log' ++ (m.step s.lenient).log).toList =
        untraced (log ++ (m.step s).log).toList := by
      rw [Array.toList_appendList, Array.toList_appendList, untraced_append, without, step_lenient,
        Outcome.untraced]
    simp only [burst, answer, machine]
    split
    · simp only [Outcome.untraced, Outcome.refused, logged]
    · simp only [Outcome.untraced, Outcome.done, logged]
    · exact ih _ logged

theorem tracesIn_applyEvents (m : Machine) (frame : Nat) (events : List KeyEvent)
    (log : Array LogEntry) :
    tracesIn (m.applyEvents frame events log).log = tracesIn log.toList := by
  induction events generalizing m log with
  | nil => rfl
  | cons e rest ih =>
    simp only [applyEvents]
    split
    · rfl
    · rw [ih, Array.toList_push, tracesIn_append]
      exact List.append_nil _

theorem framesFrom_lenient (s : Settings) (m : Machine) (count frame renders : Nat)
    (pending : List KeyEvent) {log log' : Array LogEntry}
    (without : log'.toList = untraced log.toList) :
    m.framesFrom s.lenient count frame renders pending log' =
      (m.framesFrom s count frame renders pending log).untraced := by
  induction count generalizing m frame renders pending log log' with
  | zero => simp only [framesFrom, Outcome.untraced, Outcome.done, without]
  | succ count ih =>
    have burst : s.lenient.cyclesPerFrame = s.cyclesPerFrame := rfl
    simp only [framesFrom, burst]
    generalize pending.span _ = parts
    have quiet : tracesIn (m.applyEvents frame parts.1 #[]).log = [] :=
      tracesIn_applyEvents m frame parts.1 #[]
    generalize m.applyEvents frame parts.1 #[] = keyed at quiet ⊢
    have ran : keyed.machine.burst s.lenient s.cyclesPerFrame.toNat #[] =
        (keyed.machine.burst s s.cyclesPerFrame.toNat #[]).untraced :=
      burst_lenient s keyed.machine s.cyclesPerFrame.toNat rfl
    have keyedLog : (log' ++ keyed.log).toList = untraced (log ++ keyed.log).toList := by
      rw [Array.toList_appendList, Array.toList_appendList, untraced_append, without,
        untraced_of_quiet quiet]
    rw [ran]
    generalize keyed.machine.burst s s.cyclesPerFrame.toNat #[] = run
    have runLog : (log' ++ keyed.log ++ run.untraced.log).toList =
        untraced (log ++ keyed.log ++ run.log).toList := by
      simp only [Array.toList_appendList, untraced_append, Outcome.untraced] at keyedLog ⊢
      rw [keyedLog]
    have answer : run.untraced.answer = run.answer := rfl
    have machine : run.untraced.machine = run.machine := rfl
    rw [answer, machine]
    split
    · simp only [Outcome.untraced, Outcome.refused, keyedLog]
    · split
      · simp only [Outcome.untraced, Outcome.done, Array.toList_push, untraced_append]
        simp only [← runLog, Outcome.untraced]
        rfl
      · simp only [Outcome.untraced, Outcome.refused, ← runLog]
      · exact ih _ _ _ _ runLog

/-- With a lenient log every action does the same and logs the same, without the trace entries. -/
theorem perform_lenient (s : Settings) (m : Machine) (a : Action) :
    m.perform s.lenient a = (m.perform s a).untraced := by
  cases a with
  | load program =>
    have quiet : tracesIn (m.perform s (.load program)).log = [] := tracesIn_load s m program
    exact (Outcome.untraced_of_quiet quiet).symm
  | reset => rfl
  | step =>
    simp only [perform, Outcome.map, step_lenient]
    rfl
  | setKey index pressed =>
    have quiet : tracesIn (m.perform s (.setKey index pressed)).log = [] :=
      tracesIn_setKey m index pressed
    exact (Outcome.untraced_of_quiet quiet).symm
  | tick => rfl
  | takeDirty => rfl
  | frames count schedule =>
    have ran : m.runFrames s.lenient count schedule = (m.runFrames s count schedule).untraced :=
      framesFrom_lenient s m count.toNat 0 0 (inFrameOrder schedule) rfl
    simp only [perform, Outcome.map, ran]
    rfl
  | execute word =>
    have quiet : tracesIn (m.perform s (.execute word)).log = [] := tracesIn_exec word
    exact (Outcome.untraced_of_quiet quiet).symm

theorem after_lenient (s : Settings) (m : Machine) (actions : List Action) :
    m.after s.lenient actions = m.after s actions := by
  induction actions generalizing m with
  | nil => rfl
  | cons a rest ih => rw [after_cons, after_cons, perform_lenient, ih, Outcome.untraced]

theorem tape_lenient (s : Settings) (m : Machine) (actions : List Action) :
    m.tape s.lenient actions = m.tape s actions := by
  induction actions generalizing m with
  | nil => rfl
  | cons a rest ih => rw [tape, tape, perform_lenient, ih, Outcome.untraced]

theorem performed_lenient (s : Settings) (m : Machine) (plan : List Action) :
    m.performed s.lenient plan = m.performed s plan := by
  induction plan generalizing m with
  | nil => rfl
  | cons a rest ih => simp only [performed, perform_lenient, Outcome.untraced, ih]

/-- The turns of a run of frames are the same with a lenient log. -/
theorem parts_lenient (s : Settings) (tape : List Turn) : parts s.lenient tape = parts s tape := by
  have same (t : Turn) : t.parts s.lenient = t.parts s := by
    obtain ⟨m, a⟩ := t
    cases a with
    | frames count schedule =>
      have plan : framePlan s.lenient count schedule = framePlan s count schedule := rfl
      simp only [Turn.parts, plan, performed_lenient, tape_lenient]
    | _ => rfl
  simp only [parts, funext same]

end Lenient

section Tracing

variable {t : Turn}

/-- The trace entries of a turn are those of the turns that it is made of. -/
theorem tracesIn_parts (s : Settings) (t : Turn) :
    tracesIn (t.outcome s).log = (t.parts s).flatMap fun u => tracesIn (u.outcome s).log := by
  obtain ⟨m, a⟩ := t
  cases a with
  | frames count schedule => exact (runFrames_enacts s m count schedule).traces
  | _ => exact (List.append_nil _).symm

/-- A step of a running machine is traced with the registers before its instruction and, if that
finishes, with those after it. -/
theorem tracesIn_step (tracing : s.lenientLog = false) (running : m.mode = .running) :
    tracesIn (m.step s).log = .trace (.of m .fetch m.nextInstruction) ::
      match (m.step s).answer with
      | .ok _ => [.trace (.of (m.step s).machine .execution m.nextInstruction)]
      | .error _ => [] := by
  have executed : tracesIn (m.fetched.exec s.dialect m.nextInstruction).log = [] :=
    tracesIn_exec _
  have traced (stage : Stage) (i : Instruction) (m : Machine) :
      tracesIn (trace s stage i m) = [.trace (.of m stage i)] := by
    rw [trace, if_neg (by simp [tracing])]
    rfl
  rw [step_of_running s running]
  simp only [cycle]
  split
  · simp only [Outcome.done, tracesIn_append, traced, executed]
    rfl
  · simp only [Outcome.refused, tracesIn_append, traced, executed]
    rfl
  · simp only [Outcome.refused, tracesIn_append, traced, executed]
    rfl

/-- A step of a machine that does not run is not traced, and neither is any other action. -/
theorem tracesIn_of_idle (atomic : t.action.IsAtomic)
    (idle : t.action = .step → t.machine.mode ≠ .running) : tracesIn (t.outcome s).log = [] := by
  obtain ⟨m, a⟩ := t
  cases a with
  | frames _ _ => exact atomic.elim
  | load program => exact tracesIn_load s m program
  | setKey index pressed => exact tracesIn_setKey m index pressed
  | execute word => exact tracesIn_exec word
  | step =>
    change tracesIn (m.step s).log = []
    cases mode : m.mode with
    | running => exact absurd mode (idle rfl)
    | awaitingKey =>
      rw [step_of_awaiting s mode]
      exact m.tracesIn_pollKey
    | halted =>
      rw [step_of_halted s mode]
      rfl
  | reset | tick | takeDirty => rfl

end Tracing

/-- All turns of a course that begins with a well-formed machine have one. -/
theorem Course.wellFormed_turn {m m' : Machine} {tape : List Turn} {t : Turn}
    (course : Course s m tape m') (ok : m.WellFormed) (member : t ∈ tape) :
    t.machine.WellFormed := by
  obtain ⟨past, future, parted⟩ := List.append_of_mem member
  exact (course.keeps_throughout (fun _ m => m.WellFormed) (fun _ t _ ok => ok.perform t.action)
    (fun _ _ _ stream ok => ok.withRandom stream) ok parted).1

/-- A lenient log has no influence. Of two machines with one seed and settings that differ in it
only, whatever a host does, both are the same at every moment, also within runs of frames, give the
same answers, and the lenient one logs what the other logs without the trace lines. The other one's
trace lines are those of its steps: a step taken while the machine runs writes one line that shows
the registers before its instruction and, if and only if it does not fault, one that shows them
after it; other steps and actions are not traced. -/
theorem lenientLog_noninterference (s : Settings) (seed : Int) (actions : List Action) :
    let tracing : Settings := { s with seed := some seed, lenientLog := false }
    let lenient : Settings := { tracing with lenientLog := true }
    let tape := (initial tracing).tape tracing actions
    let whole := parts tracing tape
    ((initial lenient).tape lenient actions = tape ∧ parts lenient tape = whole ∧
      (initial lenient).after lenient actions = (initial tracing).after tracing actions) ∧
    (∀ t : Turn, (t.outcome lenient).answer = (t.outcome tracing).answer ∧
      (t.outcome lenient).machine = (t.outcome tracing).machine ∧
      (t.outcome lenient).log = (t.outcome tracing).log.filter fun e => !e.isTraceLine) ∧
    (tape.flatMap fun t => (t.outcome lenient).log) =
      (tape.flatMap fun t => (t.outcome tracing).log).filter (fun e => !e.isTraceLine) ∧
    (tape.flatMap fun t => (t.outcome tracing).log).filter LogEntry.isTraceLine =
      whole.flatMap (fun t => (t.outcome tracing).log.filter LogEntry.isTraceLine) ∧
    ∀ t ∈ whole,
      let lines := (t.outcome tracing).log.filter LogEntry.isTraceLine
      let i := t.machine.nextInstruction
      (t.action = .step → t.machine.mode = .running →
        (∀ reply, (t.outcome tracing).answer = .ok reply →
          lines = [.trace (.of t.machine .fetch i), .trace (.of (t.after tracing) .execution i)] ∧
          lines.map LogEntry.text =
            [t.machine.traceLine .fetch i, (t.after tracing).traceLine .execution i]) ∧
        (∀ reason, (t.outcome tracing).answer = .error reason →
          (∃ fault, reason = .fault fault) ∧ lines = [.trace (.of t.machine .fetch i)] ∧
          lines.map LogEntry.text = [t.machine.traceLine .fetch i])) ∧
      ((t.action = .step → t.machine.mode ≠ .running) → lines = []) := by
  intro tracing lenient tape whole
  have isTraceLine : LogEntry.isTraceLine = LogEntry.isTrace :=
    funext LogEntry.isTraceLine_eq_isTrace
  have outcome (t : Turn) : t.outcome lenient = (t.outcome tracing).untraced :=
    perform_lenient tracing t.machine t.action
  have course := (Course.of_tape tracing (initial tracing) actions).in_parts
  rw [isTraceLine]
  refine ⟨⟨tape_lenient tracing _ actions, parts_lenient tracing tape,
    after_lenient tracing _ actions⟩, ?_, ?_, ?_, ?_⟩
  · intro t
    rw [outcome]
    exact ⟨rfl, rfl, rfl⟩
  · rw [List.filter_flatMap]
    simp only [outcome]
    rfl
  · simp only [whole, parts, List.filter_flatMap, List.flatMap_assoc]
    exact congrArg (tape.flatMap ·) (funext (tracesIn_parts tracing))
  · intro t member lines i
    refine ⟨?_, tracesIn_of_idle (isAtomic_of_mem_parts member)⟩
    intro isStep running
    have ok : t.machine.WellFormed := course.wellFormed_turn (wellFormed_initial tracing) member
    have stepped : t.outcome tracing = (t.machine.step tracing).map .event := by
      rw [Turn.outcome, isStep]
      rfl
    have traced : lines = tracesIn (t.machine.step tracing).log :=
      congrArg (fun o : Outcome Reply => tracesIn o.log) stepped
    rw [traced, tracesIn_step rfl running, Turn.after, stepped]
    constructor
    · intro reply answered
      cases answer : (t.machine.step tracing).answer with
      | ok event =>
        refine ⟨rfl, ?_⟩
        simp only [List.map_cons, List.map_nil, LogEntry.text_trace_of]
        rfl
      | error reason =>
        rw [Outcome.map, answer] at answered
        cases answered
    · intro reason answered
      obtain ⟨event, finished⟩ | ⟨fault, faulted⟩ := ok.step_finishesOrFaults (s := tracing)
      · rw [Outcome.map, finished] at answered
        cases answered
      · rw [Outcome.map, faulted] at answered
        cases answered
        rw [faulted]
        exact ⟨⟨fault, rfl⟩, rfl, congrArg (fun line => [line]) (LogEntry.text_trace_of ..)⟩

end Machine

end Chip8
