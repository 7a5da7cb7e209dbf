import Chip8.Proofs.FaultAtomicity
import Chip8.Proofs.KeyLevels

/-! # The actions of a run of frames

A run of frames is one list of elementary actions: in each frame the key events that apply at its
start, a burst of steps, a tick and a look at the redraw flag. A fault cuts off the end of its
frame and all later frames. The report, the machine and the key events in the log of the run are
those of this list.
-/

namespace Chip8

/-- The frame at whose start an event applies: its own, or the first one if its own lies before. -/
def KeyEvent.start (e : KeyEvent) : Nat := e.frame.toNat

def KeyEvent.action (e : KeyEvent) : Action := .setKey e.key e.pressed

/-- The events that apply at the start of a frame. -/
def startingAt (frame : Nat) (events : List KeyEvent) : List KeyEvent :=
  events.filter fun e => decide (e.start = frame)

def startedBefore (frame : Nat) (events : List KeyEvent) : List KeyEvent :=
  events.filter fun e => decide (e.start < frame)

/-- A frame up to its end. A fault halts the machine, so that the burst goes on without effect. -/
def frameBody (s : Settings) (events : List KeyEvent) (frame : Nat) : List Action :=
  (startingAt frame events).map KeyEvent.action ++ List.replicate s.cyclesPerFrame.toNat .step

/-- Frames from a number on, each run to its end. -/
def wholeFrames (s : Settings) (events : List KeyEvent) (first count : Nat) : List Action :=
  (List.range' first count).flatMap fun frame => frameBody s events frame ++ [.tick, .takeDirty]

namespace FrameReport

/-- The number of frames that were run to their end: all but the one that a fault stopped. -/
def completed (report : FrameReport) : Nat :=
  if report.fault = none then report.frames else report.frames - 1

theorem completed_le (report : FrameReport) : report.completed ≤ report.frames := by
  unfold completed
  split <;> omega

/-- What was done from a frame on, under some events in frame order. -/
def actionsFrom (first : Nat) (s : Settings) (events : List KeyEvent) (report : FrameReport) :
    List Action :=
  wholeFrames s events first (report.completed - first) ++
    if report.fault = none then [] else frameBody s events report.completed

/-- What was done in the reported frames of a schedule. -/
def actions (s : Settings) (schedule : List KeyEvent) (report : FrameReport) : List Action :=
  report.actionsFrom 0 s (inFrameOrder schedule)

end FrameReport

/-- The key event that an entry notes, with the number of the frame. -/
def LogEntry.keyMove? : LogEntry → Option (Nat × KeyEvent)
  | keyMoved frame e => some (frame, e)
  | _ => none

def keyMoves (log : List LogEntry) : List (Nat × KeyEvent) := log.filterMap LogEntry.keyMove?

section Events

variable {events : List KeyEvent} {frame : Nat}

theorem mem_startingAt {e : KeyEvent} :
    e ∈ startingAt frame events ↔ e ∈ events ∧ e.start = frame := by
  simp [startingAt]

/-- With nothing left from earlier frames, the events that are due start now. -/
theorem dueBy_eq_startingAt (ahead : ∀ e ∈ events, frame ≤ e.start) :
    dueBy frame events = startingAt frame events := by
  apply List.filter_congr
  intro e member
  have := ahead e member
  unfold KeyEvent.start at this ⊢
  rw [decide_eq_decide]
  omega

/-- What is left after a frame starts in a later one. -/
theorem le_start_of_mem_upcoming {e : KeyEvent} (member : e ∈ upcoming ((frame : Int) + 1) events) :
    frame + 1 ≤ e.start := by
  have := (mem_upcoming.mp member).2
  unfold KeyEvent.start
  omega

theorem startedBefore_eq_nil (ahead : ∀ e ∈ events, frame ≤ e.start) :
    startedBefore frame events = [] := by
  rw [startedBefore, List.filter_eq_nil_iff]
  intro e member
  simpa using ahead e member

/-- With nothing left from earlier frames, what applies up to a frame applies at its start. -/
theorem startedBefore_succ (ahead : ∀ e ∈ events, frame ≤ e.start) :
    startedBefore (frame + 1) events = startingAt frame events := by
  apply List.filter_congr
  intro e member
  have := ahead e member
  rw [decide_eq_decide]
  omega

/-- Later frames look at later events only. -/
theorem startingAt_upcoming {later : Nat} (order : frame < later) (events : List KeyEvent) :
    startingAt later (upcoming ((frame : Int) + 1) events) = startingAt later events := by
  rw [startingAt, upcoming, List.filter_filter, startingAt]
  apply List.filter_congr
  intro e _
  unfold KeyEvent.start
  rw [← Bool.decide_and, decide_eq_decide]
  omega

theorem frameBody_upcoming (s : Settings) {later : Nat} (order : frame < later)
    (events : List KeyEvent) :
    frameBody s (upcoming ((frame : Int) + 1) events) later = frameBody s events later := by
  rw [frameBody, startingAt_upcoming order, frameBody]

theorem wholeFrames_upcoming (s : Settings) {later : Nat} (order : frame < later) (count : Nat)
    (events : List KeyEvent) :
    wholeFrames s (upcoming ((frame : Int) + 1) events) later count =
      wholeFrames s events later count := by
  unfold wholeFrames
  rw [List.flatMap_def, List.flatMap_def]
  congr 1
  apply List.map_congr_left
  intro each member
  rw [frameBody_upcoming s (by have := (List.mem_range'_1.mp member).1; omega)]

/-- What applied before a frame is what applied at the start of an earlier frame and in between. -/
theorem FrameOrdered.startedBefore_eq (ordered : FrameOrdered events)
    (ahead : ∀ e ∈ events, frame ≤ e.start) {later : Nat} (order : frame < later) :
    startedBefore later events =
      startingAt frame events ++
        startedBefore later (Chip8.upcoming ((frame : Int) + 1) events) := by
  have parts := ordered.span (frame : Int)
  rw [List.span_eq_takeWhile_dropWhile, dueBy_eq_startingAt ahead] at parts
  obtain ⟨due, rest⟩ := Prod.mk.inj parts
  have now : startedBefore later (startingAt frame events) = startingAt frame events := by
    apply List.filter_eq_self.mpr
    intro e member
    rw [(mem_startingAt.mp member).2]
    exact decide_eq_true order
  calc startedBefore later events
      = startedBefore later
          (startingAt frame events ++ Chip8.upcoming ((frame : Int) + 1) events) := by
        rw [← due, ← rest, List.takeWhile_append_dropWhile]
    _ = _ := by rw [startedBefore, List.filter_append, ← startedBefore, ← startedBefore, now]

end Events

namespace Machine

variable {s : Settings} {m m₁ m₂ m₃ : Machine} {events pending : List KeyEvent}

/-- One machine comes from another by these actions, and this is the last fault they tell of. -/
def Plays (s : Settings) (m : Machine) (actions : List Action) (told : Option Fault)
    (m' : Machine) : Prop :=
  m' = m.after s actions ∧ told = lastFault (m.exchanges s actions)

namespace Plays

variable {first second : List Action} {told : Option Fault}

theorem nil (m : Machine) : Plays s m [] none m := ⟨rfl, rfl⟩

theorem act (m : Machine) (a : Action) :
    Plays s m [a] (faultIn Reply.fault? (m.perform s a).answer) (m.perform s a).machine :=
  ⟨rfl, rfl⟩

theorem trans {told' : Option Fault} (before : Plays s m₁ first told m₂)
    (after : Plays s m₂ second told' m₃) : Plays s m₁ (first ++ second) (told'.or told) m₃ := by
  obtain ⟨rfl, rfl⟩ := before
  obtain ⟨rfl, rfl⟩ := after
  exact ⟨(after_append s m₁ first second).symm, by rw [exchanges_append, lastFault_append]⟩

theorem trans_of_none (before : Plays s m₁ first none m₂) (after : Plays s m₂ second told m₃) :
    Plays s m₁ (first ++ second) told m₃ := by
  simpa using before.trans after

end Plays

/-- A step tells of the fault that refuses it. -/
theorem step_plays (s : Settings) (m : Machine) :
    Plays s m [.step] (faultIn (fun _ => none) (m.step s).answer) (m.step s).machine := by
  have stepped := Plays.act (s := s) m .step
  simp only [perform, Outcome.map, faultIn_map] at stepped
  exact stepped

/-- On a halted machine steps do nothing and tell of nothing. -/
theorem plays_of_halted (s : Settings) (halted : m.mode = .halted) (n : Nat) :
    Plays s m (List.replicate n .step) none m := by
  induction n with
  | zero => exact .nil m
  | succ n ih =>
    have stepped := step_plays s m
    rw [step_of_halted s halted] at stepped
    exact stepped.trans_of_none ih

/-- Only a halted machine reports the halt. -/
theorem halted_of_answer (reported : (m.step s).answer = .ok .halted) : m.mode = .halted := by
  cases mode : m.mode with
  | running =>
    rw [step_of_running s mode] at reported
    simp only [cycle] at reported
    split at reported
    · simp only [Outcome.answer_done, eventAfter] at reported
      split at reported <;> cases reported
    · cases reported
    · cases reported
  | awaitingKey =>
    rw [step_of_awaiting s mode, pollKey] at reported
    split at reported
    · cases reported
    · cases found : Registers.slot m.waitRegister <;> rw [found] at reported <;> cases reported
  | halted => rfl

/-- A burst is so many steps: those after a fault or a halt do nothing. -/
theorem WellFormed.burst_plays (ok : m.WellFormed) (n : Nat) (log : Array LogEntry) :
    Plays s m (List.replicate n .step) (faultIn (fun _ => none) (m.burst s n log).answer)
      (m.burst s n log).machine := by
  induction n generalizing m log with
  | zero => exact .nil m
  | succ n ih =>
    have stepped := step_plays s m
    obtain ⟨event, finished⟩ | ⟨fault, faulted⟩ := ok.step_finishesOrFaults (s := s)
    · simp only [Machine.burst, finished]
      rw [finished] at stepped
      cases event with
      | halted =>
        have idle : m.step s = .done .halted m := step_of_halted s (halted_of_answer finished)
        rw [idle]
        exact plays_of_halted s (halted_of_answer finished) (n + 1)
      | continued => exact stepped.trans_of_none (ih ok.step _)
      | awaitingKey => exact stepped.trans_of_none (ih ok.step _)
    · simp only [Machine.burst, faulted]
      rw [faulted] at stepped
      have halted : (m.step s).machine.mode = .halted := by rw [(step_of_error faulted).2]
      exact stepped.trans (plays_of_halted s halted n)

/-- Key events of existing keys are the actions of these events. -/
theorem applyEvents_plays (frame : Nat) (keys : ∀ e ∈ events, 0 ≤ e.key ∧ e.key < 16)
    (log : Array LogEntry) :
    Plays s m (events.map KeyEvent.action) none (m.applyEvents frame events log).machine := by
  induction events generalizing m log with
  | nil => exact .nil m
  | cons e rest ih =>
    obtain ⟨⟨low, high⟩, restKeys⟩ := List.forall_mem_cons.mp keys
    obtain ⟨key, same⟩ := Registers.exists_val low high
    have moved := Plays.act (s := s) m e.action
    simp only [perform, KeyEvent.action, setKey, same, Keypad.setKey_val,
      Outcome.lookup_ok] at moved
    simp only [applyEvents, setKey, same, Keypad.setKey_val, Outcome.lookup_ok, Outcome.answer_done]
    rw [List.map_cons, KeyEvent.action, same]
    exact moved.trans_of_none (ih restKeys _)

section Log

variable {d : Dialect}

theorem keyMoves_append (first second : List LogEntry) :
    keyMoves (first ++ second) = keyMoves first ++ keyMoves second :=
  List.filterMap_append

theorem keyMoves_ignoredWrites (a : Int) (count : Nat) : keyMoves (ignoredWrites a count) = [] := by
  rw [keyMoves, ignoredWrites, List.filterMap_filterMap, List.filterMap_eq_nil_iff]
  intro offset _
  dsimp only
  split <;> rfl

theorem keyMoves_trace (stage : Stage) (i : Instruction) : keyMoves (trace s stage i m) = [] := by
  unfold trace
  split <;> rfl

/-- Operations note no key event. -/
theorem run_keyMoves {operation : Operation} (encodable : operation.Encodable) :
    keyMoves (m.run d operation).log = [] := by
  cases encodable <;>
    simp only [run, Registers.slot_val, assignment_val, Outcome.lookup_ok, Outcome.log_done]
  case ret => cases m.registers.pop m.fetchPc <;> rfl
  case call => split <;> rfl
  case readDelay x => cases assignment x.val m.timers.delay <;> rfl
  case storeDecimal => exact keyMoves_ignoredWrites _ _
  case storeRegisters =>
    unfold blockEnd
    split <;> exact keyMoves_ignoredWrites _ _
  case loadRegisters =>
    unfold blockEnd
    split <;> rfl
  all_goals rfl

theorem exec_keyMoves (word : Int) : keyMoves (m.exec d (.ofWord word)).log = [] := by
  unfold exec
  split
  · next asked => exact run_keyMoves (Instruction.operation?_encodable asked)
  · rfl

/-- Steps note no key event. -/
theorem step_keyMoves (s : Settings) (m : Machine) : keyMoves (m.step s).log = [] := by
  cases mode : m.mode with
  | running =>
    have executed : keyMoves (m.fetched.exec s.dialect m.nextInstruction).log = [] :=
      exec_keyMoves (m.memory.readWord m.registers.pc)
    rw [step_of_running s mode]
    simp only [cycle]
    split <;>
      simp only [Outcome.done, Outcome.refused, keyMoves_append, keyMoves_trace, executed] <;> rfl
  | awaitingKey =>
    rw [step_of_awaiting s mode, pollKey]
    split
    · rfl
    · cases Registers.slot m.waitRegister <;> rfl
  | halted =>
    rw [step_of_halted s mode]
    rfl

theorem burst_keyMoves (n : Nat) (log : Array LogEntry) :
    keyMoves (m.burst s n log).log = keyMoves log.toList := by
  induction n generalizing m log with
  | zero => rfl
  | succ n ih =>
    have none : keyMoves (log ++ (m.step s).log).toList = keyMoves log.toList := by
      rw [Array.toList_appendList, keyMoves_append, step_keyMoves, List.append_nil]
    simp only [burst]
    split
    · exact none
    · exact none
    · exact (ih _).trans none

theorem applyEvents_keyMoves (frame : Nat) (keys : ∀ e ∈ events, 0 ≤ e.key ∧ e.key < 16)
    (log : Array LogEntry) :
    keyMoves (m.applyEvents frame events log).log =
      keyMoves log.toList ++ events.map fun e => (frame, e) := by
  induction events generalizing m log with
  | nil => simp [applyEvents]
  | cons e rest ih =>
    obtain ⟨⟨low, high⟩, restKeys⟩ := List.forall_mem_cons.mp keys
    obtain ⟨key, same⟩ := Registers.exists_val low high
    simp only [applyEvents, setKey, same, Keypad.setKey_val, Outcome.lookup_ok, Outcome.answer_done]
    rw [ih restKeys, Array.toList_push, keyMoves_append, List.append_assoc]
    rfl

end Log

theorem wholeFrames_succ (s : Settings) (events : List KeyEvent) (first count : Nat) :
    wholeFrames s events first (count + 1) =
      frameBody s events first ++ [.tick, .takeDirty] ++
        wholeFrames s events (first + 1) count := by
  rw [wholeFrames, List.range'_succ, List.flatMap_cons, wholeFrames]

/-- The actions of some frames begin with those of the first one, if it was run to its end. -/
theorem actionsFrom_eq {report : FrameReport} {frame : Nat} (ended : frame + 1 ≤ report.completed) :
    report.actionsFrom frame s pending =
      (frameBody s pending frame ++ [.tick, .takeDirty]) ++
        report.actionsFrom (frame + 1) s (upcoming ((frame : Int) + 1) pending) := by
  have count : report.completed - frame = report.completed - (frame + 1) + 1 := by omega
  have behind : frame < report.completed := ended
  rw [FrameReport.actionsFrom, FrameReport.actionsFrom, count, wholeFrames_succ,
    wholeFrames_upcoming s (Nat.lt_succ_self frame), frameBody_upcoming s behind, List.append_assoc]

/-- What a run of frames from a number on has done: its actions are those of the frames that it
reports, its log notes the key events among them with their frames, and the level of each key comes
from the last of them. -/
structure Accounts (s : Settings) (m : Machine) (frame : Nat) (pending : List KeyEvent)
    (noted : List (Nat × KeyEvent)) (report : FrameReport) (o : Outcome FrameReport) : Prop where
  answer : o.answer = .ok report
  plays : Plays s m (report.actionsFrom frame s pending) report.fault o.machine
  moves : keyMoves o.log =
    noted ++ (startedBefore report.frames pending).map fun e => (e.start, e)
  levels (key : Fin 16) : o.machine.keypad.down.get key =
    levelBy (m.keypad.down.get key) (eventsOf key (startedBefore report.frames pending))
  completed : frame ≤ report.completed

/-- What a frame has done when its burst is over. -/
theorem WellFormed.frameBody_accounts (ok : m.WellFormed) (frame : Nat)
    (keys : ∀ e ∈ startingAt frame pending, 0 ≤ e.key ∧ e.key < 16) :
    let keyed := m.applyEvents frame (startingAt frame pending) #[]
    let run := keyed.machine.burst s s.cyclesPerFrame.toNat #[]
    Plays s m (frameBody s pending frame) (faultIn (fun _ => none) run.answer) run.machine ∧
      keyMoves keyed.log ++ keyMoves run.log =
        (startingAt frame pending).map (fun e => (e.start, e)) ∧
      ∀ key : Fin 16, run.machine.keypad.down.get key =
        levelBy (m.keypad.down.get key) (eventsOf key (startingAt frame pending)) := by
  intro keyed run
  have okKeyed : keyed.machine.WellFormed := ok.applyEvents frame _ #[]
  refine ⟨(applyEvents_plays frame keys #[]).trans_of_none (okKeyed.burst_plays _ #[]), ?_, ?_⟩
  · rw [applyEvents_keyMoves frame keys, burst_keyMoves]
    simp only [keyMoves, List.filterMap_nil, List.nil_append, List.append_nil]
    apply List.map_congr_left
    intro e member
    rw [(mem_startingAt.mp member).2]
  · intro key
    rw [burst_down]
    exact applyEvents_down frame keys #[] key

/-- A run of frames accounts for all it does. -/
theorem WellFormed.framesFrom_accounts (ok : m.WellFormed) (count frame renders : Nat)
    (ordered : FrameOrdered pending) (ahead : ∀ e ∈ pending, frame ≤ e.start)
    (keys : ∀ e ∈ pending, 0 ≤ e.key ∧ e.key < 16) (log : Array LogEntry) :
    ∃ report, Accounts s m frame pending (keyMoves log.toList) report
      (m.framesFrom s count frame renders pending log) ∧ (0 < count → frame < report.frames) := by
  induction count generalizing frame renders pending m log with
  | zero =>
    have nothing : startedBefore frame pending = [] := startedBefore_eq_nil ahead
    refine ⟨⟨frame, renders, none⟩, ⟨rfl, ?_, ?_, ?_, Nat.le_refl _⟩, by omega⟩
    · simp only [FrameReport.actionsFrom, FrameReport.completed, ↓reduceIte, Nat.sub_self]
      exact .nil m
    · simp [nothing, framesFrom]
    · intro key
      rw [nothing]
      rfl
  | succ count ih =>
    have dueKeys : ∀ e ∈ startingAt frame pending, 0 ≤ e.key ∧ e.key < 16 :=
      fun e member => keys e (mem_startingAt.mp member).1
    have laterKeys : ∀ e ∈ upcoming ((frame : Int) + 1) pending, 0 ≤ e.key ∧ e.key < 16 :=
      fun e member => keys e (mem_upcoming.mp member).1
    simp only [framesFrom, ordered.span, dueBy_eq_startingAt ahead,
      answer_applyEvents frame #[] dueKeys]
    obtain ⟨played, noted, levels⟩ := ok.frameBody_accounts (s := s) frame dueKeys
    have okRun := (ok.applyEvents frame (startingAt frame pending) #[]).burst (s := s)
      s.cyclesPerFrame.toNat #[]
    have bursts := (ok.applyEvents frame (startingAt frame pending) #[]).burst_finishesOrFaults
      (s := s) s.cyclesPerFrame.toNat #[]
    generalize m.applyEvents frame (startingAt frame pending) #[] = keyed at *
    generalize keyed.machine.burst s s.cyclesPerFrame.toNat #[] = run at *
    have notedThen : keyMoves (log ++ keyed.log ++ run.log).toList =
        keyMoves log.toList ++ (startingAt frame pending).map fun e => (e.start, e) := by
      rw [Array.toList_appendList, Array.toList_appendList, keyMoves_append, keyMoves_append,
        List.append_assoc, noted]
    obtain ⟨⟨⟩, finished⟩ | ⟨fault, faulted⟩ := bursts
    · simp only [finished]
      rw [finished] at played
      have ended := played.trans_of_none
        ((Plays.act run.machine .tick).trans_of_none (Plays.act run.machine.tick .takeDirty))
      have okThen : run.machine.tick.takeDirty.WellFormed :=
        (okRun.withTimers okRun.timers.tick).withScreen _
      obtain ⟨report, accounts, _⟩ := ih okThen (frame + 1)
        (if run.machine.tick.isDirty then renders + 1 else renders) (ordered.upcoming _)
        (fun _ => le_start_of_mem_upcoming) laterKeys (log ++ keyed.log ++ run.log)
      have behind : frame < report.frames :=
        Nat.lt_of_lt_of_le accounts.completed report.completed_le
      have parts := ordered.startedBefore_eq ahead behind
      refine ⟨report, ⟨accounts.answer, ?_, ?_, ?_, ?_⟩, fun _ => behind⟩
      · rw [actionsFrom_eq accounts.completed]
        exact ended.trans_of_none accounts.plays
      · rw [accounts.moves, notedThen, parts, List.map_append, List.append_assoc]
      · intro key
        rw [accounts.levels, parts, eventsOf_append, levelBy_append, ← levels]
        rfl
      · exact Nat.le_of_succ_le accounts.completed
    · simp only [faulted]
      rw [faulted] at played
      have started := startedBefore_succ ahead
      have stopped : FrameReport.actionsFrom frame s pending ⟨frame + 1, renders, some fault⟩ =
          frameBody s pending frame := by
        simp [FrameReport.actionsFrom, FrameReport.completed, wholeFrames]
      refine ⟨⟨frame + 1, renders, some fault⟩, ⟨rfl, ?_, ?_, ?_, Nat.le_refl _⟩,
        fun _ => Nat.lt_succ_self frame⟩
      · rw [stopped]
        exact played
      · rw [Outcome.log_done, Array.toList_push, keyMoves_append, notedThen, started]
        exact List.append_nil _
      · intro key
        rw [started]
        exact levels key

end Machine

end Chip8
