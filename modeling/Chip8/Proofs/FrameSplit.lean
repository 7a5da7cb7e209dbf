import Chip8.Proofs.Faults
import Chip8.Proofs.FrameOrder
import Chip8.Proofs.Simulation

/-! # Splitting a run of frames

A run of frames can be interrupted between two frames and taken up again with what its schedule
still has to say: that makes no difference to the machine, and the reports add up. After a fault
nothing is left to take up.
-/

namespace Chip8

/-- A report that also counts what was done before. -/
def FrameReport.onTopOf (report : FrameReport) (frames renders : Nat) : FrameReport :=
  ⟨frames + report.frames, renders + report.renders, report.fault⟩

namespace Machine

variable {s : Settings} {m : Machine}

section Reports

/-- Key events of existing keys are applied. -/
theorem answer_applyEvents (frame : Nat) {events : List KeyEvent} (log : Array LogEntry)
    (keys : ∀ e ∈ events, 0 ≤ e.key ∧ e.key < 16) :
    (m.applyEvents frame events log).answer = .ok () := by
  induction events generalizing m log with
  | nil => rfl
  | cons e rest ih =>
    have ⟨low, high⟩ := keys e (List.mem_cons_self ..)
    obtain ⟨key, same⟩ := Registers.exists_val low high
    simp only [applyEvents, setKey, same, Keypad.setKey_val, Outcome.lookup_ok, Outcome.answer_done]
    exact ih _ fun e member => keys e (List.mem_cons_of_mem _ member)

theorem WellFormed.burst_finishesOrFaults (ok : m.WellFormed) (n : Nat) (log : Array LogEntry) :
    (m.burst s n log).FinishesOrFaults := by
  induction n generalizing m log with
  | zero => exact .inl ⟨(), rfl⟩
  | succ n ih =>
    obtain ⟨event, finished⟩ | ⟨fault, faulted⟩ := ok.step_finishesOrFaults (s := s)
    · simp only [burst, finished]
      cases event with
      | halted => exact .inl ⟨(), rfl⟩
      | _ => exact ih ok.step _
    · simp only [burst, faulted]
      exact .inr ⟨fault, rfl⟩

theorem WellFormed.applyEvents (ok : m.WellFormed) (frame : Nat) (events : List KeyEvent)
    (log : Array LogEntry) : (m.applyEvents frame events log).machine.WellFormed :=
  ok.of_reaches (applyEvents_reaches (s := {}) frame events m log)

theorem WellFormed.burst (ok : m.WellFormed) (n : Nat) (log : Array LogEntry) :
    (m.burst s n log).machine.WellFormed :=
  ok.of_reaches (burst_reaches n m log)

/-- A run of frames that moves existing keys ends with a report. -/
theorem WellFormed.framesFrom_reports (ok : m.WellFormed) (count frame renders : Nat)
    {pending : List KeyEvent} (keys : ∀ e ∈ pending, 0 ≤ e.key ∧ e.key < 16)
    (log : Array LogEntry) :
    ∃ report, (m.framesFrom s count frame renders pending log).answer = .ok report := by
  induction count generalizing frame renders pending m log with
  | zero => exact ⟨_, rfl⟩
  | succ count ih =>
    simp only [framesFrom, List.span_eq_takeWhile_dropWhile]
    have dueKeys : ∀ e ∈ pending.takeWhile fun e => decide (e.frame ≤ (frame : Int)),
        0 ≤ e.key ∧ e.key < 16 :=
      fun e member => keys e ((List.takeWhile_sublist _).subset member)
    have laterKeys : ∀ e ∈ pending.dropWhile fun e => decide (e.frame ≤ (frame : Int)),
        0 ≤ e.key ∧ e.key < 16 :=
      fun e member => keys e ((List.dropWhile_sublist _).subset member)
    simp only [answer_applyEvents frame #[] dueKeys]
    have keyed := ok.applyEvents frame
      (pending.takeWhile fun e => decide (e.frame ≤ (frame : Int))) #[]
    have played := keyed.burst (s := s) s.cyclesPerFrame.toNat #[]
    obtain ⟨⟨⟩, finished⟩ | ⟨fault, faulted⟩ :=
      keyed.burst_finishesOrFaults (s := s) s.cyclesPerFrame.toNat #[]
    · simp only [finished]
      exact ih ((played.withTimers played.timers.tick).withScreen _) _ _ laterKeys _
    · simp only [faulted]
      exact ⟨_, rfl⟩

theorem WellFormed.runFrames_reports (ok : m.WellFormed) (count : Int) {schedule : List KeyEvent}
    (keys : ∀ e ∈ schedule, 0 ≤ e.key ∧ e.key < 16) :
    ∃ report, (m.runFrames s count schedule).answer = .ok report :=
  ok.framesFrom_reports _ _ _ (fun e member => keys e (mem_inFrameOrder.mp member)) _

/-- A run of frames that no fault ended has run them all. -/
theorem frames_of_finished (count frame renders : Nat) (pending : List KeyEvent)
    (log : Array LogEntry) {report : FrameReport}
    (reported : (m.framesFrom s count frame renders pending log).answer = .ok report)
    (finished : report.fault = none) : report.frames = frame + count := by
  induction count generalizing frame renders pending m log with
  | zero =>
    cases reported
    rfl
  | succ count ih =>
    simp only [framesFrom] at reported
    split at reported
    · cases reported
    · split at reported
      · cases reported
        cases finished
      · cases reported
      · rw [ih _ _ _ _ reported]
        omega

/-- No more frames are run than are asked for, and a fault happens in a frame. -/
theorem frames_of_reported (count frame renders : Nat) (pending : List KeyEvent)
    (log : Array LogEntry) {report : FrameReport}
    (reported : (m.framesFrom s count frame renders pending log).answer = .ok report) :
    report.frames ≤ frame + count ∧ (report.fault ≠ none → frame < report.frames) := by
  induction count generalizing frame renders pending m log with
  | zero =>
    cases reported
    exact ⟨Nat.le_refl _, fun faulted => absurd rfl faulted⟩
  | succ count ih =>
    simp only [framesFrom] at reported
    split at reported
    · cases reported
    · split at reported
      · cases reported
        exact ⟨by simp only []; omega, fun _ => Nat.lt_succ_self frame⟩
      · cases reported
      · obtain ⟨atMost, within⟩ := ih _ _ _ _ reported
        exact ⟨by omega, fun faulted => Nat.lt_of_succ_lt (within faulted)⟩

end Reports

section Split

/-- More frames are the frames that are asked for first and then, if they were not broken off, the
others, with the events that are still to come. -/
theorem framesFrom_add (n k frame renders : Nat) {pending : List KeyEvent}
    (ordered : FrameOrdered pending) (ahead : ∀ e ∈ pending, (frame : Int) ≤ e.frame)
    (log : Array LogEntry) :
    m.framesFrom s (n + k) frame renders pending log =
      let first := m.framesFrom s n frame renders pending log
      match first.answer with
      | .ok ⟨reached, rendered, none⟩ =>
          first.machine.framesFrom s k reached rendered (upcoming (frame + n) pending)
            first.log.toArray
      | _ => first := by
  -- before each of the first frames, no pending event lies behind
  induction n generalizing frame renders pending m log with
  | zero =>
    simp [framesFrom, upcoming_eq_self ahead]
  | succ n ih =>
    rw [Nat.add_right_comm]
    simp only [framesFrom, ordered.span]
    generalize m.applyEvents frame _ #[] = keyed
    generalize keyed.machine.burst s s.cyclesPerFrame.toNat #[] = run
    cases keyed.answer with
    | error reason => rfl
    | ok moved =>
      cases run.answer with
      | error reason => cases reason <;> rfl
      | ok played =>
        have aheadThen : ∀ e ∈ upcoming ((frame : Int) + 1) pending,
            ((frame + 1 : Nat) : Int) ≤ e.frame :=
          fun e member => (mem_upcoming.mp member).2
        have still : upcoming (((frame + 1 : Nat) : Int) + n) (upcoming (frame + 1) pending) =
            upcoming (frame + (n + 1 : Nat)) pending := by
          rw [upcoming_upcoming _ (by omega)]
          congr 1
          omega
        simp only []
        rw [ih (frame + 1) _ (ordered.upcoming _) aheadThen, still]

/-- Applied events do not depend on the frames that they are noted with. -/
theorem applyEvents_countedFrom (n frame frame' : Nat) (events : List KeyEvent)
    (log log' : Array LogEntry) :
    (m.applyEvents frame (events.map (·.countedFrom n)) log).Agree Eq
      (m.applyEvents frame' events log') := by
  induction events generalizing m log log' with
  | nil => exact Outcome.agree_done rfl _ _ _
  | cons e rest ih =>
    simp only [List.map_cons, applyEvents, KeyEvent.countedFrom]
    split
    · exact Outcome.agree_refused rfl _ _ _
    · exact ih _ _

/-- Frames numbered from another one on do the same under events that are counted from there. -/
theorem framesFrom_countedFrom (n r count frame renders : Nat) (pending : List KeyEvent)
    (log log' : Array LogEntry) :
    (m.framesFrom s count (n + frame) (r + renders) pending log).Agree Eq
      ((m.framesFrom s count frame renders (pending.map (·.countedFrom n)) log').map
        (·.onTopOf n r)) := by
  induction count generalizing frame renders pending m log log' with
  | zero => exact Outcome.agree_done rfl _ _ _
  | succ count ih =>
    simp only [framesFrom, span_countedFrom]
    generalize pending.span _ = parts
    obtain ⟨keyAnswer, keyed⟩ :=
      applyEvents_countedFrom (m := m) n frame (n + frame) parts.1 #[] #[]
    rw [keyAnswer, keyed]
    cases (m.applyEvents (n + frame) parts.1 #[]).answer with
    | error reason => exact Outcome.agree_refused rfl _ _ _
    | ok moved =>
      generalize (m.applyEvents (n + frame) parts.1 #[]).machine.burst s _ #[] = run
      cases run.answer with
      | error reason =>
        cases reason with
        | fault fault => exact Outcome.agree_done rfl _ _ _
        | _ => exact Outcome.agree_refused rfl _ _ _
      | ok played =>
        -- the counters go up by one on both sides, whether or not the frame is rendered
        cases run.machine.tick.isDirty with
        | true => exact ih (frame + 1) (renders + 1) _ _ _
        | false => exact ih (frame + 1) renders _ _ _

theorem runFrames_add (n k : Nat) {schedule : List KeyEvent}
    (frames : ∀ e ∈ schedule, 0 ≤ e.frame) :
    m.runFrames s (n + k : Nat) schedule =
      let first := m.runFrames s n schedule
      match first.answer with
      | .ok ⟨reached, rendered, none⟩ =>
          first.machine.framesFrom s k reached rendered (upcoming n (inFrameOrder schedule))
            first.log.toArray
      | _ => first := by
  have ahead : ∀ e ∈ inFrameOrder schedule, ((0 : Nat) : Int) ≤ e.frame :=
    fun e member => frames e (mem_inFrameOrder.mp member)
  have split := framesFrom_add (s := s) (m := m) n k 0 0
    (frameOrdered_inFrameOrder schedule) ahead #[]
  simpa only [runFrames, Int.toNat_natCast, Int.natCast_zero, Int.zero_add] using split

/-- After frames that no fault ended, more frames add up to a run of all of them. -/
theorem runFrames_add_of_finished (n k : Nat) {schedule : List KeyEvent}
    (frames : ∀ e ∈ schedule, 0 ≤ e.frame) {report : FrameReport}
    (reported : (m.runFrames s n schedule).answer = .ok report) (finished : report.fault = none) :
    report.frames = n ∧
      (m.runFrames s (n + k : Nat) schedule).Agree Eq
        (((m.runFrames s n schedule).machine.runFrames s k (eventsFrom n schedule)).map
          (·.onTopOf n report.renders)) := by
  have all : report.frames = n := by
    have counted := frames_of_finished n 0 0 (inFrameOrder schedule) #[] reported finished
    rwa [Nat.zero_add] at counted
  refine ⟨all, ?_⟩
  obtain ⟨reached, rendered, _⟩ := report
  obtain rfl : reached = n := all
  subst finished
  have resumed (m : Machine) : m.runFrames s k (eventsFrom reached schedule) =
      m.framesFrom s k 0 0 (eventsFrom reached (inFrameOrder schedule)) #[] := by
    rw [runFrames, inFrameOrder_eventsFrom, Int.toNat_natCast]
  simp only [runFrames_add reached k frames, reported, resumed]
  exact framesFrom_countedFrom reached rendered k 0 0 _ _ _

/-- After a fault more frames change nothing. -/
theorem runFrames_add_of_fault (n k : Nat) {schedule : List KeyEvent}
    (frames : ∀ e ∈ schedule, 0 ≤ e.frame) {report : FrameReport} {fault : Fault}
    (reported : (m.runFrames s n schedule).answer = .ok report)
    (faulted : report.fault = some fault) :
    m.runFrames s (n + k : Nat) schedule = m.runFrames s n schedule := by
  obtain ⟨reached, rendered, _⟩ := report
  subst faulted
  simp only [runFrames_add n k frames, reported]

end Split

/-- On every machine that a host can bring about, a run of frames under a schedule of existing keys
ends with a report. If no fault ended it, all its frames were run, and running some more with the
events that are still to come, counted from there, makes up a longer run of frames: the machine at
the end is the same, the counts add up and the fault is the one of the second run. If a fault ended
it, the longer run reports the same and leaves the same machine. -/
theorem runFrames_add_of_run {actions : List Action} (run : Run s (initial s) actions m)
    (n k : Nat) {schedule : List KeyEvent} (frames : ∀ e ∈ schedule, 0 ≤ e.frame)
    (keys : ∀ e ∈ schedule, 0 ≤ e.key ∧ e.key < 16) :
    let first := m.runFrames s n schedule
    let second := first.machine.runFrames s k (eventsFrom n schedule)
    let whole := m.runFrames s (n + k : Nat) schedule
    ∃ report, first.answer = .ok report ∧
      (report.fault = none →
        report.frames = n ∧ ∃ later, second.answer = .ok later ∧
          whole.answer = .ok
            ⟨report.frames + later.frames, report.renders + later.renders, later.fault⟩ ∧
          whole.machine = second.machine) ∧
      (∀ fault, report.fault = some fault →
        whole.answer = .ok report ∧ whole.machine = first.machine) := by
  intro first second whole
  have ok : m.WellFormed := run.wellFormed (wellFormed_initial s)
  obtain ⟨report, reported⟩ := ok.runFrames_reports (s := s) n keys
  refine ⟨report, reported, ?_, ?_⟩
  · intro finished
    obtain ⟨all, answer, machine⟩ := runFrames_add_of_finished n k frames reported finished
    have okThen : first.machine.WellFormed := ok.perform (.frames n schedule)
    have keysThen : ∀ e ∈ eventsFrom n schedule, 0 ≤ e.key ∧ e.key < 16 := by
      intro e member
      obtain ⟨original, comes, rfl⟩ := List.mem_map.mp member
      exact keys original (mem_upcoming.mp comes).1
    obtain ⟨later, resumed⟩ := okThen.runFrames_reports (s := s) k keysThen
    refine ⟨all, later, resumed, ?_, machine⟩
    rw [answer, Outcome.map, resumed, all]
    rfl
  · intro fault faulted
    have same : whole = first := runFrames_add_of_fault n k frames reported faulted
    rw [same]
    exact ⟨reported, rfl⟩

/-- A key that goes down in one run of frames and up in the next. -/
theorem runFrames_add_of_run_halves :
    let m := (initial {}).after {} [.load [0x12, 0x00]]
    let schedule := [⟨2, 3, false⟩, ⟨0, 3, true⟩]
    let first := m.runFrames {} 1 schedule
    Run {} (initial {}) [.load [0x12, 0x00]] m ∧ (∀ e ∈ schedule, 0 ≤ e.frame) ∧
      (∀ e ∈ schedule, 0 ≤ e.key ∧ e.key < 16) ∧
      ∃ report, first.answer = .ok report ∧ (report.fault = none →
        (m.runFrames {} (1 + 2 : Nat) schedule).machine =
          (first.machine.runFrames {} 2 (eventsFrom 1 schedule)).machine) := by
  intro m schedule first
  have run : Run {} (initial {}) [.load [0x12, 0x00]] m := Run.of_after (initial {}) _
  have frames : ∀ e ∈ schedule, 0 ≤ e.frame := by decide
  have keys : ∀ e ∈ schedule, 0 ≤ e.key ∧ e.key < 16 := by decide
  obtain ⟨report, reported, resumes, _⟩ := runFrames_add_of_run run 1 2 frames keys
  refine ⟨run, frames, keys, report, reported, ?_⟩
  intro finished
  obtain ⟨_, _, _, _, same⟩ := resumes finished
  exact same

end Machine

end Chip8
