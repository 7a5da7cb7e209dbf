import Chip8.Proofs.Courses

/-! # Accounting for frames

A host loop that ticks the timers once in every frame it counts, and renders the frames that were
drawn on, accounts for its frames. A run of frames does so as long as the program does not fault.
The frame that a fault stops is counted, but it has no tick, no look at the redraw flag and no
render.
-/

namespace Chip8

/-- Every frame that a report counts is accounted for: the timers ticked so often, the renders are
the frames that ended with the redraw flag set, and a frame that was run left the flag clear. -/
structure FrameReport.Accounted (s : Settings) (m : Machine) (count : Int)
    (schedule : List KeyEvent) (report : FrameReport) : Prop where
  ticks : (m.performed s (framePlan s count schedule)).count .tick = report.frames
  renders : report.renders =
    (List.range report.frames).countP fun frame =>
      (m.frameEnd s (inFrameOrder schedule) frame).isDirty
  clean : 1 ≤ report.frames → (m.runFrames s count schedule).machine.isDirty = false

section Ticks

variable {s : Settings} {events : List KeyEvent}

theorem tick_notMem_frameBody (s : Settings) (events : List KeyEvent) (frame : Nat) :
    .tick ∉ frameBody s events frame := by
  simp [frameBody, KeyEvent.action]

theorem count_tick_wholeFrames (s : Settings) (events : List KeyEvent) (first count : Nat) :
    (wholeFrames s events first count).count .tick = count := by
  induction count generalizing first with
  | zero => rfl
  | succ count ih =>
    rw [Machine.wholeFrames_succ, List.count_append, List.count_append, ih,
      List.count_eq_zero_of_not_mem (tick_notMem_frameBody s events first), Nat.zero_add,
      Nat.add_comm]
    rfl

end Ticks

namespace FrameReport

variable {report : FrameReport}

theorem completed_of_finished (finished : report.fault = none) :
    report.completed = report.frames :=
  if_pos finished

theorem completed_of_faulted (faulted : report.fault ≠ none) :
    report.completed = report.frames - 1 :=
  if_neg faulted

end FrameReport

namespace Machine

variable {s : Settings} {m : Machine} {schedule : List KeyEvent} {report : FrameReport}

/-- What a run of frames did, frame by frame: each whole frame ends with its one tick and its one
look at the redraw flag, and the frame that a fault stopped has neither. -/
theorem runFrames_frames (s : Settings) (m : Machine) (count : Int) (schedule : List KeyEvent)
    (reported : (m.runFrames s count schedule).answer = .ok report) :
    ∃ rest,
      m.performed s (framePlan s count schedule) =
        wholeFrames s (inFrameOrder schedule) 0 report.completed ++ rest ∧
      (∀ a ∈ rest, a ∈ frameBody s (inFrameOrder schedule) report.completed) ∧
      (m.performed s (framePlan s count schedule)).count .tick = report.completed ∧
      report.renders = (List.range report.completed).countP fun frame =>
        (m.frameEnd s (inFrameOrder schedule) frame).isDirty := by
  obtain ⟨completed, rest, performed, within, reports⟩ := runFrames_performs s m count schedule
  obtain ⟨rfl, renders⟩ := reports report reported
  have noTick : .tick ∉ rest := fun member => tick_notMem_frameBody _ _ _ (within _ member)
  refine ⟨rest, performed, within, ?_, renders⟩
  rw [show m.performed s (framePlan s count schedule) = _ from performed, List.count_append,
    count_tick_wholeFrames, List.count_eq_zero_of_not_mem noTick, Nat.add_zero]

/-- At the end of a run of frames the redraw flag is clear if the last frame was run to its end. If
a fault stopped that frame, the flag is as the frame has left it. -/
theorem WellFormed.isDirty_runFrames (ok : m.WellFormed) (count : Int)
    (keys : ∀ e ∈ schedule, 0 ≤ e.key ∧ e.key < 16)
    (reported : (m.runFrames s count schedule).answer = .ok report)
    (ran : 1 ≤ report.frames) :
    (m.runFrames s count schedule).machine.isDirty =
      if report.fault = none then false
      else (m.frameEnd s (inFrameOrder schedule) report.completed).isDirty := by
  obtain ⟨report', accounts, -⟩ := ok.framesFrom_accounts (s := s) count.toNat 0 0
    (frameOrdered_inFrameOrder schedule) (fun e _ => Nat.zero_le e.start)
    (fun e member => keys e (mem_inFrameOrder.mp member)) #[]
  obtain rfl : report = report' := Except.ok.inj (reported.symm.trans accounts.answer)
  have machine : (m.runFrames s count schedule).machine =
      m.after s (report.actions s schedule) := accounts.plays.1
  rw [machine, FrameReport.actions, FrameReport.actionsFrom, Nat.sub_zero]
  split
  · next finished =>
    obtain ⟨before, all⟩ : ∃ before, report.completed = before + 1 :=
      Nat.exists_eq_add_of_le' (report.completed_of_finished finished ▸ ran)
    rw [List.append_nil, all, wholeFrames_concat, after_append, after_append]
    rfl
  · rw [frameEnd, ← List.append_assoc, after_append _ _ (_ ++ _) [.tick]]
    rfl

/-- On every machine that a host can bring about, a run of frames under a schedule of existing keys
ends with a report. The timers ticked once in each frame that was run to its end, and so many of
these frames are reported as renders as ended with the redraw flag set. So every reported frame is
accounted for exactly if no fault stopped the run: the frame that a fault stops is reported too, but
the timers do not tick in it, it is not rendered and it leaves the redraw flag as it is. -/
theorem accounted_iff_of_run {actions : List Action} (run : Run s (initial s) actions m)
    (count : Int) (keys : ∀ e ∈ schedule, 0 ≤ e.key ∧ e.key < 16) :
    let events := inFrameOrder schedule
    let performed := m.performed s (framePlan s count schedule)
    let ended := m.runFrames s count schedule
    ∃ report rest, ended.answer = .ok report ∧ ended.machine = m.after s performed ∧
      performed = wholeFrames s events 0 report.completed ++ rest ∧
      (∀ a ∈ rest, a ∈ frameBody s events report.completed) ∧
      performed.count .tick = report.completed ∧
      (report.renders = (List.range report.completed).countP fun frame =>
        (m.frameEnd s events frame).isDirty) ∧
      (1 ≤ report.frames → ended.machine.isDirty =
        if report.fault = none then false else (m.frameEnd s events report.completed).isDirty) ∧
      (report.Accounted s m count schedule ↔ report.fault = none) := by
  intro events performed ended
  have ok : m.WellFormed := run.wellFormed (wellFormed_initial s)
  obtain ⟨report, reported⟩ := ok.runFrames_reports (s := s) count keys
  obtain ⟨rest, whole, within, ticks, renders⟩ := runFrames_frames s m count schedule reported
  have dirty := ok.isDirty_runFrames count keys reported
  refine ⟨report, rest, reported, (runFrames_enacts s m count schedule).machine, whole, within,
    ticks, renders, dirty, ?_, ?_⟩
  · intro accounted
    by_contra faulted
    have within := (frames_of_reported _ _ _ _ _ reported).2 faulted
    have sameCount := ticks.symm.trans accounted.ticks
    rw [report.completed_of_faulted faulted] at sameCount
    omega
  · intro finished
    rw [report.completed_of_finished finished] at ticks renders
    exact ⟨ticks, renders, fun ran => by rw [dirty ran, if_pos finished]⟩

/-- A program that runs in a circle: the two frames asked for are accounted for or a fault stopped
them. -/
theorem accounted_iff_of_run_circle :
    let m := (initial {}).after {} [.load [0x12, 0x00]]
    let schedule := [⟨1, 3, true⟩]
    Run {} (initial {}) [.load [0x12, 0x00]] m ∧ (∀ e ∈ schedule, 0 ≤ e.key ∧ e.key < 16) ∧
      ∃ report, (m.runFrames {} 2 schedule).answer = .ok report ∧
        (report.Accounted {} m 2 schedule ↔ report.fault = none) := by
  intro m schedule
  have run : Run {} (initial {}) [.load [0x12, 0x00]] m := .of_after (initial {}) _
  have keys : ∀ e ∈ schedule, 0 ≤ e.key ∧ e.key < 16 := by decide
  obtain ⟨report, _, reported, _, _, _, _, _, _, accounted⟩ := accounted_iff_of_run run 2 keys
  exact ⟨run, keys, report, reported, accounted⟩

/-- A machine that returns from no call in its first step: the frame is reported, but that step is
all that was done in it, and the redraw flag is as it was. -/
theorem runFrames_of_return (running : m.mode = .running)
    (returns : m.memory.readWord m.registers.pc = 0x00EE) (empty : m.registers.sp = 0) :
    (m.runFrames {} 1 []).answer = .ok ⟨1, 0, some (.stackUnderflow m.registers.pc)⟩ ∧
      m.performed {} (framePlan {} 1 []) = [.step] ∧
      (m.runFrames {} 1 []).machine.isDirty = m.isDirty := by
  obtain ⟨faulted, halted⟩ := step_ret_of_empty {} running returns empty
  have refused : (m.perform {} .step).answer =
      .error (.fault (.stackUnderflow m.registers.pc)) := by
    simp only [perform, Outcome.map, faulted]
    rfl
  have plan : framePlan {} 1 [] = .step :: (List.replicate 9 .step ++ [.tick, .takeDirty]) := by
    rw [framePlan, show inFrameOrder [] = [] from List.mergeSort_nil]
    rfl
  have performed : m.performed {} (framePlan {} 1 []) = [.step] := by
    rw [plan]
    simp only [Machine.performed, refused]
  have enacted := runFrames_enacts {} m 1 []
  refine ⟨?_, performed, ?_⟩
  · rw [enacted.answer, performed, plan]
    simp only [obstacle, refused]
    rfl
  · rw [enacted.machine, performed, after_cons, after_nil, machine_perform_step, halted]
    rfl

/-- A program that returns from no call is not accounted for: one frame is reported, but the timers
did not tick and the redraw flag is still set. -/
theorem not_accounted_of_return :
    let m := (initial {}).after {} [.load [0x00, 0xEE]]
    Run {} (initial {}) [.load [0x00, 0xEE]] m ∧
      ∃ report, (m.runFrames {} 1 []).answer = .ok report ∧ report.frames = 1 ∧
        report.fault = some (.stackUnderflow 0x200) ∧
        m.performed {} (framePlan {} 1 []) = [.step] ∧
        (m.runFrames {} 1 []).machine.isDirty = true ∧ ¬ report.Accounted {} m 1 [] := by
  intro m
  have word : m.memory.readWord m.registers.pc = 0x00EE := by
    change ((Memory.initial.placeProgram [0x00, 0xEE] (by decide)).readWord programStart) = _
    simp [Memory.readWord, Memory.placeProgram, Memory.read_place, Address.ofInt, programStart]
  obtain ⟨reported, performed, dirty⟩ := runFrames_of_return (m := m) rfl word rfl
  refine ⟨.of_after (initial {}) _, _, reported, rfl, rfl, performed, dirty, ?_⟩
  intro accounted
  have ticks := accounted.ticks
  rw [performed] at ticks
  cases ticks

end Machine

end Chip8
