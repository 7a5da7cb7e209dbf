import Chip8.Proofs.CallStack
import Chip8.Proofs.FrameActions

/-! # Programs that do not read the delay timer

Ticks and looks at the redraw flag reach a program through the delay timer and in no other way. So
how many steps a frame has makes no difference to a program that does not read the timer: only how
many steps there are altogether counts, wherever ticks and looks are strewn among them.
-/

namespace Chip8

/-- The actions of frames without key events. -/
def Action.IsPacing : Action → Prop
  | .step | .tick | .takeDirty => True
  | .load _ | .reset | .setKey _ _ | .frames _ _ | .execute _ => False

def Executed.ReadsDelay (e : Executed) : Prop := ∃ x : Fin 16, e.word = 0xF007 + 0x100 * x.val

namespace Machine

/-- The machine with other timers and another redraw flag. -/
def withPacing (m : Machine) (timers : Timers) (dirty : Bool) : Machine :=
  { m with timers := timers, screen := { m.screen with dirty := dirty } }

section WithPacing

variable (m : Machine) (timers : Timers) (dirty : Bool)

@[simp] theorem registers_withPacing : (m.withPacing timers dirty).registers = m.registers := rfl

@[simp] theorem keypad_withPacing : (m.withPacing timers dirty).keypad = m.keypad := rfl

@[simp] theorem fetchPc_withPacing : (m.withPacing timers dirty).fetchPc = m.fetchPc := rfl

@[simp] theorem waitRegister_withPacing :
    (m.withPacing timers dirty).waitRegister = m.waitRegister := rfl

end WithPacing

/-- The machines differ at most in the timers and the redraw flag. -/
def SameButPacing (m m' : Machine) : Prop := ∃ timers dirty, m' = m.withPacing timers dirty

namespace SameButPacing

variable {s s' : Settings} {d : Dialect} {m m' m'' : Machine}

theorem refl (m : Machine) : SameButPacing m m := ⟨m.timers, m.screen.dirty, rfl⟩

theorem symm (same : SameButPacing m m') : SameButPacing m' m := by
  obtain ⟨timers, dirty, rfl⟩ := same
  exact ⟨m.timers, m.screen.dirty, rfl⟩

theorem trans (same : SameButPacing m m') (same' : SameButPacing m' m'') : SameButPacing m m'' := by
  obtain ⟨_, _, rfl⟩ := same
  obtain ⟨timers, dirty, rfl⟩ := same'
  exact ⟨timers, dirty, rfl⟩

theorem skipIf (same : SameButPacing m m') (condition : Bool) :
    SameButPacing (m.skipIf condition) (m'.skipIf condition) := by
  obtain ⟨timers, dirty, rfl⟩ := same
  cases condition <;> exact ⟨timers, dirty, rfl⟩

theorem blockEnd (same : SameButPacing m m') (x : Int) (log log' : List LogEntry) :
    (m.blockEnd d x log).Agree SameButPacing (m'.blockEnd d x log') := by
  obtain ⟨timers, dirty, rfl⟩ := same
  unfold Machine.blockEnd passBlock
  split
  · split <;> exact ⟨rfl, timers, dirty, rfl⟩
  · exact ⟨rfl, timers, dirty, rfl⟩

theorem runAlu (same : SameButPacing m m') (f : Alu) (x y : Fin 16) :
    SameButPacing (m.runAlu d f x y) (m'.runAlu d f x y) := by
  obtain ⟨timers, dirty, rfl⟩ := same
  simp only [Machine.runAlu, registers_withPacing]
  obtain ⟨result, _ | flag⟩ := f.apply d (m.registers.v.get x) (m.registers.v.get y)
  · exact ⟨timers, dirty, rfl⟩
  · exact ⟨timers, dirty, rfl⟩

theorem runAddIndex (same : SameButPacing m m') (x : Fin 16) :
    SameButPacing (m.runAddIndex d x) (m'.runAddIndex d x) := by
  obtain ⟨timers, dirty, rfl⟩ := same
  unfold Machine.runAddIndex
  split <;> exact ⟨timers, dirty, rfl⟩

/-- Every operation but the one that reads the delay timer is blind to the pacing. -/
theorem run (same : SameButPacing m m') {operation : Operation} (encodable : operation.Encodable)
    (blind : ∀ x : Fin 16, operation ≠ .readDelay x.val) :
    (m.run d operation).Agree SameButPacing (m'.run d operation) := by
  obtain ⟨timers, dirty, rfl⟩ := same
  have same : SameButPacing m (m.withPacing timers dirty) := ⟨timers, dirty, rfl⟩
  cases encodable <;>
    simp only [Machine.run, Registers.slot_val, assignment_val, Outcome.lookup_ok]
  case readDelay x => exact absurd rfl (blind x)
  case clearScreen => exact ⟨rfl, timers, true, rfl⟩
  case ret =>
    simp only [registers_withPacing, fetchPc_withPacing]
    cases m.registers.pop m.fetchPc <;> exact ⟨rfl, timers, dirty, rfl⟩
  case call target =>
    simp only [registers_withPacing, fetchPc_withPacing]
    cases m.registers.push m.registers.pc m.fetchPc <;> exact ⟨rfl, timers, dirty, rfl⟩
  case skipByte => exact Outcome.agree_done (same.skipIf _) _ _ _
  case skipRegister => exact Outcome.agree_done (same.skipIf _) _ _ _
  case skipKey => exact Outcome.agree_done (same.skipIf _) _ _ _
  case alu => exact Outcome.agree_done (same.runAlu ..) _ _ _
  case draw => exact ⟨rfl, timers, true, rfl⟩
  case setDelay x => exact ⟨rfl, { timers with delay := m.registers.get x }, dirty, rfl⟩
  case setSound x => exact ⟨rfl, { timers with sound := m.registers.get x }, dirty, rfl⟩
  case addIndex => exact Outcome.agree_done (same.runAddIndex ..) _ _ _
  case storeRegisters => exact blockEnd ⟨timers, dirty, rfl⟩ _ _ _
  case loadRegisters => exact blockEnd ⟨timers, dirty, rfl⟩ _ _ _
  all_goals exact ⟨rfl, timers, dirty, rfl⟩

theorem exec (same : SameButPacing m m') (word : Int)
    (blind : ∀ x : Fin 16, word % 65536 ≠ 0xF007 + 0x100 * x.val) :
    (m.exec d (.ofWord word)).Agree SameButPacing (m'.exec d (.ofWord word)) := by
  have fetchPc : m'.fetchPc = m.fetchPc := by
    obtain ⟨_, _, rfl⟩ := same
    rfl
  simp only [Machine.exec, fetchPc]
  split
  · next asked =>
    apply same.run (Instruction.operation?_encodable asked)
    rintro x rfl
    exact blind x (Instruction.word_of_operation? asked (by simp)).symm
  · exact Outcome.agree_refused same _ _ _

theorem cycle (same : SameButPacing m m') (dialects : s.dialect = s'.dialect)
    (blind : ∀ x : Fin 16, m.memory.readWord m.registers.pc ≠ 0xF007 + 0x100 * x.val) :
    (m.cycle s).Agree SameButPacing (m'.cycle s') := by
  have fetched : SameButPacing m.fetched m'.fetched := by
    obtain ⟨timers, dirty, rfl⟩ := same
    exact ⟨timers, dirty, rfl⟩
  have next : m'.nextInstruction = m.nextInstruction := by
    obtain ⟨_, _, rfl⟩ := same
    rfl
  obtain ⟨answer, executed⟩ := fetched.exec (d := s.dialect)
    (m.memory.readWord m.registers.pc) (by rwa [Memory.readWord_emod])
  rw [← nextInstruction_eq] at answer executed
  simp only [Machine.cycle, next, ← dialects, ← answer]
  generalize m.fetched.exec s.dialect m.nextInstruction = o at executed ⊢
  generalize m'.fetched.exec s.dialect m.nextInstruction = o' at executed ⊢
  obtain ⟨timers, dirty, eq⟩ := executed
  rw [eq]
  split
  · exact Outcome.agree_done ⟨timers, dirty, rfl⟩ _ _ _
  · exact Outcome.agree_refused ⟨timers, dirty, rfl⟩ _ _ _
  · exact Outcome.agree_refused ⟨timers, dirty, rfl⟩ _ _ _

theorem pollKey (same : SameButPacing m m') : m.pollKey.Agree SameButPacing m'.pollKey := by
  obtain ⟨timers, dirty, rfl⟩ := same
  simp only [Machine.pollKey, keypad_withPacing, waitRegister_withPacing]
  obtain ⟨_ | key, keypad⟩ := m.keypad.takeEdge
  · exact ⟨rfl, timers, dirty, rfl⟩
  · cases Registers.slot m.waitRegister <;> exact ⟨rfl, timers, dirty, rfl⟩

/-- A step that does not read the delay timer is blind to the pacing. -/
theorem step (same : SameButPacing m m') (dialects : s.dialect = s'.dialect)
    (blind : m.mode = .running →
      ∀ x : Fin 16, m.memory.readWord m.registers.pc ≠ 0xF007 + 0x100 * x.val) :
    (m.step s).Agree SameButPacing (m'.step s') := by
  have mode : m'.mode = m.mode := by
    obtain ⟨_, _, rfl⟩ := same
    rfl
  simp only [Machine.step, mode]
  split
  · next running => exact same.cycle dialects (blind running)
  · exact same.pollKey
  · exact Outcome.agree_done same _ _ _

theorem executedBy_step (same : SameButPacing m m')
    (answer : (m.step s).answer = (m'.step s').answer) :
    m'.executedBy s' .step = m.executedBy s .step := by
  obtain ⟨_, _, rfl⟩ := same
  simp only [executedBy, ← answer]
  rfl

end SameButPacing

variable {s s' : Settings} {m m' : Machine}

/-- A running machine that stands at an instruction that reads the delay timer executes it. -/
theorem WellFormed.executedBy_of_readDelay (ok : m.WellFormed) (running : m.mode = .running)
    {x : Fin 16} (reads : m.memory.readWord m.registers.pc = 0xF007 + 0x100 * x.val) :
    m.executedBy s .step = [⟨m.registers.pc, m.memory.readWord m.registers.pc⟩] := by
  have asked : (Instruction.ofWord (m.memory.readWord m.registers.pc)).operation? =
      some (.readDelay x.val) := by
    apply Instruction.operation?_misc 0x07 (by decide) (by decide)
    rw [Memory.readWord_emod, reads]
    omega
  have executed : (m.fetched.exec s.dialect m.nextInstruction).answer = .ok () := by
    simp only [Machine.exec, nextInstruction_eq, asked]
    exact ok.fetched.answer_run (Instruction.operation?_encodable asked) (by simp) (by simp)
  obtain ⟨event, finished⟩ | ⟨fault, faulted⟩ := ok.step_finishesOrFaults (s := s)
  · exact executedBy_step running finished
  · rw [(step_of_error faulted).1] at executed
    contradiction

/-- Two lists of actions that run the same instructions into the same fault, and lead to machines
that differ in pacing only. -/
structure SameCourse (s s' : Settings) (m m' : Machine) (actions actions' : List Action) :
    Prop where
  machine : SameButPacing (m.after s actions) (m'.after s' actions')
  told : lastFault (m.exchanges s actions) = lastFault (m'.exchanges s' actions')
  history : m.history s actions = m'.history s' actions'

/-- Wherever ticks and looks are strewn among some steps, as long as the delay timer is not read
they might as well be left out. -/
theorem sameCourse_steps (dialects : s.dialect = s'.dialect) (ok : m.WellFormed)
    (ok' : m'.WellFormed) (same : SameButPacing m m') {actions : List Action}
    (pacing : ∀ a ∈ actions, a.IsPacing)
    (blind : (∀ e ∈ m.history s actions, ¬ e.ReadsDelay) ∨
      ∀ e ∈ m'.history s' (List.replicate (actions.count .step) .step), ¬ e.ReadsDelay) :
    SameCourse s s' m m' actions (List.replicate (actions.count .step) .step) := by
  induction actions generalizing m m' with
  | nil => exact ⟨same, rfl, rfl⟩
  | cons a rest ih =>
    obtain ⟨isPacing, pacingRest⟩ := List.forall_mem_cons.mp pacing
    cases a with
    | step =>
      rw [List.count_cons_self, List.replicate_succ] at blind ⊢
      simp only [history, List.mem_append, or_imp, forall_and] at blind
      have blindNow : m.mode = .running →
          ∀ x : Fin 16, m.memory.readWord m.registers.pc ≠ 0xF007 + 0x100 * x.val := by
        intro running x reads
        obtain ⟨timers, dirty, rfl⟩ := same
        obtain ⟨now, _⟩ | ⟨now, _⟩ := blind
        · rw [ok.executedBy_of_readDelay running reads] at now
          exact now _ (List.mem_singleton_self _) ⟨x, reads⟩
        · rw [ok'.executedBy_of_readDelay running reads] at now
          exact now _ (List.mem_singleton_self _) ⟨x, reads⟩
      obtain ⟨answer, stepped⟩ := same.step dialects blindNow
      obtain ⟨machine, told, history⟩ := ih ok.step ok'.step stepped pacingRest
        (blind.imp And.right And.right)
      refine ⟨machine, ?_, ?_⟩
      · simp only [exchanges, lastFault, perform, Outcome.map, answer]
        congr 1
      · simp only [Machine.history, same.executedBy_step answer]
        congr 1
    | tick =>
      have ticked : SameButPacing m.tick m' :=
        (SameButPacing.symm ⟨m.timers.tick, m.screen.dirty, rfl⟩).trans same
      obtain ⟨machine, told, history⟩ :=
        ih (ok.withTimers ok.timers.tick) ok' ticked pacingRest blind
      exact ⟨machine, Option.or_none.trans told, history⟩
    | takeDirty =>
      have looked : SameButPacing m.takeDirty m' :=
        (SameButPacing.symm ⟨m.timers, false, rfl⟩).trans same
      obtain ⟨machine, told, history⟩ := ih (ok.withScreen _) ok' looked pacingRest blind
      exact ⟨machine, Option.or_none.trans told, history⟩
    | load _ | reset | setKey _ _ | frames _ _ | execute _ => exact isPacing.elim

/-- On a machine that is halted nothing is executed. -/
theorem history_of_halted (halted : m.mode = .halted) (n : Nat) :
    m.history s (List.replicate n .step) = [] := by
  induction n with
  | zero => rfl
  | succ n ih =>
    have idle : (m.perform s .step).machine = m := by
      rw [machine_perform_step, step_of_halted s halted, Outcome.machine_done]
    rw [List.replicate_succ, history, executedBy_step_of_idle (by simp [halted]), idle, ih]
    rfl

/-- An answer that reports no fault itself tells of one as the reason of a refusal only. -/
theorem error_of_faultIn {α : Type} {answer : Except Refusal α} {fault : Fault}
    (told : faultIn (fun _ => none) answer = some fault) : answer = .error (.fault fault) := by
  cases answer with
  | ok _ => cases told
  | error reason =>
    cases reason <;> cases told
    rfl

/-- Without a restart, a fault leaves the machine halted. -/
theorem halted_of_told {actions : List Action} (pacing : ∀ a ∈ actions, a.IsPacing)
    (told : lastFault (m.exchanges s actions) ≠ none) : (m.after s actions).mode = .halted := by
  induction actions generalizing m with
  | nil => exact absurd rfl told
  | cons a rest ih =>
    obtain ⟨isPacing, pacingRest⟩ := List.forall_mem_cons.mp pacing
    by_cases later : lastFault ((m.perform s a).machine.exchanges s rest) = none
    · have now : Exchange.fault? ⟨a, (m.perform s a).answer⟩ ≠ none := by
        simpa only [exchanges, lastFault, later, Option.none_or] using told
      have halted : (m.perform s a).machine.mode = .halted := by
        cases a with
        | step =>
          obtain ⟨fault, faulted⟩ := Option.ne_none_iff_exists'.mp now
          change faultIn Reply.fault? ((m.step s).answer.map .event) = some fault at faulted
          rw [faultIn_map] at faulted
          rw [machine_perform_step, (step_of_error (error_of_faultIn faulted)).2]
        | tick => exact absurd rfl now
        | takeDirty => exact absurd rfl now
        | load _ | reset | setKey _ _ | frames _ _ | execute _ => exact isPacing.elim
      have leaves : ∀ b ∈ rest, b.LeavesHalted := by
        intro b member
        have isPacing := pacingRest b member
        cases b <;> trivial
      obtain ⟨_, _, _, frozen⟩ := after_of_halted (s := s) halted leaves
      rw [after_cons, frozen]
      exact halted
    · exact ih pacingRest later

theorem count_step_frameBody (s : Settings) (frame : Nat) :
    (frameBody s [] frame).count .step = s.cyclesPerFrame.toNat := by
  simp [frameBody, startingAt]

theorem count_step_wholeFrames (s : Settings) (first count : Nat) :
    (wholeFrames s [] first count).count .step = count * s.cyclesPerFrame.toNat := by
  induction count generalizing first with
  | zero => simp [wholeFrames]
  | succ count ih =>
    rw [wholeFrames_succ, List.count_append, List.count_append, count_step_frameBody, ih,
      Nat.succ_mul, Nat.add_comm]
    rfl

theorem inFrameOrder_nil : inFrameOrder [] = [] := List.mergeSort_nil

theorem isPacing_frameBody (s : Settings) (frame : Nat) :
    ∀ a ∈ frameBody s [] frame, a.IsPacing := by
  intro a member
  rw [List.eq_of_mem_replicate member]
  trivial

theorem isPacing_actions (s : Settings) (report : FrameReport) :
    ∀ a ∈ report.actions s [], a.IsPacing := by
  intro a member
  rw [FrameReport.actions, inFrameOrder_nil] at member
  obtain whole | stopped := List.mem_append.mp member
  · obtain ⟨frame, _, within⟩ := List.mem_flatMap.mp whole
    obtain played | closing := List.mem_append.mp within
    · exact isPacing_frameBody s frame a played
    · obtain rfl | rfl : a = .tick ∨ a = .takeDirty := by simpa using closing
      · trivial
      · trivial
  · split at stopped
    · exact absurd stopped List.not_mem_nil
    · exact isPacing_frameBody s _ a stopped

/-- Each reported frame has its steps, also the one that a fault stopped. -/
theorem count_step_actions (s : Settings) {report : FrameReport}
    (within : report.fault ≠ none → 0 < report.frames) :
    (report.actions s []).count .step = report.frames * s.cyclesPerFrame.toNat := by
  have whole := count_step_wholeFrames s 0 report.completed
  simp only [FrameReport.actions, FrameReport.actionsFrom, inFrameOrder_nil, List.count_append,
    Nat.sub_zero, whole]
  by_cases finished : report.fault = none
  · simp [FrameReport.completed, finished]
  · have frames : report.frames = report.completed + 1 := by
      have := within finished
      simp only [FrameReport.completed, if_neg finished]
      omega
    rw [if_neg finished, count_step_frameBody, frames, Nat.succ_mul]

/-- So many frames of so many steps have their product of steps, which is none if the number of
frames is negative. -/
theorem toNat_mul_of_nonneg {cycles : Int} (nonneg : 0 ≤ cycles) (n : Int) :
    (cycles * n).toNat = n.toNat * cycles.toNat := by
  obtain some | none := Int.le_total 0 n
  · rw [Int.toNat_mul nonneg some, Nat.mul_comm]
  · rw [Int.toNat_of_nonpos none, Nat.zero_mul,
      Int.toNat_of_nonpos (Int.mul_nonpos_of_nonneg_of_nonpos nonneg none)]

/-- Frames without key events, filled up with the steps that a fault left over. -/
theorem WellFormed.runFrames_filled (ok : m.WellFormed) (n : Int) :
    ∃ report, (m.runFrames s n []).answer = .ok report ∧
      (m.runFrames s n []).machine = m.after s (report.actions s []) ∧
      ∃ actions : List Action, (∀ a ∈ actions, a.IsPacing) ∧
        actions.count .step = n.toNat * s.cyclesPerFrame.toNat ∧
        Plays s m actions report.fault (m.runFrames s n []).machine ∧
        m.history s actions = m.history s (report.actions s []) := by
  obtain ⟨report, accounts, _⟩ := ok.framesFrom_accounts (s := s) n.toNat 0 0
    (frameOrdered_inFrameOrder []) (fun e _ => Nat.zero_le e.start)
    (fun e member => absurd (mem_inFrameOrder.mp member) List.not_mem_nil) #[]
  have played : Plays s m (report.actions s []) report.fault (m.runFrames s n []).machine :=
    accounts.plays
  obtain ⟨atMost, within⟩ := frames_of_reported n.toNat 0 0 (inFrameOrder []) #[] accounts.answer
  rw [Nat.zero_add] at atMost
  have steps := count_step_actions s within
  have pacing := isPacing_actions s report
  refine ⟨report, accounts.answer, played.1, ?_⟩
  by_cases finished : report.fault = none
  · have all := frames_of_finished n.toNat 0 0 (inFrameOrder []) #[] accounts.answer finished
    rw [Nat.zero_add] at all
    exact ⟨report.actions s [], pacing, all ▸ steps, played, rfl⟩
  · have halted : (m.after s (report.actions s [])).mode = .halted :=
      halted_of_told pacing (played.2 ▸ finished)
    let left := (n.toNat - report.frames) * s.cyclesPerFrame.toNat
    refine ⟨report.actions s [] ++ List.replicate left .step, ?_, ?_, ?_, ?_⟩
    · intro a member
      obtain among | filling := List.mem_append.mp member
      · exact pacing a among
      · rw [List.eq_of_mem_replicate filling]
        trivial
    · rw [List.count_append, steps, List.count_replicate_self, ← Nat.add_mul,
        Nat.add_sub_cancel' atMost]
    · have idle := plays_of_halted s (m := (m.runFrames s n []).machine) (played.1 ▸ halted) left
      simpa using played.trans idle
    · rw [history_append, history_of_halted halted, List.append_nil]

/-- The same number of steps in all, dealt out to frames in two ways. If the delay timer is not
read, both runs of frames report the same fault or none, and the machines at their ends differ in
the timers and the redraw flag at most. -/
theorem pacing_of_run {actions : List Action} (run : Run s (initial s) actions m)
    (cycles n n' : Int) (burst : 0 ≤ s.cyclesPerFrame) (burst' : 0 ≤ cycles)
    (even : s.cyclesPerFrame * n = cycles * n') :
    let s' := { s with cyclesPerFrame := cycles }
    let first := m.runFrames s n []
    let second := m.runFrames s' n' []
    ∃ report report', first.answer = .ok report ∧ second.answer = .ok report' ∧
      first.machine = m.after s (report.actions s []) ∧
      ((∀ e ∈ m.history s (report.actions s []), ¬ e.ReadsDelay) →
        report.fault = report'.fault ∧
        ∃ timers dirty, second.machine = { first.machine with
          timers := timers
          screen := { first.machine.screen with dirty := dirty } }) := by
  intro s' first second
  have ok : m.WellFormed := run.wellFormed (wellFormed_initial s)
  obtain ⟨report, answer, machine, acts, pacing, steps, played, sameHistory⟩ :=
    ok.runFrames_filled (s := s) n
  obtain ⟨report', answer', _, acts', pacing', steps', played', _⟩ :=
    ok.runFrames_filled (s := s') n'
  refine ⟨report, report', answer, answer', machine, ?_⟩
  intro blind
  have equallyMany : acts.count .step = acts'.count .step := by
    rw [steps, steps', ← toNat_mul_of_nonneg burst, ← toNat_mul_of_nonneg burst', even]
  -- Both runs take the course of the steps alone.
  rw [← sameHistory] at blind
  have course : SameCourse s s m m acts (List.replicate (acts.count .step) .step) :=
    sameCourse_steps rfl ok ok (.refl m) pacing (.inl blind)
  rw [course.history, equallyMany] at blind
  have dialects : s'.dialect = s.dialect := rfl
  have course' : SameCourse s' s m m acts' (List.replicate (acts'.count .step) .step) :=
    sameCourse_steps dialects ok ok (.refl m) pacing' (.inr blind)
  rw [equallyMany] at course
  refine ⟨?_, ?_⟩
  · rw [played.2, played'.2, course.told, course'.told]
  · have same := course.machine.trans course'.machine.symm
    rw [← played.1, ← played'.1] at same
    exact same

/-- A program that is one jump to itself executes nothing else. -/
theorem history_of_selfJump (running : m.mode = .running) (start : m.registers.pc = 0x200)
    (jumps : m.memory.readWord 0x200 = 0x1200) {actions : List Action}
    (pacing : ∀ a ∈ actions, a.IsPacing) : ∀ e ∈ m.history s actions, e.word = 0x1200 := by
  induction actions generalizing m with
  | nil => simp [history]
  | cons a rest ih =>
    obtain ⟨isPacing, pacingRest⟩ := List.forall_mem_cons.mp pacing
    cases a with
    | step =>
      have executed : m.fetched.exec s.dialect m.nextInstruction =
          .done () (m.fetched.jump 0x200) := by
        rw [nextInstruction_eq, start, jumps]
        rfl
      have stepped : m.step s = _ := (step_of_running s running).trans (cycle_of_done executed)
      have after : (m.perform s .step).machine = m.fetched.jump 0x200 := by
        rw [machine_perform_step, stepped, Outcome.machine_done]
      intro e member
      obtain now | later := List.mem_append.mp member
      · rw [executedBy_step running (by rw [stepped, Outcome.answer_done]), start, jumps] at now
        rw [List.mem_singleton.mp now]
      · rw [after] at later
        exact ih (m := m.fetched.jump 0x200) running rfl jumps pacingRest e later
    | tick => exact ih (m := m.tick) running start jumps pacingRest
    | takeDirty => exact ih (m := m.takeDirty) running start jumps pacingRest
    | load _ | reset | setKey _ _ | frames _ _ | execute _ => exact isPacing.elim

/-- Six steps of a program that jumps to itself, as three frames and as two. -/
theorem pacing_of_run_selfJump :
    let s : Settings := { cyclesPerFrame := 2 }
    let s' : Settings := { s with cyclesPerFrame := 3 }
    let m := (initial s).after s [.load [0x12, 0x00]]
    Run s (initial s) [.load [0x12, 0x00]] m ∧ s.cyclesPerFrame * 3 = s'.cyclesPerFrame * 2 ∧
      ∃ report report', (m.runFrames s 3 []).answer = .ok report ∧
        (m.runFrames s' 2 []).answer = .ok report' ∧
        (∀ e ∈ m.history s (report.actions s []), ¬ e.ReadsDelay) ∧
        report.fault = report'.fault ∧
        SameButPacing (m.runFrames s 3 []).machine (m.runFrames s' 2 []).machine := by
  intro s s' m
  have run : Run s (initial s) [.load [0x12, 0x00]] m := Run.of_after (initial s) _
  have word : m.memory.readWord 0x200 = 0x1200 := by
    change (Memory.initial.placeProgram [0x12, 0x00] (by decide)).readWord 0x200 = _
    simp [Memory.readWord, Memory.placeProgram, Memory.read_place, Address.ofInt, programStart]
  obtain ⟨report, report', answer, answer', _, same⟩ :=
    pacing_of_run run 3 3 2 (by decide) (by decide) (by decide)
  have blind : ∀ e ∈ m.history s (report.actions s []), ¬ e.ReadsDelay := by
    rintro e member ⟨x, reads⟩
    rw [history_of_selfJump rfl rfl word (isPacing_actions s report) e member] at reads
    omega
  exact ⟨run, by decide, report, report', answer, answer', blind, same blind⟩

end Machine

end Chip8
