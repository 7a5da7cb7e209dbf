import Chip8.Proofs.HeadlessRun
import Chip8.Proofs.RandomDraws

/-! # Runs without random bytes

The stream of random bytes is looked at by the instructions that ask for a random byte, and by
nothing else. So a run of frames that executes none of them is the same whatever stream the machine
has, and leaves the stream as it is.
-/

namespace Chip8

def Machine.withStream (m : Machine) (stream : RandomStream) : Machine :=
  { m with random := stream }

def Outcome.withStream {α : Type} (o : Outcome α) (stream : RandomStream) : Outcome α :=
  { o with machine := o.machine.withStream stream }

/-- The turn on a machine with another stream of random bytes. -/
def Turn.withStream (t : Turn) (stream : RandomStream) : Turn :=
  { t with machine := t.machine.withStream stream }

namespace Machine

variable {s : Settings} {d : Dialect} {stream : RandomStream}

section Step

theorem skipIf_withStream (m : Machine) (condition : Bool) :
    (m.withStream stream).skipIf condition = (m.skipIf condition).withStream stream := by
  cases condition <;> rfl

theorem blockEnd_withStream (m : Machine) (x : Int) (log : List LogEntry) :
    (m.withStream stream).blockEnd d x log = (m.blockEnd d x log).withStream stream := by
  unfold blockEnd passBlock
  split
  · split <;> rfl
  · rfl

theorem runAlu_withStream (m : Machine) (f : Alu) (x y : Fin 16) :
    (m.withStream stream).runAlu d f x y = (m.runAlu d f x y).withStream stream := by
  have bytes : (m.withStream stream).registers = m.registers := rfl
  simp only [runAlu, bytes]
  obtain ⟨result, _ | flag⟩ := f.apply d (m.registers.v.get x) (m.registers.v.get y) <;> rfl

theorem runAddIndex_withStream (m : Machine) (x : Fin 16) :
    (m.withStream stream).runAddIndex d x = (m.runAddIndex d x).withStream stream := by
  unfold runAddIndex
  split <;> rfl

/-- Only a request for a random byte looks at the stream. -/
theorem run_withStream (m : Machine) {operation : Operation} (encodable : operation.Encodable)
    (noDraw : ∀ (x : Fin 16) (mask : UInt8), operation ≠ .random x.val mask.toNat) :
    (m.withStream stream).run d operation = (m.run d operation).withStream stream := by
  have registers : (m.withStream stream).registers = m.registers := rfl
  have timers : (m.withStream stream).timers = m.timers := rfl
  have fetchPc : (m.withStream stream).fetchPc = m.fetchPc := rfl
  cases encodable
  case random x mask => exact absurd rfl (noDraw x mask)
  all_goals simp only [run, Registers.slot_val, assignment_val, Outcome.lookup_ok, registers,
    timers, fetchPc]
  case ret => cases m.registers.pop m.fetchPc <;> rfl
  case call => cases m.registers.push m.registers.pc m.fetchPc <;> rfl
  case skipByte => rw [skipIf_withStream]; rfl
  case skipRegister => rw [skipIf_withStream]; rfl
  case alu => rw [runAlu_withStream]; rfl
  case skipKey => rw [skipIf_withStream]; rfl
  case addIndex => rw [runAddIndex_withStream]; rfl
  case readDelay x => cases assignment x.val m.timers.delay <;> rfl
  case storeRegisters x => exact blockEnd_withStream (m.storeAtIndex _) _ _
  case loadRegisters x => exact blockEnd_withStream (m.loadFromIndex _) _ _
  all_goals rfl

theorem exec_withStream (m : Machine) {word : Int} (noDraw : word % 65536 / 4096 ≠ 0xC) :
    (m.withStream stream).exec d (.ofWord word) =
      (m.exec d (.ofWord word)).withStream stream := by
  unfold exec
  split
  · next operation asked =>
    apply run_withStream m (Instruction.operation?_encodable asked)
    rintro x mask rfl
    have same := (Instruction.operation?_eq_random_iff word x mask).mp asked
    have boundX := x.isLt
    have boundMask := mask.toNat_lt
    omega
  · rfl

theorem pollKey_withStream (m : Machine) :
    (m.withStream stream).pollKey = m.pollKey.withStream stream := by
  have keypad : (m.withStream stream).keypad = m.keypad := rfl
  have waitRegister : (m.withStream stream).waitRegister = m.waitRegister := rfl
  simp only [pollKey, keypad, waitRegister]
  obtain ⟨_ | key, keypad⟩ := m.keypad.takeEdge
  · rfl
  · cases Registers.slot m.waitRegister <;> rfl

theorem setKey_withStream (m : Machine) (index : Int) (pressed : Bool) :
    (m.withStream stream).setKey index pressed =
      (m.setKey index pressed).withStream stream := by
  have keypad : (m.withStream stream).keypad = m.keypad := rfl
  unfold setKey
  rw [keypad]
  cases m.keypad.setKey index pressed <;> rfl

theorem cycle_withStream (m : Machine)
    (noDraw : m.memory.readWord m.registers.pc / 4096 ≠ 0xC) :
    (m.withStream stream).cycle s = (m.cycle s).withStream stream := by
  have next : (m.withStream stream).nextInstruction = m.nextInstruction := rfl
  have executed : (m.withStream stream).fetched.exec s.dialect m.nextInstruction =
      (m.fetched.exec s.dialect m.nextInstruction).withStream stream :=
    exec_withStream m.fetched ((Memory.readWord_emod _ _).symm ▸ noDraw)
  simp only [cycle, next, executed]
  have answer : ((m.fetched.exec s.dialect m.nextInstruction).withStream stream).answer =
    (m.fetched.exec s.dialect m.nextInstruction).answer := rfl
  rw [answer]
  split <;> rfl

/-- A step of a machine that does not stand before a request for a random byte. -/
theorem step_withStream (m : Machine)
    (noDraw : m.mode = .running → m.memory.readWord m.registers.pc / 4096 ≠ 0xC) :
    (m.withStream stream).step s = (m.step s).withStream stream := by
  have sameMode : (m.withStream stream).mode = m.mode := rfl
  cases mode : m.mode with
  | running =>
    rw [step_of_running s mode, step_of_running s (sameMode.trans mode)]
    exact cycle_withStream m (noDraw mode)
  | awaitingKey =>
    rw [step_of_awaiting s mode, step_of_awaiting s (sameMode.trans mode)]
    exact pollKey_withStream m
  | halted =>
    rw [step_of_halted s mode, step_of_halted s (sameMode.trans mode)]
    rfl

end Step

/-- A running machine that stands before a request for a random byte draws one. -/
theorem draws_of_request {m : Machine} (running : m.mode = .running)
    (request : m.memory.readWord m.registers.pc / 4096 = 0xC) : Turn.draws s ⟨m, .step⟩ = true := by
  have family : m.memory.readWord m.registers.pc % 65536 / 4096 = 0xC := by
    rw [Memory.readWord_emod, request]
  obtain ⟨x, mask, asked⟩ := Instruction.exists_random _ family
  have finished : (m.fetched.exec s.dialect m.nextInstruction).answer = .ok () := by
    rw [nextInstruction_eq, exec, asked]
    simp only [run, Registers.slot_val, Outcome.lookup_ok, Outcome.answer_done]
  obtain ⟨event, stepped⟩ : ∃ event, (m.step s).answer = .ok event := by
    rw [step_of_running s running, cycle_of_done (Outcome.eq_done finished)]
    exact ⟨_, rfl⟩
  rw [Turn.draws, Turn.word?]
  simp only [executedBy_step running stepped, List.head?_cons, Option.map_some, request]
  rfl

variable {m : Machine} {plan : List Action}

/-- A turn without a request for a random byte does not see the stream. -/
theorem perform_withStream (stream : RandomStream) {a : Action} (elementary : a.IsElementary)
    (noDraw : Turn.draws s ⟨m, a⟩ = false) :
    (m.withStream stream).perform s a = (m.perform s a).withStream stream := by
  cases a with
  | step =>
    have stepped : (m.withStream stream).step s = (m.step s).withStream stream := by
      refine step_withStream m fun running request => ?_
      rw [draws_of_request running request] at noDraw
      cases noDraw
    rw [perform, stepped]
    rfl
  | setKey index pressed =>
    rw [perform, setKey_withStream]
    rfl
  | tick | takeDirty => rfl
  | load _ | reset | frames _ _ | execute _ => exact elementary.elim

/-- A plan without requests for random bytes goes the same way with every stream. -/
theorem plan_withStream (stream : RandomStream) (elementary : ∀ a ∈ plan, a.IsElementary)
    (noDraw : ∀ t ∈ m.tape s (m.performed s plan), t.draws s = false) :
    (m.withStream stream).performed s plan = m.performed s plan ∧
      (m.withStream stream).obstacle s plan = m.obstacle s plan ∧
      (m.withStream stream).tape s (m.performed s plan) =
        (m.tape s (m.performed s plan)).map (·.withStream stream) ∧
      (m.withStream stream).after s (m.performed s plan) =
        (m.after s (m.performed s plan)).withStream stream := by
  induction plan generalizing m with
  | nil => exact ⟨rfl, rfl, rfl, rfl⟩
  | cons a rest ih =>
    obtain ⟨isElementary, others⟩ := List.forall_mem_cons.mp elementary
    have noDrawNow : Turn.draws s ⟨m, a⟩ = false := noDraw _ (List.mem_cons_self ..)
    have outcome := perform_withStream stream isElementary noDrawNow
    have answer : ((m.withStream stream).perform s a).answer = (m.perform s a).answer := by
      rw [outcome]
      rfl
    have machine : ((m.withStream stream).perform s a).machine =
        (m.perform s a).machine.withStream stream := congrArg Outcome.machine outcome
    cases reply : (m.perform s a).answer with
    | ok reply =>
      simp only [performed, reply, tape, List.forall_mem_cons] at noDraw
      obtain ⟨samePerformed, sameObstacle, sameTape, sameAfter⟩ := ih others noDraw.2
      simp only [performed, obstacle, answer, reply, machine, samePerformed, sameObstacle, tape,
        sameTape, after_cons, sameAfter, List.map_cons, and_true, true_and]
      rfl
    | error reason =>
      simp only [performed, obstacle, answer, reply, tape, after_cons, after_nil, machine,
        List.map_cons, List.map_nil, and_true, true_and]
      rfl

/-- The looks at the redraw flag do not see the stream. -/
theorem frameAnswer_withStream (tape : List Turn) (frame renders : Nat) :
    frameAnswer frame renders (tape.map (·.withStream stream)) =
      frameAnswer frame renders tape := by
  have looks : (tape.map (·.withStream stream)).countP Turn.looks = tape.countP Turn.looks :=
    List.countP_map
  have finds : (tape.map (·.withStream stream)).countP Turn.findsDirty =
      tape.countP Turn.findsDirty := List.countP_map
  funext obstacle
  cases obstacle with
  | none => simp only [frameAnswer, looks, finds]
  | some reason => cases reason <;> simp only [frameAnswer, looks, finds]

variable {count : Int} {schedule : List KeyEvent}

/-- Frames without requests for random bytes end the same way with every stream. -/
theorem runFrames_withStream (stream : RandomStream)
    (noDraw : ∀ t ∈ m.tape s (m.performed s (framePlan s count schedule)), t.draws s = false) :
    ((m.withStream stream).runFrames s count schedule).answer =
        (m.runFrames s count schedule).answer ∧
      ((m.withStream stream).runFrames s count schedule).machine =
        (m.runFrames s count schedule).machine.withStream stream := by
  have enacted := runFrames_enacts s m count schedule
  have enactedThen := runFrames_enacts s (m.withStream stream) count schedule
  obtain ⟨performed, obstacle, tape, after⟩ := plan_withStream stream
    (fun _ => isElementary_of_mem_framePlan) noDraw
  rw [enactedThen.answer, enactedThen.machine, performed, obstacle, tape, after,
    frameAnswer_withStream, enacted.answer, enacted.machine]
  exact ⟨rfl, rfl⟩

/-- A report on frames without requests for random bytes is the same with every stream. -/
theorem reportFrames_withStream (stream : RandomStream) (log log' : List LogEntry)
    (noDraw : ∀ t ∈ m.tape s (m.performed s (framePlan s count schedule)), t.draws s = false) :
    ((m.withStream stream).reportFrames s count schedule log').answer =
      (m.reportFrames s count schedule log).answer := by
  obtain ⟨answer, machine⟩ := runFrames_withStream stream noDraw
  simp only [reportFrames, answer, machine]
  split <;> rfl

/-- A run has one outcome: there is a seed, or it executes no request for a random byte. -/
def IsDetermined (s : Settings) (stream : RandomStream) (program : List UInt8)
    (schedule : List KeyEvent) (count : Int) : Prop :=
  s.seed ≠ none ∨ ∀ fits : program.length ≤ programCapacity,
    let start := programmed s stream program fits
    ∀ t ∈ start.tape s (start.performed s (framePlan s count schedule)), t.draws s = false

/-- A run with one outcome has that of the run with the seed, whatever its stream. -/
theorem answer_of_isDetermined {program : List UInt8} {frames : Option Int}
    (fits : program.length ≤ programCapacity)
    (ofSeed : s.seed ≠ none → stream = .ofSeed s.seed)
    (determined : IsDetermined s stream program schedule (frames.getD s.frameLimit)) :
    (runFrom s stream program schedule frames).answer =
      (runProgram s program schedule frames).answer := by
  obtain seeded | noDraw := determined
  · rw [ofSeed seeded, runProgram_eq_runFrom]
  · rw [runProgram_of_fits s fits, runFrom_of_fits s stream fits]
    exact (reportFrames_withStream (.ofSeed s.seed) _ _ (noDraw fits)).symm

end Machine

end Chip8
