import Chip8.Proofs.Step

/-! # Faults change nothing

An instruction that is refused leaves the machine as it was, so a step that faults only fetches and
halts. A halted machine stays where it is until it is reset or given a program: what a host can
still do moves timers, keys and the redraw flag.
-/

namespace Chip8

/-- An outcome with a refusal for its answer. -/
theorem Outcome.eq_refused {α : Type} {o : Outcome α} {reason : Refusal}
    (failed : o.answer = .error reason) : o = .refused reason o.machine o.log := by
  cases o
  cases failed
  rfl

/-- A register is refused for its number, never for a fault. -/
theorem Registers.slot_ne_fault {x : Int} {fault : Fault} : slot x ≠ .error (.fault fault) := by
  intro refused
  simp only [slot, position] at refused
  split_ifs at refused <;> cases refused

/-- An action that a halted machine stays halted under: all but a reset, a program that fits and the
execution of a word that was not fetched. -/
def Action.LeavesHalted : Action → Prop
  | .load program => programCapacity < program.length
  | .reset | .execute _ => False
  | .step | .setKey _ _ | .tick | .takeDirty | .frames _ _ => True

namespace Machine

variable {s : Settings} {d : Dialect} {m m' : Machine} {fault : Fault}

/-- An encodable operation that is refused has changed nothing. -/
theorem run_of_error {operation : Operation} (encodable : operation.Encodable) {reason : Refusal}
    (failed : (m.run d operation).answer = .error reason) : (m.run d operation).machine = m := by
  cases encodable <;>
    simp only [run, Registers.slot_val, assignment_val, Outcome.lookup_ok, Outcome.answer_done,
      reduceCtorEq] at failed ⊢
  case ret =>
    cases popped : m.registers.pop m.fetchPc with
    | ok found => rw [popped] at failed; cases failed
    | error reason => rfl
  case call target =>
    split at failed
    · rfl
    · cases failed
  case readDelay x =>
    cases found : assignment x.val m.timers.delay with
    | ok target => rw [found] at failed; cases failed
    | error reason => rfl
  case storeRegisters x =>
    rw [blockEnd, if_pos (by have := x.isLt; omega)] at failed
    cases failed
  case loadRegisters x =>
    rw [blockEnd, if_pos (by have := x.isLt; omega)] at failed
    cases failed

/-- A word that is refused has changed nothing. -/
theorem exec_of_error {word : Int} {reason : Refusal}
    (failed : (m.exec d (.ofWord word)).answer = .error reason) :
    (m.exec d (.ofWord word)).machine = m := by
  cases asked : (Instruction.ofWord word).operation? with
  | none => rw [exec_of_undefined asked, Outcome.machine_refused]
  | some operation =>
    simp only [exec, asked] at failed ⊢
    exact run_of_error (Instruction.operation?_encodable asked) failed

/-- A cycle faults because of the instruction that it fetched, and has only fetched and halted. -/
theorem cycle_of_error (faulted : (m.cycle s).answer = .error (.fault fault)) :
    (m.fetched.exec s.dialect m.nextInstruction).answer = .error (.fault fault) ∧
      (m.cycle s).machine = { m.fetched with mode := .halted } := by
  have executed : (m.fetched.exec s.dialect m.nextInstruction).answer = .error (.fault fault) := by
    simp only [cycle] at faulted
    split at faulted
    · cases faulted
    · next raised =>
      cases faulted
      exact raised
    · next noFault _ =>
      cases faulted
      exact absurd rfl (noFault fault)
  have unchanged : (m.fetched.exec s.dialect m.nextInstruction).machine = m.fetched :=
    exec_of_error executed
  refine ⟨executed, ?_⟩
  rw [cycle_of_fault (Outcome.eq_refused executed), unchanged, Outcome.machine_refused]

/-- A look at the keypad may miss its register, but raises no fault. -/
theorem pollKey_ne_fault : m.pollKey.answer ≠ .error (.fault fault) := by
  intro faulted
  unfold pollKey at faulted
  split at faulted
  · cases faulted
  · cases found : Registers.slot m.waitRegister with
    | ok x => rw [found] at faulted; cases faulted
    | error reason =>
      rw [found] at faulted
      cases faulted
      exact Registers.slot_ne_fault found

/-- A step that faults found the machine running, and has only fetched and halted. -/
theorem step_of_error (faulted : (m.step s).answer = .error (.fault fault)) :
    (m.fetched.exec s.dialect m.nextInstruction).answer = .error (.fault fault) ∧
      (m.step s).machine = { m.fetched with mode := .halted } := by
  cases mode : m.mode with
  | running =>
    rw [step_of_running s mode] at faulted ⊢
    exact cycle_of_error faulted
  | awaitingKey =>
    rw [step_of_awaiting s mode] at faulted
    exact absurd faulted pollKey_ne_fault
  | halted =>
    rw [step_of_halted s mode] at faulted
    cases faulted

/-- The machine with other timers, another redraw flag and another keypad. -/
def withPeripherals (m : Machine) (timers : Timers) (dirty : Bool) (keypad : Keypad) : Machine :=
  { m with
    timers := timers
    screen := { m.screen with dirty := dirty }
    keypad := keypad }

/-- The machines differ at most in the timers, the redraw flag and the keypad. -/
def SameButPeripherals (m m' : Machine) : Prop :=
  ∃ timers dirty keypad, m' = m.withPeripherals timers dirty keypad

namespace SameButPeripherals

theorem refl (m : Machine) : SameButPeripherals m m := ⟨m.timers, m.screen.dirty, m.keypad, rfl⟩

/-- Elementary actions on a halted machine move peripherals only. -/
theorem act (same : SameButPeripherals m m') (halted : m.mode = .halted) {a : Action}
    (elementary : a.IsElementary) : SameButPeripherals m (m'.perform s a).machine := by
  obtain ⟨timers, dirty, keypad, rfl⟩ := same
  cases a with
  | step =>
    have stopped : (m.withPeripherals timers dirty keypad).step s = .done .halted _ :=
      step_of_halted s halted
    simp only [perform, stopped]
    exact ⟨timers, dirty, keypad, rfl⟩
  | setKey index pressed =>
    simp only [perform, setKey]
    cases (m.withPeripherals timers dirty keypad).keypad.setKey index pressed with
    | ok moved => exact ⟨timers, dirty, moved, rfl⟩
    | error reason => exact ⟨timers, dirty, keypad, rfl⟩
  | tick => exact ⟨timers.tick, dirty, keypad, rfl⟩
  | takeDirty => exact ⟨timers, false, keypad, rfl⟩
  | load _ | reset | frames _ _ | execute _ => exact elementary.elim

theorem perform (same : SameButPeripherals m m') (halted : m.mode = .halted) {a : Action}
    (leaves : a.LeavesHalted) : SameButPeripherals m (m'.perform s a).machine := by
  cases a with
  | load program =>
    simp only [Machine.perform, load_of_tooLarge s m' leaves]
    exact same
  | frames count schedule =>
    exact (runFrames_reaches count schedule m').preserves
      (fun _ _ elementary same => same.act halted elementary) same
  | step | setKey _ _ | tick | takeDirty => exact same.act halted trivial
  | reset | execute _ => exact leaves.elim

end SameButPeripherals

/-- What a host does to a halted machine, short of restarting it or forcing a word on it, moves
peripherals only. -/
theorem after_of_halted (halted : m.mode = .halted) {actions : List Action}
    (leaves : ∀ a ∈ actions, a.LeavesHalted) : SameButPeripherals m (m.after s actions) :=
  after_preserves (fun _ a member same => same.perform halted (leaves a member)) (.refl m)

/-- On any machine, a word that faults changes nothing at all. A step that faults moves on past the
instruction, notes where it was fetched and halts, no more. From then on nothing but peripherals
moves and every step reports the halt, until a reset or a program that fits. -/
theorem unchanged_of_fault (m : Machine) :
    (∀ (word : Int) (fault : Fault),
      (m.exec s.dialect (.ofWord word)).answer = .error (.fault fault) →
        (m.exec s.dialect (.ofWord word)).machine = m) ∧
    (∀ fault : Fault, (m.step s).answer = .error (.fault fault) →
      (m.step s).machine = { m with
        fetchPc := m.registers.pc
        registers := { m.registers with pc := (m.registers.pc + 2) % 4096 }
        mode := .halted }) ∧
    (m.mode = .halted → ∀ actions : List Action, (∀ a ∈ actions, a.LeavesHalted) →
      let later := m.after s actions
      (∃ timers dirty keypad, later = { m with
        timers := timers
        screen := { m.screen with dirty := dirty }
        keypad := keypad }) ∧
      later.step s = .done .halted later) := by
  refine ⟨fun word fault => exec_of_error, ?_, ?_⟩
  · intro fault faulted
    exact (step_of_error faulted).2
  · intro halted actions leaves later
    obtain ⟨timers, dirty, keypad, same⟩ : SameButPeripherals m later :=
      after_of_halted halted leaves
    refine ⟨⟨timers, dirty, keypad, same⟩, step_of_halted s ?_⟩
    rw [same]
    exact halted

/-- An undefined word, a return without a call, and a halted machine with frames to play. -/
theorem unchanged_of_fault_return :
    let m := ((initial {}).load {} [0x00, 0xEE]).machine
    let halted := { m with mode := .halted }
    let actions := [.frames 2 [⟨1, 3, true⟩], .tick, .step]
    (m.exec {} (.ofWord 0x5001)).answer = .error (.fault (.unknownOpcode 0x5001 0x200)) ∧
      (m.exec {} (.ofWord 0x5001)).machine = m ∧
      (m.step {}).answer = .error (.fault (.stackUnderflow 0x200)) ∧
      (m.step {}).machine.registers.pc = 0x202 ∧
      ((halted.after {} actions).step {}).answer = .ok .halted := by
  intro m halted actions
  obtain ⟨undefined, stepped, _⟩ := unchanged_of_fault (s := {}) m
  obtain ⟨_, _, frozen⟩ := unchanged_of_fault (s := {}) halted
  have faulted : (m.exec {} (.ofWord 0x5001)).answer =
      .error (.fault (.unknownOpcode 0x5001 0x200)) := rfl
  have word : m.memory.readWord m.registers.pc = 0x00EE := by
    change ((Memory.initial.placeProgram [0x00, 0xEE] (by decide)).readWord programStart) = _
    simp [Memory.readWord, Memory.placeProgram, Memory.read_place, Address.ofInt, programStart]
  have underflow := (step_ret_of_empty (m := m) {} rfl word rfl).1
  have leaves : ∀ a ∈ actions, a.LeavesHalted := by
    simp [actions, Action.LeavesHalted]
  refine ⟨faulted, undefined 0x5001 _ faulted, underflow, ?_, ?_⟩
  · rw [stepped _ underflow]
    rfl
  · rw [(frozen rfl actions leaves).2]
    rfl

end Machine

end Chip8
