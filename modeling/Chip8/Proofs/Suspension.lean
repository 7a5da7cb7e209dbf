import Chip8.Proofs.FaultAtomicity
import Chip8.Proofs.Mnemonic
import Chip8.Proofs.Transcript

/-! # Machines that stand still

A machine that waits stands on the instruction that made it wait. A machine that has halted stands
behind the instruction at fault, which memory and stack still show to be at fault, and the last
fault told of names that instruction. Whatever a host does, apart from forcing words on the machine,
keeps this link between the mode, the program counter, the stack and the memory.
-/

namespace Chip8

/-- An outcome with a finished answer. -/
theorem Outcome.eq_done {α : Type} {o : Outcome α} {answer : α} (finished : o.answer = .ok answer) :
    o = .done answer o.machine o.log := by
  cases o
  cases finished
  rfl

namespace Machine

variable {s : Settings} {d : Dialect} {m : Machine} {last : Option Fault}

/-- The instruction fetched last is at fault: the fault names it, and so do the word in memory and
the stack pointer. -/
def HaltedBy (m : Machine) (fault : Fault) : Prop :=
  let word := m.memory.readWord m.fetchPc
  match fault with
  | .unknownOpcode instruction pc =>
      pc = m.fetchPc ∧ instruction = word ∧ (Instruction.ofWord word).operation? = none ∧
        (Instruction.ofWord word).mnemonic = "DW " ++ Text.hex4 word
  | .stackOverflow pc => pc = m.fetchPc ∧ word / 4096 = 2 ∧ m.registers.sp = stackDepth
  | .stackUnderflow pc => pc = m.fetchPc ∧ word = 0x00EE ∧ m.registers.sp = 0

/-- A machine that stands still shows why: it waits at the instruction that waits, or it has halted
behind the instruction at fault, and that fault is the last one told of. -/
structure Suspended (last : Option Fault) (m : Machine) : Prop where
  waits : m.mode = .awaitingKey →
    m.registers.pc = m.fetchPc ∧ ∃ x : Fin 16,
      m.waitRegister = x.val ∧ m.memory.readWord m.registers.pc = 0xF00A + 0x100 * x.val
  halts : m.mode = .halted →
    m.registers.pc = wrapAddress (m.fetchPc + 2) ∧ ∃ fault, last = some fault ∧ m.HaltedBy fault

section Mode

variable (m : Machine)

@[simp] theorem mode_jump (address : Int) : (m.jump address).mode = m.mode := rfl

@[simp] theorem mode_setRegister (x : Fin 16) (b : UInt8) : (m.setRegister x b).mode = m.mode := rfl

@[simp] theorem mode_setIndex (index : Int) : (m.setIndex index).mode = m.mode := rfl

@[simp] theorem mode_setFlag (value : Int) : (m.setFlag value).mode = m.mode := rfl

@[simp] theorem mode_storeAtIndex (bytes : List UInt8) :
    (m.storeAtIndex bytes).mode = m.mode := by
  simp only [storeAtIndex]

@[simp] theorem mode_loadFromIndex (count : Nat) : (m.loadFromIndex count).mode = m.mode := by
  simp only [loadFromIndex]

@[simp] theorem mode_skipIf (condition : Bool) : (m.skipIf condition).mode = m.mode := by
  unfold skipIf
  split <;> rfl

@[simp] theorem mode_blockEnd (x : Int) (log : List LogEntry) :
    (m.blockEnd d x log).machine.mode = m.mode := by
  unfold blockEnd passBlock
  split
  · split <;> rfl
  · rfl

@[simp] theorem mode_runAlu (f : Alu) (x y : Fin 16) : (m.runAlu d f x y).mode = m.mode := by
  unfold runAlu
  split <;> rfl

@[simp] theorem mode_runDraw (x y : Fin 16) (rows : Int) :
    (m.runDraw d x y rows).mode = m.mode := by
  rw [runDraw, mode_setFlag]

@[simp] theorem mode_runAddIndex (x : Fin 16) : (m.runAddIndex d x).mode = m.mode := by
  unfold runAddIndex
  split <;> rfl

end Mode

/-- Only a wait for a key changes the mode. -/
theorem run_mode {operation : Operation} (encodable : operation.Encodable)
    (noWait : ∀ x : Fin 16, operation ≠ .awaitKey x.val) :
    (m.run d operation).machine.mode = m.mode := by
  cases encodable <;>
    simp only [run, Registers.slot_val, assignment_val, Outcome.lookup_ok, Outcome.machine_done,
      mode_jump, mode_setRegister, mode_setIndex, mode_storeAtIndex, mode_loadFromIndex,
      mode_skipIf, mode_blockEnd, mode_runAlu, mode_runDraw, mode_runAddIndex]
  case ret => cases m.registers.pop m.fetchPc <;> rfl
  case call => split <;> rfl
  case readDelay x => cases assignment x.val m.timers.delay <;> rfl
  case awaitKey x => exact absurd rfl (noWait x)

/-- A word that finishes leaves the mode alone, unless it waits for a key. -/
theorem exec_mode {word : Int} (finished : (m.exec d (.ofWord word)).answer = .ok ())
    (noWait : ∀ x : Fin 16, word % 65536 ≠ 0xF00A + 0x100 * x.val) :
    (m.exec d (.ofWord word)).machine.mode = m.mode := by
  cases asked : (Instruction.ofWord word).operation? with
  | none =>
    rw [exec_of_undefined asked] at finished
    cases finished
  | some operation =>
    simp only [exec, asked]
    apply run_mode (Instruction.operation?_encodable asked)
    rintro x rfl
    exact noWait x ((Instruction.operation?_eq_awaitKey_iff word x).mp asked)

/-- The fault of an executed word that lies where the last instruction was fetched. -/
theorem haltedBy_of_error {fault : Fault} (ok : m.WellFormed)
    (faulted : (m.exec d (.ofWord (m.memory.readWord m.fetchPc))).answer = .error (.fault fault)) :
    m.HaltedBy fault := by
  rw [ok.answer_exec, Memory.readWord_emod] at faulted
  split_ifs at faulted with full empty undefined
  · cases faulted
    exact ⟨rfl, full⟩
  · cases faulted
    exact ⟨rfl, empty⟩
  · cases faulted
    have shown := Instruction.mnemonic_of_undefined undefined
    rw [Memory.readWord_emod] at shown
    exact ⟨rfl, rfl, undefined, shown⟩

namespace Suspended

/-- A running machine does not stand still. -/
theorem of_running (running : m.mode = .running) : Suspended last m where
  waits waiting := by rw [running] at waiting; contradiction
  halts halted := by rw [running] at halted; contradiction

theorem withPeripherals (suspended : Suspended last m) (timers : Timers) (dirty : Bool)
    (keypad : Keypad) : Suspended last (m.withPeripherals timers dirty keypad) :=
  ⟨suspended.waits, suspended.halts⟩

theorem withRandom (suspended : Suspended last m) (stream : RandomStream) :
    Suspended last { m with random := stream } :=
  ⟨suspended.waits, suspended.halts⟩

/-- A running machine that executes an instruction runs on, waits at the instruction or halts behind
it. -/
theorem cycle (ok : m.WellFormed) (running : m.mode = .running) :
    Suspended ((faultIn (fun _ => none) (m.cycle s).answer).or last) (m.cycle s).machine := by
  have executed : (m.fetched.exec s.dialect m.nextInstruction).FinishesOrFaults :=
    ok.fetched.exec_finishesOrFaults _
  obtain ⟨⟨⟩, finished⟩ | ⟨fault, faulted⟩ := executed
  · by_cases waits : ∃ x : Fin 16, m.memory.readWord m.registers.pc = 0xF00A + 0x100 * x.val
    · obtain ⟨x, awaits⟩ := waits
      rw [← step_of_running s running, (step_awaitKey s running awaits).2]
      refine ⟨fun _ => ⟨rfl, x, rfl, awaits⟩, ?_⟩
      intro halted
      contradiction
    · rw [cycle_of_done (Outcome.eq_done finished)]
      apply of_running
      refine (exec_mode finished ?_).trans running
      intro x awaits
      exact waits ⟨x, (Memory.readWord_emod _ _).symm.trans awaits⟩
  · have halted : (m.cycle s).answer = .error (.fault fault) := by
      rw [cycle_of_fault (Outcome.eq_refused faulted)]
      rfl
    have blamed : m.fetched.HaltedBy fault := haltedBy_of_error ok.fetched faulted
    rw [(cycle_of_error halted).2, halted]
    exact ⟨fun waiting => by contradiction, fun _ => ⟨rfl, fault, rfl, blamed⟩⟩

/-- A look at the keypad ends the wait or leaves the machine as it is. -/
theorem pollKey (ok : m.WellFormed) (suspended : Suspended last m) :
    Suspended ((faultIn (fun _ => none) m.pollKey.answer).or last) m.pollKey.machine := by
  obtain ⟨x, found⟩ := Registers.exists_slot ok.waitRegister.1 ok.waitRegister.2
  simp only [Machine.pollKey, found, Outcome.lookup_ok]
  split
  · exact suspended
  · exact of_running rfl

theorem step (ok : m.WellFormed) (suspended : Suspended last m) :
    Suspended ((faultIn (fun _ => none) (m.step s).answer).or last) (m.step s).machine := by
  cases mode : m.mode with
  | running =>
    rw [step_of_running s mode]
    exact cycle ok mode
  | awaitingKey =>
    rw [step_of_awaiting s mode]
    exact suspended.pollKey ok
  | halted =>
    rw [step_of_halted s mode]
    exact suspended

theorem setKey (suspended : Suspended last m) (index : Int) (pressed : Bool) :
    Suspended ((faultIn (fun _ => none) (m.setKey index pressed).answer).or last)
      (m.setKey index pressed).machine := by
  unfold Machine.setKey Keypad.setKey
  split
  · exact suspended.withPeripherals m.timers m.screen.dirty _
  · exact suspended

/-- Elementary actions keep the link, with the fault that they may tell of. -/
theorem act (ok : m.WellFormed) (suspended : Suspended last m) {a : Action}
    (elementary : a.IsElementary) :
    Suspended ((faultIn Reply.fault? (m.perform s a).answer).or last) (m.perform s a).machine := by
  cases a with
  | step =>
    simp only [Machine.perform, Outcome.map, faultIn_map]
    exact suspended.step ok
  | setKey index pressed =>
    simp only [Machine.perform, Outcome.map, faultIn_map]
    exact suspended.setKey index pressed
  | tick => exact suspended.withPeripherals m.timers.tick m.screen.dirty m.keypad
  | takeDirty => exact suspended.withPeripherals m.timers false m.keypad
  | load _ | reset | frames _ _ | execute _ => exact elementary.elim

theorem load (suspended : Suspended last m) (program : List UInt8) :
    Suspended ((faultIn (fun _ => none) (m.load s program).answer).or last)
      (m.load s program).machine := by
  by_cases fits : program.length ≤ programCapacity
  · rw [load_of_fits s m fits]
    exact of_running rfl
  · rw [load_of_tooLarge s m (Nat.lt_of_not_le fits)]
    exact suspended

theorem runFrames (ok : m.WellFormed) (suspended : Suspended last m) (count : Int)
    (schedule : List KeyEvent) :
    Suspended ((faultIn FrameReport.fault (m.runFrames s count schedule).answer).or last)
      (m.runFrames s count schedule).machine := by
  have played := (runFrames_reaches (s := s) count schedule m).preserves_told
    (fun last m => m.WellFormed ∧ Suspended last m) last ?_ ⟨ok, suspended⟩
  · exact played.2
  · rintro last m a elementary ⟨ok, suspended⟩
    exact ⟨ok.act elementary, suspended.act ok elementary⟩

/-- Every action that forces no word on the machine keeps the link. -/
theorem perform (ok : m.WellFormed) (suspended : Suspended last m) {a : Action}
    (unforced : ∀ word, a ≠ .execute word) :
    Suspended ((faultIn Reply.fault? (m.perform s a).answer).or last) (m.perform s a).machine := by
  cases a with
  | load program =>
    simp only [Machine.perform, Outcome.map, faultIn_map]
    exact suspended.load program
  | reset => exact of_running rfl
  | frames count schedule =>
    simp only [Machine.perform, Outcome.map, faultIn_map]
    exact suspended.runFrames ok count schedule
  | execute word => exact absurd rfl (unforced word)
  | step | setKey _ _ | tick | takeDirty => exact suspended.act ok trivial

end Suspended

/-- After any exchanges with a host that forces no word on the machine: a machine that waits stands
at an instruction that waits for the key of its register, and a machine that has halted stands
behind an instruction that is undefined, a call on a full stack or a return on an empty one, which
is the one that the last fault names. -/
theorem suspended_of_transcript {exchanges : List Exchange}
    (transcript : Transcript s (initial s) exchanges m)
    (unforced : ∀ e ∈ exchanges, ∀ word, e.action ≠ .execute word) :
    (m.mode = .awaitingKey →
      m.registers.pc = m.fetchPc ∧ ∃ x : Fin 16,
        m.waitRegister = x.val ∧ m.memory.readWord m.registers.pc = 0xF00A + 0x100 * x.val) ∧
    (m.mode = .halted →
      m.registers.pc = (m.fetchPc + 2) % 4096 ∧
        ∃ fault, lastFault exchanges = some fault ∧ m.HaltedBy fault) := by
  have start : (initial s).WellFormed ∧ Suspended none (initial s) :=
    ⟨wellFormed_initial s, .of_running rfl⟩
  have kept := transcript.preserves_told (fun last m => m.WellFormed ∧ Suspended last m) none
    ?_ ?_ start
  · rw [Option.or_none] at kept
    exact ⟨kept.2.waits, kept.2.halts⟩
  · rintro last m e member ⟨ok, suspended⟩
    exact ⟨ok.perform e.action, suspended.perform ok (unforced e member)⟩
  · rintro last m stream ⟨ok, suspended⟩
    exact ⟨ok.withRandom stream, suspended.withRandom stream⟩

/-- A return that finds no call open, executed by a step. -/
theorem suspended_of_transcript_return :
    let m := (initial {}).after {} [.load [0x00, 0xEE], .step]
    let exchanges := (initial {}).exchanges {} [.load [0x00, 0xEE], .step]
    Transcript {} (initial {}) exchanges m ∧ m.mode = .halted ∧
      m.registers.pc = (m.fetchPc + 2) % 4096 ∧
      ∃ fault, lastFault exchanges = some fault ∧ m.HaltedBy fault := by
  have halted : ((initial {}).after {} [.load [0x00, 0xEE], .step]).mode = .halted := by
    let loaded := ((initial {}).load {} [0x00, 0xEE]).machine
    have word : loaded.memory.readWord loaded.registers.pc = 0x00EE := by
      change ((Memory.initial.placeProgram [0x00, 0xEE] (by decide)).readWord programStart) = _
      simp [Memory.readWord, Memory.placeProgram, Memory.read_place, Address.ofInt, programStart]
    rw [after_cons, after_cons, after_nil, machine_perform_load, machine_perform_step,
      (step_ret_of_empty (m := loaded) {} rfl word rfl).2]
  intro m exchanges
  have transcript : Transcript {} (initial {}) exchanges m := .of_after (initial {}) _
  have unforced : ∀ e ∈ exchanges, ∀ word, e.action ≠ .execute word := by
    simp [exchanges, Machine.exchanges]
  obtain ⟨behind, fault, told, blamed⟩ :=
    (suspended_of_transcript transcript unforced).2 halted
  exact ⟨transcript, halted, behind, fault, told, blamed⟩

end Machine

end Chip8
