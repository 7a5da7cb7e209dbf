import Chip8.Proofs.WellFormed
import Mathlib.Tactic.SplitIfs

/-! # Only faults stop a program

On a well-formed machine an executed word finishes or raises one of the three faults: registers are
found, bytes fit and the slot that a return reads exists. Which of them happens is a question about
the word and the stack pointer alone.
-/

namespace Chip8

/-- An action finishes, or a fault of the program stops it. -/
def Outcome.FinishesOrFaults {α : Type} (o : Outcome α) : Prop :=
  (∃ answer, o.answer = .ok answer) ∨ ∃ fault, o.answer = .error (.fault fault)

namespace Machine

variable {s : Settings} {d : Dialect} {m : Machine} {word : Int}

/-- A return while no call is open faults before anything changes. -/
theorem exec_ret_of_empty (returns : word % 65536 = 0x00EE) (empty : m.registers.sp = 0) :
    m.exec d (.ofWord word) = .refused (.fault (.stackUnderflow m.fetchPc)) m := by
  simp only [exec, (Instruction.operation?_eq_ret_iff word).mpr returns, run, Registers.pop, empty,
    Outcome.lookup_error]

/-- A return takes the topmost slot and goes to the address in it. -/
theorem exec_ret_of_open {depth : Nat} (returns : word % 65536 = 0x00EE)
    (isOpen : m.registers.sp = depth + 1) (inside : depth < stackDepth) :
    m.exec d (.ofWord word) = .done () { m with
      registers := { m.registers with
        sp := depth
        pc := m.registers.stack.get ⟨depth, inside⟩ } } := by
  simp only [exec, (Instruction.operation?_eq_ret_iff word).mpr returns, run, Registers.pop, isOpen,
    dif_pos inside, Outcome.lookup_ok, jump]

/-- A return to a slot that does not exist is refused before anything changes. -/
theorem exec_ret_of_beyond {depth : Nat} (returns : word % 65536 = 0x00EE)
    (isOpen : m.registers.sp = depth + 1) (beyond : ¬ depth < stackDepth) :
    m.exec d (.ofWord word) = .refused .noSuchSlot m := by
  simp only [exec, (Instruction.operation?_eq_ret_iff word).mpr returns, run, Registers.pop, isOpen,
    dif_neg beyond, Outcome.lookup_error]

/-- A call without a free slot faults before anything changes. -/
theorem exec_call_of_full (calls : word % 65536 / 4096 = 2) (full : stackDepth ≤ m.registers.sp) :
    m.exec d (.ofWord word) = .refused (.fault (.stackOverflow m.fetchPc)) m := by
  have asked := (Instruction.operation?_eq_call_iff word _).mpr ⟨calls, rfl⟩
  simp only [exec, asked, run, Registers.push, dif_neg (Nat.not_lt_of_le full)]

/-- A call puts the program counter into the first free slot and goes to its target. -/
theorem exec_call_of_free (calls : word % 65536 / 4096 = 2) (free : m.registers.sp < stackDepth) :
    m.exec d (.ofWord word) = .done () { m with
      registers := { m.registers with
        stack := m.registers.stack.set m.registers.sp (wrapAddress m.registers.pc) free
        sp := m.registers.sp + 1
        pc := word % 4096 } } := by
  have asked := (Instruction.operation?_eq_call_iff word _).mpr ⟨calls, rfl⟩
  simp only [exec, asked, run, Registers.push, dif_pos free, jump]

/-- A word without an operation faults before anything changes. -/
theorem exec_of_undefined (undefined : (Instruction.ofWord word).operation? = none) :
    m.exec d (.ofWord word) =
      .refused (.fault (.unknownOpcode (word % 65536) m.fetchPc)) m := by
  simp only [exec, undefined]
  rfl

/-- Every encodable operation but calls and returns finishes. -/
theorem WellFormed.answer_run {operation : Operation} (ok : m.WellFormed)
    (encodable : operation.Encodable) (noReturn : operation ≠ .ret)
    (noCall : ∀ target, operation ≠ .call target) : (m.run d operation).answer = .ok () := by
  cases encodable <;>
    simp only [Machine.run, Registers.slot_val, assignment_val, Outcome.lookup_ok,
      Outcome.answer_done]
  case ret => contradiction
  case call target => exact absurd rfl (noCall target.val)
  case readDelay x =>
    obtain ⟨b, same⟩ := ok.timers.delay.exists_toNat
    rw [same, assignment_val]
    rfl
  case storeRegisters x =>
    rw [Machine.blockEnd, if_pos (by have := x.isLt; omega)]
    rfl
  case loadRegisters x =>
    rw [Machine.blockEnd, if_pos (by have := x.isLt; omega)]
    rfl

/-- The answer to the execution of a word, in full. -/
theorem WellFormed.answer_exec (ok : m.WellFormed) (word : Int) :
    (m.exec d (.ofWord word)).answer =
      if word % 65536 / 4096 = 2 ∧ m.registers.sp = stackDepth then
        .error (.fault (.stackOverflow m.fetchPc))
      else if word % 65536 = 0x00EE ∧ m.registers.sp = 0 then
        .error (.fault (.stackUnderflow m.fetchPc))
      else if (Instruction.ofWord word).operation? = none then
        .error (.fault (.unknownOpcode (word % 65536) m.fetchPc))
      else .ok () := by
  have bound := ok.registers.sp
  split_ifs with full empty undefined
  · rw [exec_call_of_full full.1 (by omega)]
    rfl
  · rw [exec_ret_of_empty empty.1 empty.2]
    rfl
  · rw [exec_of_undefined undefined]
    rfl
  · obtain ⟨operation, asked⟩ := Option.ne_none_iff_exists'.mp undefined
    by_cases returns : word % 65536 = 0x00EE
    · obtain ⟨depth, isOpen⟩ : ∃ depth, m.registers.sp = depth + 1 :=
        Nat.exists_eq_succ_of_ne_zero fun zero => empty ⟨returns, zero⟩
      rw [exec_ret_of_open returns isOpen (by omega)]
      rfl
    by_cases calls : word % 65536 / 4096 = 2
    · rw [exec_call_of_free calls (by omega)]
      rfl
    · simp only [Machine.exec, asked]
      apply ok.answer_run (Instruction.operation?_encodable asked)
      · rintro rfl
        exact returns ((Instruction.operation?_eq_ret_iff word).mp asked)
      · rintro target rfl
        exact calls ((Instruction.operation?_eq_call_iff word target).mp asked).1

/-- The answers of an executed word are an end or a fault. -/
theorem WellFormed.exec_finishesOrFaults (ok : m.WellFormed) (word : Int) :
    (m.exec d (.ofWord word)).FinishesOrFaults := by
  unfold Outcome.FinishesOrFaults
  rw [ok.answer_exec word]
  split_ifs
  · exact .inr ⟨_, rfl⟩
  · exact .inr ⟨_, rfl⟩
  · exact .inr ⟨_, rfl⟩
  · exact .inl ⟨_, rfl⟩

theorem WellFormed.cycle_finishesOrFaults (ok : m.WellFormed) : (m.cycle s).FinishesOrFaults := by
  have executed : (m.fetched.exec s.dialect m.nextInstruction).FinishesOrFaults :=
    ok.fetched.exec_finishesOrFaults _
  obtain ⟨answer, finished⟩ | ⟨fault, faulted⟩ := executed
  · simp only [Machine.cycle, finished]
    exact .inl ⟨_, rfl⟩
  · simp only [Machine.cycle, faulted]
    exact .inr ⟨_, rfl⟩

theorem WellFormed.pollKey_finishesOrFaults (ok : m.WellFormed) : m.pollKey.FinishesOrFaults := by
  obtain ⟨x, found⟩ := Registers.exists_slot ok.waitRegister.1 ok.waitRegister.2
  simp only [Machine.pollKey, found, Outcome.lookup_ok]
  split
  · exact .inl ⟨_, rfl⟩
  · exact .inl ⟨_, rfl⟩

theorem WellFormed.step_finishesOrFaults (ok : m.WellFormed) : (m.step s).FinishesOrFaults := by
  unfold Machine.step
  split
  · exact ok.cycle_finishesOrFaults
  · exact ok.pollKey_finishesOrFaults
  · exact .inl ⟨_, rfl⟩

/-- The stack overflows exactly at a call with all slots in use. -/
theorem WellFormed.overflows_iff (ok : m.WellFormed) (word : Int) :
    (∃ pc, (m.exec d (.ofWord word)).answer = .error (.fault (.stackOverflow pc))) ↔
      word % 65536 / 4096 = 2 ∧ m.registers.sp = stackDepth := by
  rw [ok.answer_exec word]
  constructor
  · rintro ⟨pc, raised⟩
    split_ifs at raised with full
    · exact full
    all_goals cases raised
  · intro full
    exact ⟨m.fetchPc, if_pos full⟩

/-- The stack underflows exactly at a return with no slot in use. -/
theorem WellFormed.underflows_iff (ok : m.WellFormed) (word : Int) :
    (∃ pc, (m.exec d (.ofWord word)).answer = .error (.fault (.stackUnderflow pc))) ↔
      word % 65536 = 0x00EE ∧ m.registers.sp = 0 := by
  rw [ok.answer_exec word]
  constructor
  · rintro ⟨pc, raised⟩
    split_ifs at raised with _ empty
    · cases raised
    · exact empty
    all_goals cases raised
  · intro empty
    exact ⟨m.fetchPc, (if_neg (by omega)).trans (if_pos empty)⟩

/-- On every machine that a host can bring about, a step and the execution of any word finish or
fault, calls overflow and returns underflow exactly when they should, and the stack pointer never
leaves the slots. -/
theorem finishesOrFaults_of_run {actions : List Action} (run : Run s (initial s) actions m) :
    (m.step s).FinishesOrFaults ∧
      (∀ word : Int,
        (m.exec s.dialect (.ofWord word)).FinishesOrFaults ∧
        ((∃ pc, (m.exec s.dialect (.ofWord word)).answer = .error (.fault (.stackOverflow pc))) ↔
          word % 65536 / 4096 = 2 ∧ m.registers.sp = stackDepth) ∧
        ((∃ pc, (m.exec s.dialect (.ofWord word)).answer = .error (.fault (.stackUnderflow pc))) ↔
          word % 65536 = 0x00EE ∧ m.registers.sp = 0)) ∧
      m.registers.sp ≤ stackDepth := by
  have ok : m.WellFormed := run.wellFormed (wellFormed_initial s)
  refine ⟨ok.step_finishesOrFaults, ?_, ok.registers.sp⟩
  intro word
  exact ⟨ok.exec_finishesOrFaults word, ok.overflows_iff word, ok.underflows_iff word⟩

/-- Seventeen nested calls of one address, the last of which is still to come. -/
theorem finishesOrFaults_of_run_nested :
    let actions := Action.load [0x22, 0x00] :: List.replicate 16 .step
    Run {} (initial {}) actions ((initial {}).after {} actions) ∧
      (((initial {}).after {} actions).step {}).FinishesOrFaults := by
  intro actions
  have run := Run.of_after (s := {}) (initial {}) actions
  exact ⟨run, (finishesOrFaults_of_run run).1⟩

end Machine

end Chip8
