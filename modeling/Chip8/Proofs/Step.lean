import Chip8.Proofs.Faults

/-! # Single steps

What a step does to a machine in each of its modes, said by the word at the program counter: how
the outcome of the execution becomes the outcome of the step, and the steps at calls and returns
and around a wait for a key in full.
-/

namespace Chip8

/-- A word has sixteen bits. -/
theorem Memory.readWord_emod (m : Memory) (a : Int) : m.readWord a % 65536 = m.readWord a := by
  have high := (m.read a).toNat_lt
  have low := (m.read (a + 1)).toNat_lt
  unfold Memory.readWord
  omega

namespace Machine

variable {s : Settings} {m : Machine}

theorem nextInstruction_eq (m : Machine) :
    m.nextInstruction = .ofWord (m.memory.readWord m.registers.pc) := rfl

theorem step_of_running (s : Settings) (running : m.mode = .running) : m.step s = m.cycle s := by
  simp only [step, running]

theorem step_of_awaiting (s : Settings) (awaiting : m.mode = .awaitingKey) :
    m.step s = m.pollKey := by
  simp only [step, awaiting]

theorem step_of_halted (s : Settings) (halted : m.mode = .halted) : m.step s = .done .halted m := by
  simp only [step, halted]

/-- A finished execution finishes the step. -/
theorem cycle_of_done {m' : Machine} {log : List LogEntry}
    (executed : m.fetched.exec s.dialect m.nextInstruction = .done () m' log) :
    m.cycle s = .done m'.eventAfter m'
      (trace s .fetch m.nextInstruction m ++ log ++ trace s .execution m.nextInstruction m') := by
  simp only [cycle, executed]
  rfl

/-- A fault halts the machine. -/
theorem cycle_of_fault {m' : Machine} {fault : Fault} {log : List LogEntry}
    (executed : m.fetched.exec s.dialect m.nextInstruction = .refused (.fault fault) m' log) :
    m.cycle s = .refused (.fault fault) { m' with mode := .halted }
      (trace s .fetch m.nextInstruction m ++ log ++ [.faulted m'.fetchPc fault]) := by
  simp only [cycle, executed]
  rfl

/-- A step runs the operation that the word at the program counter asks for. -/
theorem step_of_operation (s : Settings) (operation : Operation) {m' : Machine}
    (running : m.mode = .running)
    (asked : (Instruction.ofWord (m.memory.readWord m.registers.pc)).operation? = some operation)
    (ran : m.fetched.run s.dialect operation = .done () m') (goesOn : m'.mode = .running) :
    (m.step s).answer = .ok .continued ∧ (m.step s).machine = m' := by
  have executed : m.fetched.exec s.dialect m.nextInstruction = .done () m' := by
    rw [nextInstruction_eq, exec, asked]
    exact ran
  rw [step_of_running s running, cycle_of_done executed]
  refine ⟨?_, rfl⟩
  simp only [Outcome.answer_done, eventAfter, goesOn, reduceCtorEq, ↓reduceIte]

/-- After the execution a step changes the mode at most. -/
theorem cycle_registers (s : Settings) (m : Machine) :
    (m.cycle s).machine.registers =
      (m.fetched.exec s.dialect m.nextInstruction).machine.registers := by
  simp only [cycle]
  split <;> rfl

/-- A return while no call is open halts the machine behind it. -/
theorem step_ret_of_empty (s : Settings) (running : m.mode = .running)
    (returns : m.memory.readWord m.registers.pc = 0x00EE) (empty : m.registers.sp = 0) :
    (m.step s).answer = .error (.fault (.stackUnderflow m.registers.pc)) ∧
      (m.step s).machine = { m.fetched with mode := .halted } := by
  have executed : m.fetched.exec s.dialect m.nextInstruction = _ :=
    exec_ret_of_empty ((Memory.readWord_emod _ _).trans returns) empty
  rw [step_of_running s running, cycle_of_fault executed]
  exact ⟨rfl, rfl⟩

/-- A return goes to the address in the topmost slot and frees the slot. -/
theorem step_ret_of_open (s : Settings) {depth : Nat} (running : m.mode = .running)
    (returns : m.memory.readWord m.registers.pc = 0x00EE) (isOpen : m.registers.sp = depth + 1)
    (inside : depth < stackDepth) :
    (m.step s).answer = .ok .continued ∧
      (m.step s).machine = { m.fetched with
        registers := { m.registers with
          sp := depth
          pc := m.registers.stack.get ⟨depth, inside⟩ } } := by
  have executed : m.fetched.exec s.dialect m.nextInstruction = _ :=
    exec_ret_of_open (m := m.fetched) ((Memory.readWord_emod _ _).trans returns) isOpen inside
  rw [step_of_running s running, cycle_of_done executed]
  refine ⟨?_, rfl⟩
  simp only [Outcome.answer_done, eventAfter, fetched, running, reduceCtorEq, ↓reduceIte]

/-- A call without a free slot halts the machine behind it. -/
theorem step_call_of_full (s : Settings) (running : m.mode = .running)
    (calls : m.memory.readWord m.registers.pc / 4096 = 2) (full : stackDepth ≤ m.registers.sp) :
    (m.step s).answer = .error (.fault (.stackOverflow m.registers.pc)) ∧
      (m.step s).machine = { m.fetched with mode := .halted } := by
  have executed : m.fetched.exec s.dialect m.nextInstruction = _ :=
    exec_call_of_full (by rw [Memory.readWord_emod]; exact calls) full
  rw [step_of_running s running, cycle_of_fault executed]
  exact ⟨rfl, rfl⟩

/-- A call puts the address behind it into the first free slot and goes to its target. -/
theorem step_call_of_free (s : Settings) (running : m.mode = .running)
    (calls : m.memory.readWord m.registers.pc / 4096 = 2) (free : m.registers.sp < stackDepth) :
    (m.step s).answer = .ok .continued ∧
      (m.step s).machine = { m.fetched with
        registers := { m.registers with
          stack := m.registers.stack.set m.registers.sp (wrapAddress (m.registers.pc + 2)) free
          sp := m.registers.sp + 1
          pc := m.memory.readWord m.registers.pc % 4096 } } := by
  have executed : m.fetched.exec s.dialect m.nextInstruction = _ :=
    exec_call_of_free (m := m.fetched) (by rw [Memory.readWord_emod]; exact calls) free
  rw [step_of_running s running, cycle_of_done executed]
  refine ⟨?_, ?_⟩
  · simp only [Outcome.answer_done, eventAfter, fetched, running, reduceCtorEq, ↓reduceIte]
  · simp only [Outcome.machine_done, fetched, Registers.advance, wrapAddress_wrapAddress]

theorem exec_awaitKey {d : Dialect} {word : Int} {x : Fin 16}
    (awaits : word % 65536 = 0xF00A + 0x100 * x.val) :
    m.exec d (.ofWord word) = .done () (m.runAwaitKey x.val) [.keyAwaited x.val m.fetchPc] := by
  simp only [exec, (Instruction.operation?_eq_awaitKey_iff word x).mpr awaits, run]

/-- A wait for a key parks the machine where it is and empties the latch. -/
theorem step_awaitKey (s : Settings) {x : Fin 16} (running : m.mode = .running)
    (awaits : m.memory.readWord m.registers.pc = 0xF00A + 0x100 * x.val) :
    (m.step s).answer = .ok .awaitingKey ∧
      (m.step s).machine = { m with
        fetchPc := m.registers.pc
        keypad := m.keypad.clearEdges
        mode := .awaitingKey
        waitRegister := x.val } := by
  have executed : m.fetched.exec s.dialect m.nextInstruction = _ :=
    exec_awaitKey ((Memory.readWord_emod _ _).trans awaits)
  rw [step_of_running s running, cycle_of_done executed]
  exact ⟨rfl, rfl⟩

/-- Without a press a waiting machine stays as it is. -/
theorem pollKey_of_none (none : m.keypad.firstEdge = none) : m.pollKey = .done .awaitingKey m := by
  simp only [pollKey, Keypad.takeEdge, none]

/-- The smallest pressed key goes into the waiting register and the machine runs on. -/
theorem pollKey_of_edge {x key : Fin 16} (waits : m.waitRegister = x.val)
    (edge : m.keypad.firstEdge = some key) :
    m.pollKey = .done .continued
      { m with
        keypad := m.keypad.clearEdges
        registers := (m.registers.set x (UInt8.ofNat key.val)).advance
        mode := .running }
      [.keyResolved key x.val (wrapAddress (m.registers.pc + 2))] := by
  simp only [pollKey, Keypad.takeEdge, edge, waits, Registers.slot_val, Outcome.lookup_ok]
  rfl

end Machine

end Chip8
