import Chip8.Proofs.Faults

/-! # Who uses the call stack

Only calls and returns look at the stack or move the stack pointer: every other operation does the
same, with the same log, whatever stack and stack pointer a machine has, and leaves both alone.
-/

namespace Chip8

/-- The machine with another stack and stack pointer. -/
def Machine.withCalls (m : Machine) (stack : Vector Int stackDepth) (sp : Nat) : Machine :=
  { m with registers := { m.registers with stack := stack, sp := sp } }

/-- The outcome with another stack and stack pointer. -/
def Outcome.withCalls {α : Type} (o : Outcome α) (stack : Vector Int stackDepth) (sp : Nat) :
    Outcome α :=
  { o with machine := o.machine.withCalls stack sp }

namespace Machine

variable {d : Dialect} {stack : Vector Int stackDepth} {sp : Nat}

theorem skipIf_withCalls (m : Machine) (condition : Bool) :
    (m.withCalls stack sp).skipIf condition = (m.skipIf condition).withCalls stack sp := by
  cases condition <;> rfl

theorem passBlock_withCalls (m : Machine) (x : Int) :
    (m.withCalls stack sp).passBlock d x = (m.passBlock d x).withCalls stack sp := by
  unfold passBlock
  split <;> rfl

theorem loadFromIndex_withCalls (m : Machine) (count : Nat) :
    (m.withCalls stack sp).loadFromIndex count = (m.loadFromIndex count).withCalls stack sp := rfl

theorem blockEnd_withCalls (m : Machine) (x : Int) (log : List LogEntry) :
    (m.withCalls stack sp).blockEnd d x log = (m.blockEnd d x log).withCalls stack sp := by
  unfold blockEnd
  split
  · rw [passBlock_withCalls]
    rfl
  · rfl

theorem runAlu_withCalls (m : Machine) (f : Alu) (x y : Fin 16) :
    (m.withCalls stack sp).runAlu d f x y = (m.runAlu d f x y).withCalls stack sp := by
  have bytes : (m.withCalls stack sp).registers.v = m.registers.v := rfl
  simp only [runAlu, bytes]
  obtain ⟨result, _ | flag⟩ := f.apply d (m.registers.v.get x) (m.registers.v.get y) <;> rfl

theorem runAddIndex_withCalls (m : Machine) (x : Fin 16) :
    (m.withCalls stack sp).runAddIndex d x = (m.runAddIndex d x).withCalls stack sp := by
  unfold runAddIndex
  split <;> rfl

/-- Operations other than calls and returns do not depend on the stack. -/
theorem run_withCalls (m : Machine) {operation : Operation} (encodable : operation.Encodable)
    (noReturn : operation ≠ .ret) (noCall : ∀ target, operation ≠ .call target) :
    (m.withCalls stack sp).run d operation = (m.run d operation).withCalls stack sp := by
  cases encodable
  case ret => contradiction
  case call target => exact absurd rfl (noCall target.val)
  all_goals simp only [run, Registers.slot_val, assignment_val, Outcome.lookup_ok]
  case skipByte => rw [skipIf_withCalls]; rfl
  case skipRegister => rw [skipIf_withCalls]; rfl
  case alu => rw [runAlu_withCalls]; rfl
  case skipKey => rw [skipIf_withCalls]; rfl
  case addIndex => rw [runAddIndex_withCalls]; rfl
  case readDelay x =>
    change Outcome.lookup (assignment x.val m.timers.delay) _ _ = _
    cases assignment x.val m.timers.delay <;> rfl
  case storeRegisters x => exact blockEnd_withCalls (m.storeAtIndex _) _ _
  case loadRegisters x => rw [loadFromIndex_withCalls, blockEnd_withCalls]
  all_goals rfl

/-- Words other than calls and returns do not depend on the stack. -/
theorem exec_withCalls (m : Machine) (stack : Vector Int stackDepth) (sp : Nat) {word : Int}
    (noReturn : word % 65536 ≠ 0x00EE) (noCall : word % 65536 / 4096 ≠ 2) :
    (m.withCalls stack sp).exec d (.ofWord word) =
      (m.exec d (.ofWord word)).withCalls stack sp := by
  unfold exec
  split
  · next operation asked =>
    apply run_withCalls m (Instruction.operation?_encodable asked)
    · rintro rfl
      exact noReturn ((Instruction.operation?_eq_ret_iff word).mp asked)
    · rintro target rfl
      exact noCall ((Instruction.operation?_eq_call_iff word target).mp asked).1
  · rfl

/-- Words other than calls and returns leave the stack and the stack pointer alone. -/
theorem exec_keeps_calls (m : Machine) {word : Int} (noReturn : word % 65536 ≠ 0x00EE)
    (noCall : word % 65536 / 4096 ≠ 2) :
    (m.exec d (.ofWord word)).machine.registers.stack = m.registers.stack ∧
      (m.exec d (.ofWord word)).machine.registers.sp = m.registers.sp := by
  have same : m.exec d (.ofWord word) = _ :=
    exec_withCalls m m.registers.stack m.registers.sp noReturn noCall
  rw [same]
  exact ⟨rfl, rfl⟩

/-- A look at the keypad does not depend on the stack. -/
theorem pollKey_withCalls (m : Machine) (stack : Vector Int stackDepth) (sp : Nat) :
    (m.withCalls stack sp).pollKey = m.pollKey.withCalls stack sp := by
  have keypad : (m.withCalls stack sp).keypad = m.keypad := rfl
  have waitRegister : (m.withCalls stack sp).waitRegister = m.waitRegister := rfl
  simp only [pollKey, keypad, waitRegister]
  obtain ⟨_ | key, keypad⟩ := m.keypad.takeEdge
  · rfl
  · cases Registers.slot m.waitRegister <;> rfl

theorem pollKey_keeps_calls (m : Machine) :
    m.pollKey.machine.registers.stack = m.registers.stack ∧
      m.pollKey.machine.registers.sp = m.registers.sp := by
  have same : m.pollKey = _ := pollKey_withCalls m m.registers.stack m.registers.sp
  rw [same]
  exact ⟨rfl, rfl⟩

/-- A key event does not depend on the stack. -/
theorem setKey_withCalls (m : Machine) (stack : Vector Int stackDepth) (sp : Nat) (index : Int)
    (pressed : Bool) :
    (m.withCalls stack sp).setKey index pressed =
      (m.setKey index pressed).withCalls stack sp := by
  change Outcome.lookup (m.keypad.setKey index pressed) _ _ = _
  unfold setKey
  cases m.keypad.setKey index pressed <;> rfl

theorem setKey_registers (m : Machine) (index : Int) (pressed : Bool) :
    (m.setKey index pressed).machine.registers = m.registers := by
  unfold setKey
  cases m.keypad.setKey index pressed <;> rfl

end Machine

end Chip8
