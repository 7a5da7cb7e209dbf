import Chip8.Proofs.Calls
import Chip8.Proofs.Simulation
import Chip8.Proofs.Step

/-! # Unused stack slots

What the slots at or above the stack pointer hold never matters. A return reads the slot right below
the stack pointer, a call overwrites the slot that it puts in use, and nothing else reads a slot.
-/

namespace Chip8.Machine

/-- The machines differ at most in the slots at or above the stack pointer. -/
def SameButStale (m m' : Machine) : Prop :=
  ∃ stack : Vector Int stackDepth,
    m' = m.withCalls stack m.registers.sp ∧ ∀ i < m.registers.sp, stack[i]? = m.registers.stack[i]?

namespace SameButStale

variable {s : Settings} {d : Dialect} {m m' : Machine}

theorem refl (m : Machine) : SameButStale m m := ⟨m.registers.stack, rfl, fun _ _ => rfl⟩

/-- An outcome that does not depend on the stack, and that leaves it alone. -/
theorem agree_withCalls {α : Type} {o : Outcome α} {stack : Vector Int stackDepth}
    (slots : ∀ i < m.registers.sp, stack[i]? = m.registers.stack[i]?)
    (sameStack : o.machine.registers.stack = m.registers.stack)
    (sameSp : o.machine.registers.sp = m.registers.sp) :
    o.Agree SameButStale (o.withCalls stack m.registers.sp) := by
  refine ⟨rfl, stack, ?_, ?_⟩
  · rw [sameSp]
    rfl
  · rw [sameSp, sameStack]
    exact slots

/-- A return finds the same address on both sides. -/
theorem exec_ret (same : SameButStale m m') {word : Int} (returns : word % 65536 = 0x00EE) :
    (m.exec d (.ofWord word)).Agree SameButStale (m'.exec d (.ofWord word)) := by
  obtain ⟨stack, rfl, slots⟩ := same
  cases used : m.registers.sp with
  | zero =>
    rw [exec_ret_of_empty returns used, exec_ret_of_empty returns rfl]
    exact Outcome.agree_refused ⟨stack, by rw [used], slots⟩ _ _ _
  | succ depth =>
    by_cases inside : depth < stackDepth
    · have same : stack.get ⟨depth, inside⟩ = m.registers.stack.get ⟨depth, inside⟩ := by
        have slot := slots depth (by omega)
        rwa [Vector.getElem?_eq_getElem inside, Vector.getElem?_eq_getElem inside,
          Option.some_inj] at slot
      rw [exec_ret_of_open returns used inside, exec_ret_of_open returns rfl inside]
      refine Outcome.agree_done ⟨stack, ?_, ?_⟩ _ _ _
      · simp only [withCalls, same]
      · intro i below
        change i < depth at below
        exact slots i (by omega)
    · rw [exec_ret_of_beyond returns used inside, exec_ret_of_beyond returns rfl inside]
      exact Outcome.agree_refused ⟨stack, by rw [used], slots⟩ _ _ _

/-- A call overwrites the slot that it puts in use. -/
theorem exec_call (same : SameButStale m m') {word : Int} (calls : word % 65536 / 4096 = 2) :
    (m.exec d (.ofWord word)).Agree SameButStale (m'.exec d (.ofWord word)) := by
  obtain ⟨stack, rfl, slots⟩ := same
  by_cases free : m.registers.sp < stackDepth
  · rw [exec_call_of_free calls free,
      exec_call_of_free (m := m.withCalls stack m.registers.sp) calls free]
    refine Outcome.agree_done ⟨stack.set m.registers.sp _ free, rfl, ?_⟩ _ _ _
    intro i below
    change i < m.registers.sp + 1 at below
    simp only [Vector.getElem?_set]
    split
    · rfl
    · exact slots i (by omega)
  · have full := Nat.le_of_not_lt free
    rw [exec_call_of_full calls full,
      exec_call_of_full (m := m.withCalls stack m.registers.sp) calls full]
    exact Outcome.agree_refused ⟨stack, rfl, slots⟩ _ _ _

theorem exec (same : SameButStale m m') (word : Int) :
    (m.exec d (.ofWord word)).Agree SameButStale (m'.exec d (.ofWord word)) := by
  by_cases returns : word % 65536 = 0x00EE
  · exact same.exec_ret returns
  by_cases calls : word % 65536 / 4096 = 2
  · exact same.exec_call calls
  -- The other words do not see that the stack is another one, and hand it on.
  obtain ⟨stack, rfl, slots⟩ := same
  obtain ⟨sameStack, sameSp⟩ := exec_keeps_calls (d := d) m returns calls
  rw [exec_withCalls m stack m.registers.sp returns calls]
  exact agree_withCalls slots sameStack sameSp

theorem fetched (same : SameButStale m m') : SameButStale m.fetched m'.fetched := by
  obtain ⟨stack, rfl, slots⟩ := same
  exact ⟨stack, rfl, slots⟩

theorem withMode (same : SameButStale m m') (mode : Mode) :
    SameButStale { m with mode := mode } { m' with mode := mode } := by
  obtain ⟨stack, rfl, slots⟩ := same
  exact ⟨stack, rfl, slots⟩

theorem nextInstruction (same : SameButStale m m') : m'.nextInstruction = m.nextInstruction := by
  obtain ⟨stack, rfl, _⟩ := same
  rfl

theorem eventAfter (same : SameButStale m m') : m'.eventAfter = m.eventAfter := by
  obtain ⟨stack, rfl, _⟩ := same
  rfl

theorem cycle (same : SameButStale m m') : (m.cycle s).Agree SameButStale (m'.cycle s) := by
  obtain ⟨answer, executed⟩ :=
    same.fetched.exec (d := s.dialect) (m.memory.readWord m.registers.pc)
  rw [← nextInstruction_eq] at answer executed
  simp only [Machine.cycle, same.nextInstruction, ← answer]
  split
  · rw [executed.eventAfter]
    exact Outcome.agree_done executed _ _ _
  · exact Outcome.agree_refused (executed.withMode .halted) _ _ _
  · exact Outcome.agree_refused executed _ _ _

theorem pollKey (same : SameButStale m m') : m.pollKey.Agree SameButStale m'.pollKey := by
  obtain ⟨stack, rfl, slots⟩ := same
  obtain ⟨sameStack, sameSp⟩ := pollKey_keeps_calls m
  rw [pollKey_withCalls]
  exact agree_withCalls slots sameStack sameSp

theorem step (same : SameButStale m m') : (m.step s).Agree SameButStale (m'.step s) := by
  have mode : m'.mode = m.mode := by
    obtain ⟨stack, rfl, _⟩ := same
    rfl
  simp only [Machine.step, mode]
  split
  · exact same.cycle
  · exact same.pollKey
  · exact Outcome.agree_done same _ _ _

theorem setKey (same : SameButStale m m') (index : Int) (pressed : Bool) :
    (m.setKey index pressed).Agree SameButStale (m'.setKey index pressed) := by
  obtain ⟨stack, rfl, slots⟩ := same
  have kept := setKey_registers m index pressed
  rw [setKey_withCalls]
  exact agree_withCalls slots (by rw [kept]) (by rw [kept])

/-- Elementary actions do not look at unused slots. -/
theorem simulation (s : Settings) : Simulation s s SameButStale where
  burst := rfl
  step := SameButStale.step
  setKey index pressed same := same.setKey index pressed
  tick := by
    rintro m _ ⟨stack, rfl, slots⟩
    exact ⟨stack, rfl, slots⟩
  isDirty := by
    rintro m _ ⟨stack, rfl, _⟩
    rfl
  takeDirty := by
    rintro m _ ⟨stack, rfl, slots⟩
    exact ⟨stack, rfl, slots⟩

theorem load (same : SameButStale m m') (program : List UInt8) :
    (m.load s program).Agree SameButStale (m'.load s program) := by
  by_cases fits : program.length ≤ programCapacity
  · rw [load_of_fits s m fits, load_of_fits s m' fits]
    exact Outcome.agree_done (refl _) _ _ _
  · have tooLarge := Nat.lt_of_not_le fits
    rw [load_of_tooLarge s m tooLarge, load_of_tooLarge s m' tooLarge]
    exact Outcome.agree_refused same _ _ _

/-- No action looks at unused slots. -/
theorem perform (same : SameButStale m m') (a : Action) :
    (m.perform s a).Agree SameButStale (m'.perform s a) := by
  cases a with
  | load program => exact (same.load program).map _
  | reset => exact (Outcome.agree_done (refl (initial s)) () _ _).map _
  | frames count schedule => exact ((simulation s).runFrames count schedule same).map _
  | execute word => exact (same.exec word).map _
  | step | setKey _ _ | tick | takeDirty => exact (simulation s).perform same trivial

/-- Machines that differ in unused slots stay so, whatever a host does to both. -/
theorem sideBySide {m₁ m₂ m₁' m₂' : Machine} {actions : List Action} (same : SameButStale m₁ m₂)
    (together : SideBySide s s m₁ m₂ actions m₁' m₂') : SameButStale m₁' m₂' := by
  induction together with
  | nil => exact same
  | act _ ih => exact ih (same.perform _).2
  | unseeded stream _ _ _ ih =>
    obtain ⟨stack, rfl, slots⟩ := same
    exact ih ⟨stack, rfl, slots⟩

end SameButStale

end Chip8.Machine
