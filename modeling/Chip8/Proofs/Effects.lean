import Chip8.Proofs.CallStack
import Chip8.Proofs.Courses

/-! # What a turn does outside of memory and registers

The screen, the timers and the random bytes each have few causes of change. Most operations change
memory and registers only; the others are named. So a turn executes a word to its end, goes back to
the first state, ticks the timers, takes the redraw flag, or leaves all three as they are.
-/

namespace Chip8

/-- An operation that changes memory and registers only. -/
def Operation.IsInternal : Operation → Prop
  | .clearScreen | .random _ _ | .draw _ _ _ | .awaitKey _ | .setDelay _ | .setSound _ => False
  | _ => True

namespace Machine

variable {s : Settings} {d : Dialect} {m : Machine} {operation : Operation}

/-- The end of a block changes registers only. -/
theorem blockEnd_internal (d : Dialect) (x : Int) (m : Machine) (log : List LogEntry) :
    ∃ registers, (m.blockEnd d x log).machine = { m with registers := registers } := by
  unfold blockEnd passBlock
  split
  · split <;> exact ⟨_, rfl⟩
  · exact ⟨_, rfl⟩

/-- An internal operation leaves all but memory and registers alone. -/
theorem run_internal (encodable : operation.Encodable) (internal : operation.IsInternal) :
    ∃ memory registers,
      (m.run d operation).machine = { m with memory := memory, registers := registers } := by
  cases encodable <;>
    simp only [run, Registers.slot_val, assignment_val, Outcome.lookup_ok, Outcome.machine_done]
  case clearScreen | random | draw | awaitKey | setDelay | setSound => exact internal.elim
  case ret => cases m.registers.pop m.fetchPc <;> exact ⟨m.memory, _, rfl⟩
  case call => split <;> exact ⟨m.memory, _, rfl⟩
  case skipByte | skipRegister | skipKey =>
    unfold skipIf
    split <;> exact ⟨m.memory, _, rfl⟩
  case alu =>
    unfold runAlu
    split <;> exact ⟨m.memory, _, rfl⟩
  case addIndex =>
    unfold runAddIndex
    split <;> exact ⟨m.memory, _, rfl⟩
  case readDelay x => cases assignment x.val m.timers.delay <;> exact ⟨m.memory, _, rfl⟩
  case storeRegisters x =>
    obtain ⟨registers, same⟩ := blockEnd_internal d x (m.storeAtIndex _) (ignoredWrites _ _)
    rw [same]
    exact ⟨_, registers, rfl⟩
  case loadRegisters x =>
    obtain ⟨registers, same⟩ := blockEnd_internal d x (m.loadFromIndex _) []
    rw [same, loadFromIndex]
    exact ⟨_, registers, rfl⟩
  all_goals exact ⟨_, _, rfl⟩

/-- Only a cleared screen and a drawn sprite change the screen. -/
theorem run_screen (encodable : operation.Encodable) (noClear : operation ≠ .clearScreen)
    (noDraw : ∀ x y rows : Fin 16, operation ≠ .draw x.val y.val rows.val) :
    (m.run d operation).machine.screen = m.screen := by
  by_cases internal : operation.IsInternal
  · obtain ⟨memory, registers, same⟩ := run_internal (d := d) (m := m) encodable internal
    rw [same]
  · cases encodable
    case clearScreen => exact absurd rfl noClear
    case draw x y rows => exact absurd rfl (noDraw x y rows)
    case random | awaitKey | setDelay | setSound =>
      simp only [run, Registers.slot_val, Outcome.lookup_ok, Outcome.machine_done, setRegister,
        runAwaitKey, jump]
    all_goals exact absurd trivial internal

/-- Only a stored delay and a stored sound change the timers. -/
theorem run_timers (encodable : operation.Encodable)
    (noDelay : ∀ x : Fin 16, operation ≠ .setDelay x.val)
    (noSound : ∀ x : Fin 16, operation ≠ .setSound x.val) :
    (m.run d operation).machine.timers = m.timers := by
  by_cases internal : operation.IsInternal
  · obtain ⟨memory, registers, same⟩ := run_internal (d := d) (m := m) encodable internal
    rw [same]
  · cases encodable
    case setDelay x => exact absurd rfl (noDelay x)
    case setSound x => exact absurd rfl (noSound x)
    case clearScreen | random | draw | awaitKey =>
      simp only [run, Registers.slot_val, Outcome.lookup_ok, Outcome.machine_done, setRegister,
        setFlag, runDraw, runAwaitKey, jump]
    all_goals exact absurd trivial internal

/-- Only a random byte moves the stream of random bytes. -/
theorem run_random (encodable : operation.Encodable)
    (noDraw : ∀ (x : Fin 16) (mask : UInt8), operation ≠ .random x.val mask.toNat) :
    (m.run d operation).machine.random = m.random := by
  by_cases internal : operation.IsInternal
  · obtain ⟨memory, registers, same⟩ := run_internal (d := d) (m := m) encodable internal
    rw [same]
  · cases encodable
    case random x mask => exact absurd rfl (noDraw x mask)
    case clearScreen | draw | awaitKey | setDelay | setSound =>
      simp only [run, Registers.slot_val, Outcome.lookup_ok, Outcome.machine_done, setFlag, runDraw,
        runAwaitKey, jump]
    all_goals exact absurd trivial internal

end Machine

namespace Turn

variable {s : Settings} {t : Turn}

def word? (s : Settings) (t : Turn) : Option Int :=
  match t.action with
  | .execute word => (t.outcome s).answer.toOption.map fun _ => word % 65536
  | a => (t.machine.executedBy s a).head?.map Executed.word

/-- The machine that a word is executed on: a step first fetches. -/
def ready (t : Turn) : Machine :=
  match t.action with
  | .step => t.machine.fetched
  | _ => t.machine

/-- The turn puts the machine back into its first state, with or without a program. -/
def restarts (s : Settings) (t : Turn) : Bool :=
  match t.action with
  | .reset => true
  | .load _ => (t.outcome s).answer.toBool
  | _ => false

/-- All that a turn can do to the screen, the timers and the random bytes. -/
inductive Effect (s : Settings) (t : Turn) : Prop
  | executes (word : Int) (operation : Operation) :
      t.word? s = some word → t.restarts s = false → t.action ≠ .tick →
      (Instruction.ofWord word).operation? = some operation →
      t.after s = (t.ready.run s.dialect operation).machine → Effect s t
  | restarts (memory : Memory) : t.word? s = none → t.restarts s = true →
      t.after s = { Machine.initial s with memory := memory } → Effect s t
  | ticks : t.word? s = none → t.restarts s = false → t.action = .tick →
      t.after s = t.machine.tick → Effect s t
  | looks : t.word? s = none → t.restarts s = false → t.action = .takeDirty →
      t.after s = t.machine.takeDirty → Effect s t
  | rests : t.word? s = none → t.restarts s = false → t.action ≠ .tick → t.action ≠ .takeDirty →
      (t.after s).screen = t.machine.screen → (t.after s).timers = t.machine.timers →
      (t.after s).random = t.machine.random → Effect s t

@[simp] theorem screen_ready (t : Turn) : t.ready.screen = t.machine.screen := by
  unfold ready
  split <;> rfl

@[simp] theorem timers_ready (t : Turn) : t.ready.timers = t.machine.timers := by
  unfold ready
  split <;> rfl

@[simp] theorem random_ready (t : Turn) : t.ready.random = t.machine.random := by
  unfold ready
  split <;> rfl

@[simp] theorem v_ready (t : Turn) : t.ready.registers.v = t.machine.registers.v := by
  unfold ready
  split <;> rfl

/-- The words of executed instructions have sixteen bits. -/
theorem word?_emod {word : Int} (executed : t.word? s = some word) : word % 65536 = word := by
  obtain ⟨m, a⟩ := t
  cases a with
  | execute forced =>
    simp only [word?, Option.map_eq_some_iff] at executed
    obtain ⟨-, -, rfl⟩ := executed
    exact Int.emod_emod ..
  | step =>
    simp only [word?, Machine.executedBy] at executed
    split at executed
    · cases executed
      exact Memory.readWord_emod ..
    · cases executed
  | _ => cases executed

end Turn

namespace Machine

variable {s : Settings} {m : Machine}

/-- A word that finishes asks for an operation, and runs it. -/
theorem exec_of_ok {d : Dialect} {word : Int}
    (finished : (m.exec d (.ofWord word)).answer = .ok ()) :
    ∃ operation, (Instruction.ofWord word).operation? = some operation ∧
      m.exec d (.ofWord word) = m.run d operation := by
  cases asked : (Instruction.ofWord word).operation? with
  | none =>
    rw [exec_of_undefined asked] at finished
    cases finished
  | some operation => exact ⟨operation, rfl, by simp only [exec, asked]⟩

/-- A forced word is executed unless it is refused. -/
theorem word?_execute (s : Settings) (m : Machine) (word : Int) :
    Turn.word? s ⟨m, .execute word⟩ =
      (m.exec s.dialect (.ofWord word)).answer.toOption.map fun _ => word % 65536 := by
  simp only [Turn.word?, Turn.outcome, perform, Outcome.map]
  cases (m.exec s.dialect (.ofWord word)).answer <;> rfl

/-- A step of a machine that does not run executes nothing. -/
theorem word?_step_of_idle (s : Settings) (idle : m.mode ≠ .running) :
    Turn.word? s ⟨m, .step⟩ = none := by
  simp only [Turn.word?, executedBy_step_of_idle idle, List.head?_nil, Option.map_none]

theorem effect_execute (m : Machine) (word : Int) : Turn.Effect s ⟨m, .execute word⟩ := by
  have after : Turn.after s ⟨m, .execute word⟩ = (m.exec s.dialect (.ofWord word)).machine := rfl
  cases answer : (m.exec s.dialect (.ofWord word)).answer with
  | ok finished =>
    obtain ⟨operation, asked, run⟩ := exec_of_ok answer
    have executed : Turn.word? s ⟨m, .execute word⟩ = some (word % 65536) := by
      rw [word?_execute, answer]
      rfl
    exact .executes _ operation executed rfl Action.noConfusion
      ((Instruction.ofWord_emod word).symm ▸ asked) (after.trans (congrArg Outcome.machine run))
  | error reason =>
    have unchanged : Turn.after s ⟨m, .execute word⟩ = m := after.trans (exec_of_error answer)
    have idle : Turn.word? s ⟨m, .execute word⟩ = none := by
      rw [word?_execute, answer]
      rfl
    refine .rests idle rfl Action.noConfusion Action.noConfusion ?_ ?_ ?_ <;> rw [unchanged]

/-- A cycle that finishes has executed its word to the end. -/
theorem cycle_of_ok {event : CycleEvent} (finished : (m.cycle s).answer = .ok event) :
    (m.fetched.exec s.dialect m.nextInstruction).answer = .ok () ∧
      (m.cycle s).machine = (m.fetched.exec s.dialect m.nextInstruction).machine := by
  simp only [cycle] at finished ⊢
  split at finished
  · next ended => exact ⟨ended, rfl⟩
  · cases finished
  · cases finished

/-- A cycle that is refused has only fetched, and halted if it was a fault. -/
theorem cycle_of_refused {reason : Refusal} (failed : (m.cycle s).answer = .error reason) :
    ∃ mode, (m.cycle s).machine = { m.fetched with mode := mode } := by
  simp only [cycle] at failed ⊢
  split at failed
  · cases failed
  · next raised =>
    have unchanged : (m.fetched.exec s.dialect m.nextInstruction).machine = m.fetched :=
      exec_of_error raised
    exact ⟨.halted, by rw [Outcome.machine_refused, unchanged]⟩
  · next raised => exact ⟨m.mode, exec_of_error raised⟩

/-- A look at the keypad changes the keypad, the registers and the mode only. -/
theorem pollKey_rests (m : Machine) :
    m.pollKey.machine.screen = m.screen ∧ m.pollKey.machine.timers = m.timers ∧
      m.pollKey.machine.random = m.random := by
  unfold pollKey
  split
  · exact ⟨rfl, rfl, rfl⟩
  · cases Registers.slot m.waitRegister <;> exact ⟨rfl, rfl, rfl⟩

theorem effect_step (s : Settings) (m : Machine) : Turn.Effect s ⟨m, .step⟩ := by
  have after : Turn.after s ⟨m, .step⟩ = (m.step s).machine := rfl
  cases mode : m.mode with
  | running =>
    cases answer : (m.step s).answer with
    | ok event =>
      have executed : Turn.word? s ⟨m, .step⟩ = some (m.memory.readWord m.registers.pc) := by
        simp only [Turn.word?, executedBy_step mode answer, List.head?_cons, Option.map_some]
      rw [step_of_running s mode] at answer after
      obtain ⟨ended, machine⟩ := cycle_of_ok answer
      obtain ⟨operation, asked, run⟩ := exec_of_ok ended
      exact .executes _ operation executed rfl Action.noConfusion asked
        (after.trans (machine.trans (congrArg Outcome.machine run)))
    | error reason =>
      have idle : Turn.word? s ⟨m, .step⟩ = none := by
        simp only [Turn.word?, executedBy_step_of_error answer, List.head?_nil, Option.map_none]
      rw [step_of_running s mode] at answer after
      obtain ⟨left, same⟩ := cycle_of_refused answer
      refine .rests idle rfl Action.noConfusion Action.noConfusion ?_ ?_ ?_ <;>
        rw [after, same] <;> rfl
  | awaitingKey =>
    have idle := word?_step_of_idle s (m := m) (by simp [mode])
    obtain ⟨screen, timers, random⟩ := m.pollKey_rests
    rw [step_of_awaiting s mode] at after
    refine .rests idle rfl Action.noConfusion Action.noConfusion ?_ ?_ ?_ <;> rw [after]
    · exact screen
    · exact timers
    · exact random
  | halted =>
    have idle := word?_step_of_idle s (m := m) (by simp [mode])
    rw [step_of_halted s mode] at after
    refine .rests idle rfl Action.noConfusion Action.noConfusion ?_ ?_ ?_ <;> rw [after] <;> rfl

end Machine

namespace Turn

variable {s : Settings} {t : Turn}

/-- What a turn does to the screen, the timers and the random bytes. -/
theorem effect (s : Settings) (atomic : t.action.IsAtomic) : t.Effect s := by
  obtain ⟨m, a⟩ := t
  cases a with
  | frames _ _ => exact atomic.elim
  | step => exact Machine.effect_step s m
  | execute word => exact Machine.effect_execute m word
  | tick => exact .ticks rfl rfl rfl rfl
  | takeDirty => exact .looks rfl rfl rfl rfl
  | reset => exact .restarts .initial rfl rfl rfl
  | load program =>
    by_cases fits : program.length ≤ programCapacity
    · refine .restarts (Memory.initial.placeProgram program fits) rfl ?_ ?_
      · simp [restarts, outcome, Machine.perform, Machine.load_of_fits s m fits, Outcome.map,
          Outcome.done, Except.map, Except.toBool]
      · simp [after, outcome, Machine.perform, Machine.load_of_fits s m fits, Outcome.map,
          Outcome.done]
    · have refused := Machine.load_of_tooLarge s m (Nat.lt_of_not_le fits)
      refine .rests rfl ?_ Action.noConfusion Action.noConfusion ?_ ?_ ?_ <;>
        simp [restarts, after, outcome, Machine.perform, refused, Outcome.map, Outcome.refused,
          Except.map, Except.toBool]
  | setKey index pressed =>
    have moved : ∃ keypad, (m.setKey index pressed).machine = { m with keypad := keypad } := by
      unfold Machine.setKey
      cases m.keypad.setKey index pressed with
      | ok keypad => exact ⟨keypad, rfl⟩
      | error reason => exact ⟨m.keypad, rfl⟩
    obtain ⟨keypad, same⟩ := moved
    refine .rests rfl rfl Action.noConfusion Action.noConfusion ?_ ?_ ?_ <;>
      simp [after, outcome, Machine.perform, Outcome.map, same]

/-- An executed word asks for an operation, and the turn runs it. -/
theorem after_of_word {word : Int} (executed : t.word? s = some word) :
    ∃ operation, (Instruction.ofWord word).operation? = some operation ∧
      t.after s = (t.ready.run s.dialect operation).machine := by
  have atomic : t.action.IsAtomic := by
    obtain ⟨m, a⟩ := t
    cases a with
    | frames _ _ => cases executed
    | _ => trivial
  cases effect s atomic with
  | executes word' operation executed' _ _ asked run =>
    obtain rfl := Option.some.inj (executed.symm.trans executed')
    exact ⟨operation, asked, run⟩
  | restarts _ idle | ticks idle | looks idle | rests idle =>
    rw [idle] at executed
    cases executed

/-- Elementary actions lead back to no first state. -/
theorem restarts_of_elementary (elementary : t.action.IsElementary) : t.restarts s = false := by
  unfold restarts
  split
  · next isReset => exact (isReset ▸ elementary : Action.IsElementary .reset).elim
  · next program isLoad => exact (isLoad ▸ elementary : Action.IsElementary (.load program)).elim
  · rfl

end Turn

end Chip8
