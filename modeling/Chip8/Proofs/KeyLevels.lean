import Chip8.Proofs.FrameSplit
import Chip8.Proofs.Step

/-! # What key events do to a key

An event moves one key, so each key sees the events of its own and nothing else: the level and the
latch of a key depend on them alone, whatever stands between them. Between two events the levels
stay, since steps look at the levels and may empty the latch, but move no key.
-/

namespace Chip8

def eventsOf (key : Fin 16) (events : List KeyEvent) : List KeyEvent :=
  events.filter fun e => decide (e.key = key.val)

/-- The level and the latch of a key after an event of the key. -/
def KeyEvent.move (state : Bool × Bool) (e : KeyEvent) : Bool × Bool :=
  (e.pressed, state.2 || (e.pressed && !state.1))

/-- The level that a key has after some events of the key. -/
def levelBy (level : Bool) (events : List KeyEvent) : Bool :=
  events.foldl (fun _ e => e.pressed) level

def Keypad.keyState (k : Keypad) (key : Fin 16) : Bool × Bool := (k.down.get key, k.edges.get key)

variable {key : Fin 16} {events : List KeyEvent}

theorem eventsOf_append (key : Fin 16) (first second : List KeyEvent) :
    eventsOf key (first ++ second) = eventsOf key first ++ eventsOf key second :=
  List.filter_append ..

theorem eventsOf_filter (key : Fin 16) (selected : KeyEvent → Bool) (events : List KeyEvent) :
    eventsOf key (events.filter selected) = (eventsOf key events).filter selected :=
  List.filter_comm ..

theorem mem_eventsOf {e : KeyEvent} : e ∈ eventsOf key events ↔ e ∈ events ∧ e.key = key.val := by
  simp [eventsOf]

theorem levelBy_append (level : Bool) (first second : List KeyEvent) :
    levelBy level (first ++ second) = levelBy (levelBy level first) second :=
  List.foldl_append

/-- The last event decides on the level. -/
theorem levelBy_concat (level : Bool) (events : List KeyEvent) (e : KeyEvent) :
    levelBy level (events ++ [e]) = e.pressed := by
  rw [levelBy_append]
  rfl

theorem fst_foldl_move (events : List KeyEvent) (state : Bool × Bool) :
    (events.foldl KeyEvent.move state).1 = levelBy state.1 events := by
  induction events generalizing state with
  | nil => rfl
  | cons e rest ih => exact ih (e.move state)

namespace Keypad

variable {k k' : Keypad}

/-- Keypads with the same level and latch for each key are equal. -/
theorem ext_keyState (same : ∀ key, k.keyState key = k'.keyState key) : k = k' := by
  obtain ⟨down, edges⟩ := k
  obtain ⟨down', edges'⟩ := k'
  congr 1
  · apply Vector.ext
    intro i inside
    exact congrArg Prod.fst (same ⟨i, inside⟩)
  · apply Vector.ext
    intro i inside
    exact congrArg Prod.snd (same ⟨i, inside⟩)

end Keypad

namespace Machine

variable {s : Settings} {d : Dialect} {m : Machine}

/-- The effect of key events on one key is that of the events of the key. -/
theorem applyEvents_keyState (frame : Nat) (keys : ∀ e ∈ events, 0 ≤ e.key ∧ e.key < 16)
    (log : Array LogEntry) (key : Fin 16) :
    (m.applyEvents frame events log).machine.keypad.keyState key =
      (eventsOf key events).foldl KeyEvent.move (m.keypad.keyState key) := by
  induction events generalizing m log with
  | nil => rfl
  | cons e rest ih =>
    obtain ⟨⟨low, high⟩, restKeys⟩ := List.forall_mem_cons.mp keys
    obtain ⟨moved, isMoved⟩ := Registers.exists_val low high
    simp only [applyEvents, setKey, isMoved, Keypad.setKey_val, Outcome.lookup_ok,
      Outcome.answer_done, Outcome.machine_done]
    rw [ih restKeys, eventsOf, eventsOf, List.filter_cons]
    by_cases same : moved = key
    · subst same
      simp [isMoved, Keypad.keyState, Keypad.down_move, Keypad.edges_move, KeyEvent.move]
    · have apart : ¬ e.key = key.val := by
        rw [isMoved, Int.natCast_inj, ← Fin.ext_iff]
        exact same
      simp only [apart, decide_false, Bool.false_eq_true, if_false, Keypad.keyState,
        Keypad.down_move, Keypad.edges_move, same]

/-- Key events change the keypad only. -/
theorem applyEvents_machine (frame : Nat) (keys : ∀ e ∈ events, 0 ≤ e.key ∧ e.key < 16)
    (log : Array LogEntry) :
    (m.applyEvents frame events log).machine =
      { m with keypad := (m.applyEvents frame events log).machine.keypad } := by
  induction events generalizing m log with
  | nil => rfl
  | cons e rest ih =>
    obtain ⟨⟨low, high⟩, restKeys⟩ := List.forall_mem_cons.mp keys
    obtain ⟨moved, isMoved⟩ := Registers.exists_val low high
    simp only [applyEvents, setKey, isMoved, Keypad.setKey_val, Outcome.lookup_ok,
      Outcome.answer_done, Outcome.machine_done]
    exact ih restKeys _

/-- Operations move no key. -/
theorem run_down {operation : Operation} (encodable : operation.Encodable) :
    (m.run d operation).machine.keypad.down = m.keypad.down := by
  cases encodable <;>
    simp only [run, Registers.slot_val, assignment_val, Outcome.lookup_ok, Outcome.machine_done]
  case ret => cases m.registers.pop m.fetchPc <;> rfl
  case call => split <;> rfl
  case skipByte => unfold skipIf; split <;> rfl
  case skipRegister => unfold skipIf; split <;> rfl
  case skipKey => unfold skipIf; split <;> rfl
  case alu => unfold runAlu; split <;> rfl
  case addIndex => unfold runAddIndex; split <;> rfl
  case readDelay x => cases assignment x.val m.timers.delay <;> rfl
  case storeRegisters => unfold blockEnd passBlock; split <;> [split; skip] <;> rfl
  case loadRegisters => unfold blockEnd passBlock; split <;> [split; skip] <;> rfl
  all_goals rfl

theorem exec_down (word : Int) :
    (m.exec d (.ofWord word)).machine.keypad.down = m.keypad.down := by
  unfold exec
  split
  · next asked => exact run_down (Instruction.operation?_encodable asked)
  · rfl

/-- Steps move no key. -/
theorem step_down (s : Settings) (m : Machine) :
    (m.step s).machine.keypad.down = m.keypad.down := by
  cases mode : m.mode with
  | running =>
    rw [step_of_running s mode]
    have executed := exec_down (d := s.dialect) (m := m.fetched) (m.memory.readWord m.registers.pc)
    simp only [cycle]
    split <;> exact executed
  | awaitingKey =>
    rw [step_of_awaiting s mode, pollKey]
    cases first : m.keypad.firstEdge with
    | none => simp only [Keypad.takeEdge, first, Outcome.machine_done]
    | some key =>
      simp only [Keypad.takeEdge, first]
      cases Registers.slot m.waitRegister <;> rfl
  | halted => rw [step_of_halted s mode, Outcome.machine_done]

theorem burst_down (n : Nat) (log : Array LogEntry) :
    (m.burst s n log).machine.keypad.down = m.keypad.down := by
  induction n generalizing m log with
  | zero => rfl
  | succ n ih =>
    simp only [burst]
    split
    · exact step_down s m
    · exact step_down s m
    · exact (ih _).trans (step_down s m)

/-- Applied events give each key the level of its last event. -/
theorem applyEvents_down (frame : Nat) (keys : ∀ e ∈ events, 0 ≤ e.key ∧ e.key < 16)
    (log : Array LogEntry) (key : Fin 16) :
    (m.applyEvents frame events log).machine.keypad.down.get key =
      levelBy (m.keypad.down.get key) (eventsOf key events) := by
  have state := congrArg Prod.fst (applyEvents_keyState (m := m) frame keys log key)
  rw [fst_foldl_move] at state
  exact state

end Machine

end Chip8
