import Chip8.Proofs.Run
import Chip8.Proofs.Step
import Mathlib.Data.List.Induction
import Mathlib.Data.Set.Basic
import Mathlib.Order.Bounds.Defs

/-! # Waiting for a key

A wait ends with the first step after a key went down. Which keys went down is read off the key
events since the wait began and the levels that it found: what the latch held before is forgotten,
and a key that was down all the time did not go down.
-/

namespace Chip8

namespace Keypad

variable {k : Keypad}

theorem firstEdge_eq_none (untouched : ∀ key : Fin 16, ¬ k.edges.get key) : k.firstEdge = none :=
  List.find?_eq_none.mpr fun key _ => untouched key

/-- A keypad with a latched key has a first one, and that is the smallest. -/
theorem exists_firstEdge (latched : {key : Fin 16 | k.edges.get key}.Nonempty) :
    ∃ key, k.firstEdge = some key ∧ IsLeast {key : Fin 16 | k.edges.get key} key := by
  cases first : k.firstEdge with
  | none =>
    obtain ⟨key, isLatched⟩ := latched
    exact absurd isLatched (List.find?_eq_none.mp first key (List.mem_finRange key))
  | some key =>
    obtain ⟨isLatched, before, after, split, unlatched⟩ := List.find?_eq_some_iff_append.mp first
    refine ⟨key, rfl, isLatched, ?_⟩
    intro other otherLatched
    have sorted := List.pairwise_lt_finRange 16
    rw [split, List.pairwise_append, List.pairwise_cons] at sorted
    have member : other ∈ before ++ key :: after := split ▸ List.mem_finRange other
    obtain inBefore | rfl | inAfter := by simpa using member
    · have latchedThere : k.edges.get other = true := otherLatched
      have notLatched := unlatched other inBefore
      rw [latchedThere] at notLatched
      contradiction
    · exact Fin.le_refl _
    · exact Fin.le_of_lt (sorted.2.1.1 other inAfter)

end Keypad

def levelThen (key : Fin 16) (level : Bool) : Action → Bool
  | .setKey index pressed => if index = key.val then pressed else level
  | _ => level

def levelAfter (key : Fin 16) (level : Bool) (actions : List Action) : Bool :=
  actions.foldl (levelThen key) level

/-- The keys that went down during some actions, from levels given at the start. -/
def pressedSince (down : Vector Bool 16) (actions : List Action) : Set (Fin 16) :=
  {key | ∃ before rest, actions = before ++ .setKey key.val true :: rest ∧
    levelAfter key (down.get key) before = false}

section PressedSince

variable {down : Vector Bool 16} {actions before rest : List Action} {a : Action} {key : Fin 16}

theorem levelAfter_concat (key : Fin 16) (level : Bool) (actions : List Action) (a : Action) :
    levelAfter key level (actions ++ [a]) = levelThen key (levelAfter key level actions) a := by
  simp only [levelAfter, List.foldl_append, List.foldl_cons, List.foldl_nil]

theorem pressedSince_nil (down : Vector Bool 16) : pressedSince down [] = ∅ := by
  simp [pressedSince]

theorem pressedSince_append_subset (down : Vector Bool 16) (first second : List Action) :
    pressedSince down first ⊆ pressedSince down (first ++ second) := by
  rintro key ⟨before, rest, rfl, up⟩
  exact ⟨before, rest ++ second, by simp, up⟩

/-- With one more action a key went down if it had before, or goes down now. -/
theorem mem_pressedSince_concat :
    key ∈ pressedSince down (actions ++ [a]) ↔
      key ∈ pressedSince down actions ∨
        a = .setKey key.val true ∧ levelAfter key (down.get key) actions = false := by
  constructor
  · rintro ⟨before, rest, parts, up⟩
    induction rest using List.reverseRecOn with
    | nil =>
      obtain ⟨rfl, now⟩ := List.append_inj' parts rfl
      exact .inr ⟨List.head_eq_of_cons_eq now, up⟩
    | append_singleton rest last _ =>
      rw [← List.cons_append, ← List.append_assoc] at parts
      exact .inl ⟨before, rest, (List.append_inj' parts rfl).1, up⟩
  · rintro (earlier | ⟨rfl, up⟩)
    · exact pressedSince_append_subset down actions [a] earlier
    · exact ⟨actions, [], rfl, up⟩

/-- Only a key event that moves a key changes its level. -/
theorem levelThen_of_ne {level : Bool} (unmoved : a ≠ .setKey key.val (!level)) :
    levelThen key level a = level := by
  cases a with
  | setKey index pressed =>
    by_cases same : index = key.val
    · subst same
      have kept : pressed = level := by
        cases pressed <;> cases level <;> simp_all
      rw [levelThen, if_pos rfl, kept]
    · exact if_neg same
  | _ => rfl

/-- A key that is never released stays down. -/
theorem levelAfter_of_held (held : .setKey key.val false ∉ actions) :
    levelAfter key true actions = true := by
  induction actions with
  | nil => rfl
  | cons a rest ih =>
    rw [List.mem_cons, not_or] at held
    have still : levelThen key true a = true := levelThen_of_ne (Ne.symm held.1)
    rw [levelAfter, List.foldl_cons, still]
    exact ih held.2

/-- A key that was down from the start and is never released did not go down. -/
theorem notMem_pressedSince_of_held (held : down.get key = true)
    (unreleased : .setKey key.val false ∉ actions) : key ∉ pressedSince down actions := by
  rintro ⟨before, rest, rfl, up⟩
  have stillHeld : levelAfter key true before = true :=
    levelAfter_of_held fun member => unreleased (List.mem_append_left _ member)
  rw [held, stillHeld] at up
  contradiction

/-- A key that was up at some moment and was pressed later went down, released again or not. -/
theorem mem_pressedSince_of_press (up : levelAfter key (down.get key) before = false)
    (pressed : .setKey key.val true ∈ rest) : key ∈ pressedSince down (before ++ rest) := by
  induction rest generalizing before with
  | nil => contradiction
  | cons a rest ih =>
    by_cases now : a = .setKey key.val true
    · exact ⟨before, rest, by rw [now], up⟩
    · have stillUp : levelThen key false a = false := levelThen_of_ne now
      rw [List.append_cons]
      apply ih
      · rw [levelAfter_concat, up, stillUp]
      · exact (List.mem_cons.mp pressed).resolve_left (Ne.symm now)

end PressedSince

namespace Machine

variable {s : Settings} {x : Fin 16} {address : Int} {down : Vector Bool 16} {now : Machine}
  {actions : List Action} {a : Action}

/-- The machine waits at an address for the key of a register, and has done so through some actions.
The keypad knows the levels, and has latched the keys that went down since the wait began. -/
structure Waiting (x : Fin 16) (address : Int) (down : Vector Bool 16) (actions : List Action)
    (now : Machine) : Prop where
  mode : now.mode = .awaitingKey
  waitRegister : now.waitRegister = x.val
  pc : now.registers.pc = address
  levels (key : Fin 16) : now.keypad.down.get key = levelAfter key (down.get key) actions
  edges (key : Fin 16) : now.keypad.edges.get key = true ↔ key ∈ pressedSince down actions

namespace Waiting

/-- An action that leaves the levels alone, and what the wait depends on. -/
theorem of_quiet {now' : Machine} (waiting : Waiting x address down actions now)
    (quiet : ∀ key level, levelThen key level a = level) (mode : now'.mode = now.mode)
    (waitRegister : now'.waitRegister = now.waitRegister)
    (pc : now'.registers.pc = now.registers.pc) (keypad : now'.keypad = now.keypad) :
    Waiting x address down (actions ++ [a]) now' where
  mode := mode.trans waiting.mode
  waitRegister := waitRegister.trans waiting.waitRegister
  pc := pc.trans waiting.pc
  levels key := by rw [keypad, levelAfter_concat, quiet, waiting.levels]
  edges key := by
    rw [keypad, mem_pressedSince_concat, waiting.edges]
    constructor
    · exact .inl
    · rintro (earlier | ⟨rfl, _⟩)
      · exact earlier
      · have moved := quiet key false
        simp [levelThen] at moved

theorem move (waiting : Waiting x address down actions now) (key : Fin 16) (pressed : Bool) :
    Waiting x address down (actions ++ [.setKey key.val pressed])
      { now with keypad := now.keypad.move key pressed } where
  mode := waiting.mode
  waitRegister := waiting.waitRegister
  pc := waiting.pc
  levels other := by
    rw [Keypad.down_move, levelAfter_concat, ← waiting.levels]
    simp only [levelThen, Int.natCast_inj, Fin.ext_iff]
  edges other := by
    rw [Keypad.edges_move, mem_pressedSince_concat, ← waiting.edges, ← waiting.levels]
    by_cases same : key = other
    · subst same
      cases pressed <;> simp
    · have apart : ¬ (key.val : Int) = other.val := by
        rwa [Int.natCast_inj, ← Fin.ext_iff]
      simp [same, apart]

theorem setKey (waiting : Waiting x address down actions now) (index : Int) (pressed : Bool) :
    Waiting x address down (actions ++ [.setKey index pressed])
      (now.setKey index pressed).machine := by
  by_cases inside : ∃ key : Fin 16, index = key.val
  · obtain ⟨key, rfl⟩ := inside
    simp only [Machine.setKey, Keypad.setKey_val, Outcome.lookup_ok, Outcome.machine_done]
    exact waiting.move key pressed
  · have outside : ∀ key : Fin 16, index ≠ key.val := fun key same => inside ⟨key, same⟩
    simp only [Machine.setKey, Keypad.setKey_outside outside, Outcome.lookup_error,
      Outcome.machine_refused]
    exact waiting.of_quiet (fun key level => if_neg (outside key)) rfl rfl rfl rfl

/-- A step without a press since the machine was parked changes nothing. -/
theorem step_of_none (waiting : Waiting x address down actions now)
    (unpressed : pressedSince down actions = ∅) : now.step s = .done .awaitingKey now := by
  have untouched (key : Fin 16) : ¬ now.keypad.edges.get key := by
    rw [waiting.edges, unpressed]
    exact Set.notMem_empty key
  rw [step_of_awaiting s waiting.mode, pollKey_of_none (Keypad.firstEdge_eq_none untouched)]

/-- A step after a press ends the wait with the smallest of the keys that went down. -/
theorem step_of_press (waiting : Waiting x address down actions now)
    (press : (pressedSince down actions).Nonempty) :
    ∃ key : Fin 16, IsLeast (pressedSince down actions) key ∧
      now.step s = .done .continued
        { now with
          keypad := now.keypad.clearEdges
          registers := { now.registers with
            v := now.registers.v.set x (UInt8.ofNat key.val)
            pc := wrapAddress (address + 2) }
          mode := .running }
        [.keyResolved key x.val (wrapAddress (address + 2))] := by
  have latched : {key : Fin 16 | now.keypad.edges.get key} = pressedSince down actions :=
    Set.ext waiting.edges
  rw [← latched] at press ⊢
  obtain ⟨key, first, least⟩ := Keypad.exists_firstEdge press
  refine ⟨key, least, ?_⟩
  rw [step_of_awaiting s waiting.mode,
    pollKey_of_edge waiting.waitRegister first, ← waiting.pc]
  rfl

/-- A wait that no step has resolved goes on through every elementary action. -/
theorem perform (waiting : Waiting x address down actions now) (elementary : a.IsElementary)
    (unresolved : a = .step → pressedSince down actions = ∅) :
    Waiting x address down (actions ++ [a]) (now.perform s a).machine := by
  cases a with
  | step =>
    have same : (now.perform s .step).machine = now :=
      congrArg Outcome.machine (waiting.step_of_none (s := s) (unresolved rfl))
    rw [same]
    exact waiting.of_quiet (fun _ _ => rfl) rfl rfl rfl rfl
  | setKey index pressed => exact waiting.setKey index pressed
  | tick => exact waiting.of_quiet (fun _ _ => rfl) rfl rfl rfl rfl
  | takeDirty => exact waiting.of_quiet (fun _ _ => rfl) rfl rfl rfl rfl
  | load _ | reset | frames _ _ | execute _ => exact elementary.elim

theorem after {parked : Machine} (start : Waiting x address down [] parked)
    (elementary : ∀ a ∈ actions, a.IsElementary)
    (unresolved : ∀ before rest, actions = before ++ .step :: rest →
      pressedSince down before = ∅) :
    Waiting x address down actions (parked.after s actions) := by
  -- From the end, because whether a step resolves depends on all the actions before it.
  induction actions using List.reverseRecOn with
  | nil => exact start
  | append_singleton before a ih =>
    have waiting := ih (fun b member => elementary b (List.mem_append_left _ member))
      (fun first rest parts => unresolved first (rest ++ [a]) (by simp [parts]))
    rw [after_append]
    refine waiting.perform (elementary a (by simp)) ?_
    intro isStep
    exact unresolved before [] (by rw [isStep])

end Waiting

/-- The wait begins with nothing pressed, whatever was latched before. -/
theorem waiting_of_awaitKey {m : Machine} (running : m.mode = .running)
    (awaits : m.memory.readWord m.registers.pc = 0xF00A + 0x100 * x.val) :
    Waiting x m.registers.pc m.keypad.down [] (m.step s).machine := by
  rw [(step_awaitKey s running awaits).2]
  refine ⟨rfl, rfl, rfl, fun _ => rfl, ?_⟩
  intro key
  simp [pressedSince_nil, Keypad.edges_clearEdges]

/-- After a step that began to wait for a key, and any elementary actions. Until a key goes down a
step changes nothing. The first step after that resumes behind the instruction with the smallest
key that went down, and changes nothing else. A key that was down all the time never ends the wait,
and a key that was up and pressed later does, even if it was released again. -/
theorem keyWait_of_awaitKey {m : Machine}
    (running : m.mode = .running)
    (awaits : m.memory.readWord m.registers.pc = 0xF00A + 0x100 * x.val)
    (elementary : ∀ a ∈ actions, a.IsElementary) :
    let now := (m.step s).machine.after s actions
    let pressed := pressedSince m.keypad.down actions
    (m.step s).answer = .ok .awaitingKey ∧
    (pressed = ∅ → now.step s = .done .awaitingKey now) ∧
    (pressed.Nonempty →
      (∀ before rest, actions = before ++ .step :: rest →
        pressedSince m.keypad.down before = ∅) →
      ∃ key : Fin 16, IsLeast pressed key ∧
        now.step s = .done .continued
          { now with
            keypad := now.keypad.clearEdges
            registers := { now.registers with
              v := now.registers.v.set x (UInt8.ofNat key.val)
              pc := wrapAddress (m.registers.pc + 2) }
            mode := .running }
          [.keyResolved key x.val (wrapAddress (m.registers.pc + 2))]) ∧
    (∀ key : Fin 16, m.keypad.down[key] = true → .setKey key.val false ∉ actions →
      key ∉ pressed) ∧
    (∀ (key : Fin 16) (before rest : List Action), actions = before ++ rest →
      levelAfter key m.keypad.down[key] before = false → .setKey key.val true ∈ rest →
      key ∈ pressed) := by
  intro now pressed
  have start : Waiting x m.registers.pc m.keypad.down [] (m.step s).machine :=
    waiting_of_awaitKey running awaits
  refine ⟨(step_awaitKey s running awaits).1, ?_, ?_, ?_, ?_⟩
  · intro unpressed
    have unresolved (before rest : List Action) (parts : actions = before ++ .step :: rest) :
        pressedSince m.keypad.down before = ∅ := by
      apply Set.subset_eq_empty _ unpressed
      simp only [pressed, parts]
      exact pressedSince_append_subset m.keypad.down before (.step :: rest)
    exact (start.after elementary unresolved).step_of_none unpressed
  · intro press unresolved
    exact (start.after elementary unresolved).step_of_press press
  · intro key
    exact notMem_pressedSince_of_held
  · rintro key before rest rfl
    exact mem_pressedSince_of_press

/-- A press that is over before the step still ends the wait. -/
theorem keyWait_of_awaitKey_released :
    let m := ((initial {}).load {} [0xF3, 0x0A]).machine
    let actions := [.setKey 7 true, .tick, .setKey 7 false]
    m.mode = .running ∧ m.memory.readWord m.registers.pc = 0xF00A + 0x100 * (3 : Fin 16).val ∧
      7 ∈ pressedSince m.keypad.down actions ∧
      (((m.step {}).machine.after {} actions).step {}).answer = .ok .continued := by
  intro m actions
  have running : m.mode = .running := rfl
  have word : m.memory.readWord m.registers.pc = 0xF30A := by
    change ((Memory.initial.placeProgram [0xF3, 0x0A] (by decide)).readWord programStart) = _
    simp [Memory.readWord, Memory.placeProgram, Memory.read_place, Address.ofInt, programStart]
  have awaits : m.memory.readWord m.registers.pc = 0xF00A + 0x100 * (3 : Fin 16).val :=
    word.trans rfl
  have elementary : ∀ a ∈ actions, a.IsElementary := by
    simp [actions, Action.IsElementary]
  obtain ⟨_, _, resumes, _, counts⟩ := keyWait_of_awaitKey (s := {}) running awaits elementary
  have pressed : 7 ∈ pressedSince m.keypad.down actions :=
    counts 7 [] actions rfl rfl (List.mem_cons_self ..)
  have noStep (before rest : List Action) (parts : actions = before ++ .step :: rest) :
      pressedSince m.keypad.down before = ∅ := by
    have member : Action.step ∈ actions := parts ▸ by simp
    simp [actions] at member
  obtain ⟨key, _, resumed⟩ := resumes ⟨7, pressed⟩ noStep
  exact ⟨running, awaits, pressed, by rw [resumed]; rfl⟩

end Machine

end Chip8
