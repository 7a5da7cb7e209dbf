import Chip8.Config.Switches
import Chip8.Proofs.CallStack
import Chip8.Proofs.Suspension
import Mathlib.Data.List.Basic

/-! # What a switch of the dialect reaches

Each switch governs a few words. Programs that do not execute any of them cannot tell the two
positions of the switch apart, and at each governed word the two results differ in no more than the
switch is about.
-/

namespace Chip8

open Config (Switch)

/-- An action of one step, or of none. -/
def Action.IsSingle : Action → Prop
  | .load _ | .reset | .step | .setKey _ _ | .tick | .takeDirty => True
  | .frames _ _ | .execute _ => False

/-- The settings with a switch of the dialect in a position. -/
def Settings.switched (s : Settings) (q : Switch) (position : Bool) : Settings :=
  { s with dialect := q.set s.dialect position }

namespace Config.Switch

/-- The words that a switch governs, by their operands. -/
def words (x y n : Fin 16) : Switch → List Int
  | borrowFlagInverted =>
      [0x8000 + 0x100 * x.val + 0x10 * y.val + 0x5, 0x8000 + 0x100 * x.val + 0x10 * y.val + 0x7]
  | shiftUsesVy =>
      [0x8000 + 0x100 * x.val + 0x10 * y.val + 0x6, 0x8000 + 0x100 * x.val + 0x10 * y.val + 0xE]
  | indexOverflowFlag => [0xF01E + 0x100 * x.val]
  | loadStoreIncrementsIndex => [0xF055 + 0x100 * x.val, 0xF065 + 0x100 * x.val]
  | clipSprites => [0xD000 + 0x100 * x.val + 0x10 * y.val + n.val]

/-- The word asks for an operation that a switch governs. -/
def Governs (q : Switch) (word : Int) : Prop := ∃ x y n, word ∈ q.words x y n

/-- The operations that a switch governs, by their operands. -/
def operations (x y n : Fin 16) : Switch → List Operation
  | borrowFlagInverted => [.alu .subtract x.val y.val, .alu .subtractFrom x.val y.val]
  | shiftUsesVy => [.alu .shiftRight x.val y.val, .alu .shiftLeft x.val y.val]
  | indexOverflowFlag => [.addIndex x.val]
  | loadStoreIncrementsIndex => [.storeRegisters x.val, .loadRegisters x.val]
  | clipSprites => [.draw x.val y.val n.val]

/-- How far the machines after a governed word may differ: the word was executed by one machine with
the switch off and on. -/
def Difference (x y n : Fin 16) (m off on : Machine) : Switch → Prop
  | borrowFlagInverted =>
      (off.registers.v.get Registers.flagRegister = 0 ∨
          off.registers.v.get Registers.flagRegister = 1) ∧
        on = off.setRegister Registers.flagRegister (1 - off.registers.v.get Registers.flagRegister)
  | indexOverflowFlag => ∃ flag, on = off.setRegister Registers.flagRegister flag
  | loadStoreIncrementsIndex => on = off.setIndex ((off.registers.index + x.val + 1) % 4096)
  | shiftUsesVy =>
      (∃ result flag,
        on = (off.setRegister x result).setRegister Registers.flagRegister flag) ∧
        (m.registers.v.get x = m.registers.v.get y → on = off)
  | clipSprites =>
      (∃ pixels flag,
        on = { off with screen := { off.screen with pixels := pixels } }.setRegister
          Registers.flagRegister flag) ∧
        (m.registers.get x % 64 + 8 ≤ 64 → m.registers.get y % 32 + n.val ≤ 32 → on = off)

variable {q : Switch} {x y n : Fin 16}

/-- A governed word asks for a governed operation. -/
theorem exists_operation {word : Int} (governed : word % 65536 ∈ q.words x y n) :
    ∃ operation ∈ q.operations x y n, (Instruction.ofWord word).operation? = some operation := by
  cases q <;> simp only [words, List.mem_cons, List.not_mem_nil, or_false] at governed
  case borrowFlagInverted =>
    obtain same | same := governed
    · exact ⟨_, .head _, Instruction.operation?_alu same⟩
    · exact ⟨_, .tail _ (.head _), Instruction.operation?_alu same⟩
  case shiftUsesVy =>
    obtain same | same := governed
    · exact ⟨_, .head _, Instruction.operation?_alu same⟩
    · exact ⟨_, .tail _ (.head _), Instruction.operation?_alu same⟩
  case indexOverflowFlag =>
    exact ⟨_, .head _, Instruction.operation?_misc 0x1E (by decide) (by decide) (by omega)⟩
  case loadStoreIncrementsIndex =>
    obtain same | same := governed
    · exact ⟨_, .head _, Instruction.operation?_misc 0x55 (by decide) (by decide) (by omega)⟩
    · exact ⟨_, .tail _ (.head _),
        Instruction.operation?_misc 0x65 (by decide) (by decide) (by omega)⟩
  case clipSprites => exact ⟨_, .head _, Instruction.operation?_draw governed⟩

end Config.Switch

namespace Screen

/-- On the frame, clipping makes no difference to where a sprite bit lands. -/
theorem landing_inside {px py : Nat} (column : px < screenWidth) (row : py < screenHeight) :
    landing true px py = landing false px py := by
  have inside : ¬ (screenWidth ≤ px ∨ screenHeight ≤ py) := by omega
  simp only [landing, ↓reduceIte, Bool.false_eq_true, inside, ↓reduceDIte,
    Nat.mod_eq_of_lt column, Nat.mod_eq_of_lt row]

theorem rowHits_inside {x y : Nat} (columns : x + 8 ≤ screenWidth) (row : y < screenHeight)
    (bits : UInt8) : rowHits true x y bits = rowHits false x y bits := by
  apply List.filterMap_congr
  intro c member
  have := List.mem_range.mp member
  rw [landing_inside (by omega) row]

theorem hitsFrom_inside {x y : Nat} {sprite : List UInt8} (columns : x + 8 ≤ screenWidth)
    (rows : y + sprite.length ≤ screenHeight) :
    hitsFrom true x y sprite = hitsFrom false x y sprite := by
  induction sprite generalizing y with
  | nil => rfl
  | cons row rest ih =>
    rw [List.length_cons] at rows
    rw [hitsFrom, hitsFrom, rowHits_inside columns (by omega), ih (by omega)]

/-- A sprite that lies on the frame hits the same pixels, clipped or not. -/
theorem hits_inside {x y : Int} {sprite : List UInt8} (columns : x % 64 + 8 ≤ 64)
    (rows : y % 32 + sprite.length ≤ 32) : hits true x y sprite = hits false x y sprite :=
  hitsFrom_inside (by unfold screenWidth; omega) (by unfold screenHeight; omega)

end Screen

namespace Alu

/-- A switch that does not govern a two-register operation makes no difference to it. -/
theorem apply_set {q : Switch} {f : Alu} {x y : Fin 16} (d : Dialect) (position : Bool)
    (free : ¬ q.Governs (Operation.alu f x.val y.val).word) (a b : UInt8) :
    f.apply (q.set d position) a b = f.apply d a b := by
  have governed : (Operation.alu f x.val y.val).word ∉ q.words x y 0 :=
    fun among => free ⟨x, y, 0, among⟩
  cases q with
  | borrowFlagInverted =>
    cases f
    case subtract => exact (governed (.head _)).elim
    case subtractFrom => exact (governed (.tail _ (.head _))).elim
    all_goals rfl
  | shiftUsesVy =>
    cases f
    case shiftRight => exact (governed (.head _)).elim
    case shiftLeft => exact (governed (.tail _ (.head _))).elim
    all_goals rfl
  | clipSprites | indexOverflowFlag | loadStoreIncrementsIndex => cases f <;> rfl

end Alu

namespace Machine

variable {s : Settings} {q : Switch} {m : Machine}

/-- A switch that does not govern an operation makes no difference to it. -/
theorem run_set {operation : Operation} (d : Dialect) (position : Bool)
    (encodable : operation.Encodable) (free : ¬ q.Governs operation.word) :
    m.run (q.set d position) operation = m.run d operation := by
  cases encodable <;> simp only [run, Registers.slot_val, Outcome.lookup_ok]
  case alu f x y => simp only [runAlu, f.apply_set d position free]
  case draw x y rows =>
    cases q
    case clipSprites => exact (free ⟨x, y, rows, .head _⟩).elim
    all_goals rfl
  case addIndex x =>
    cases q
    case indexOverflowFlag => exact (free ⟨x, 0, 0, .head _⟩).elim
    all_goals rfl
  case storeRegisters x =>
    cases q
    case loadStoreIncrementsIndex => exact (free ⟨x, 0, 0, .head _⟩).elim
    all_goals rfl
  case loadRegisters x =>
    cases q
    case loadStoreIncrementsIndex => exact (free ⟨x, 0, 0, .tail _ (.head _)⟩).elim
    all_goals rfl

theorem exec_set {word : Int} (d : Dialect) (position : Bool)
    (free : ¬ q.Governs (word % 65536)) :
    m.exec (q.set d position) (.ofWord word) = m.exec d (.ofWord word) := by
  unfold exec
  split
  · next operation asked =>
    by_cases system : operation = .system
    · rw [system]
      rfl
    · apply run_set d position (Instruction.operation?_encodable asked)
      rwa [Instruction.word_of_operation? asked system]
  · rfl

/-- A step at a word that a switch does not govern is the same in both positions. -/
theorem step_switched (position : Bool)
    (free : m.mode = .running → ¬ q.Governs (m.memory.readWord m.registers.pc)) :
    m.step (s.switched q position) = m.step s := by
  unfold step
  split
  · next running =>
    have executed : m.fetched.exec (q.set s.dialect position) m.nextInstruction =
        m.fetched.exec s.dialect m.nextInstruction := by
      apply exec_set
      rw [Memory.readWord_emod]
      exact free running
    simp only [cycle, Settings.switched, executed]
    rfl
  · rfl
  · rfl

section Difference

variable {d : Dialect} {x y n : Fin 16}

/-- A byte in a register is overwritten by the next one. -/
@[simp] theorem setRegister_setRegister (m : Machine) (x : Fin 16) (a b : UInt8) :
    (m.setRegister x a).setRegister x b = m.setRegister x b := by
  simp [setRegister, Registers.set]

theorem setRegister_comm (m : Machine) {x y : Fin 16} (apart : x ≠ y) (a b : UInt8) :
    (m.setRegister x a).setRegister y b = (m.setRegister y b).setRegister x a := by
  simp [setRegister, Registers.set, Vector.set_comm a b (Fin.val_ne_of_ne apart)]

/-- A result and a flag are overwritten by the next ones, also if the result is in the flag
register. -/
theorem setRegister_again (m : Machine) (x : Fin 16) (result flag result' flag' : UInt8) :
    (((m.setRegister x result).setRegister Registers.flagRegister flag).setRegister x
        result').setRegister Registers.flagRegister flag' =
      (m.setRegister x result').setRegister Registers.flagRegister flag' := by
  by_cases same : x = Registers.flagRegister
  · simp [same]
  · rw [setRegister_comm _ (Ne.symm same), setRegister_setRegister, setRegister_setRegister]

theorem runAlu_of_flag {f : Alu} {result flag : UInt8}
    (applied : f.apply d (m.registers.v.get x) (m.registers.v.get y) = (result, some flag)) :
    m.runAlu d f x y = (m.setRegister x result).setRegister Registers.flagRegister flag := by
  simp only [runAlu, applied]

/-- A subtraction with the switch on sets the flag to the other bit. -/
theorem runAlu_borrow {f : Alu} {minuend subtrahend : UInt8}
    (applied : ∀ d : Dialect, f.apply d (m.registers.v.get x) (m.registers.v.get y) =
      (minuend - subtrahend, some (d.subtractionFlag minuend subtrahend))) :
    Switch.borrowFlagInverted.Difference x y n m
      (m.runAlu (Switch.borrowFlagInverted.set d false) f x y)
      (m.runAlu (Switch.borrowFlagInverted.set d true) f x y) := by
  have flags : (Switch.borrowFlagInverted.set d true).subtractionFlag minuend subtrahend =
      1 - (Switch.borrowFlagInverted.set d false).subtractionFlag minuend subtrahend := by
    simp only [Dialect.subtractionFlag, Switch.set]
    cases decide (subtrahend ≤ minuend) <;> simp
  have bit : (Switch.borrowFlagInverted.set d false).subtractionFlag minuend subtrahend = 0 ∨
      (Switch.borrowFlagInverted.set d false).subtractionFlag minuend subtrahend = 1 := by
    simp only [Dialect.subtractionFlag, Switch.set]
    cases decide (subtrahend ≤ minuend)
    · exact .inl rfl
    · exact .inr rfl
  rw [runAlu_of_flag (applied _), runAlu_of_flag (applied _), flags]
  refine ⟨?_, ?_⟩
  · rwa [v_setRegister]
  · rw [v_setRegister, setRegister_setRegister]

/-- A shift with the switch on shifts another source. -/
theorem runAlu_shift {f : Alu} (result flag : UInt8 → UInt8)
    (applied : ∀ d : Dialect, f.apply d (m.registers.v.get x) (m.registers.v.get y) =
      let source := if d.shiftUsesVy then m.registers.v.get y else m.registers.v.get x
      (result source, some (flag source))) :
    Switch.shiftUsesVy.Difference x y n m
      (m.runAlu (Switch.shiftUsesVy.set d false) f x y)
      (m.runAlu (Switch.shiftUsesVy.set d true) f x y) := by
  rw [runAlu_of_flag (applied _), runAlu_of_flag (applied _)]
  refine ⟨⟨_, _, (setRegister_again ..).symm⟩, ?_⟩
  intro same
  simp only [same, ite_self]

/-- A sprite that is clipped may hit fewer pixels. -/
theorem runDraw_clip : Switch.clipSprites.Difference x y n m
    (m.runDraw (Switch.clipSprites.set d false) x y n.val)
    (m.runDraw (Switch.clipSprites.set d true) x y n.val) := by
  constructor
  · let drawn := m.screen.draw (m.registers.get x) (m.registers.get y)
      (m.memory.readBytes m.registers.index n.val) true
    refine ⟨drawn.1.pixels, lowByte (if drawn.2 then 1 else 0), ?_⟩
    exact (setRegister_setRegister { m with screen := drawn.1 } Registers.flagRegister _ _).symm
  · intro columns rows
    have length : (m.memory.readBytes m.registers.index n.val).length = n.val := by
      simp [Memory.readBytes]
    rw [← length] at rows
    simp only [runDraw, Screen.draw, Switch.set, Screen.hits_inside columns rows]
    rfl

theorem run_difference {operation : Operation} (among : operation ∈ q.operations x y n) :
    q.Difference x y n m (m.run (q.set d false) operation).machine
      (m.run (q.set d true) operation).machine := by
  cases q <;> simp only [Switch.operations, List.mem_cons, List.not_mem_nil, or_false] at among
  case borrowFlagInverted =>
    obtain rfl | rfl := among
    · simp only [run, Registers.slot_val, Outcome.lookup_ok, Outcome.machine_done]
      exact runAlu_borrow fun _ => rfl
    · simp only [run, Registers.slot_val, Outcome.lookup_ok, Outcome.machine_done]
      exact runAlu_borrow fun _ => rfl
  case shiftUsesVy =>
    obtain rfl | rfl := among
    · simp only [run, Registers.slot_val, Outcome.lookup_ok, Outcome.machine_done]
      exact runAlu_shift (· >>> 1) (· &&& 1) fun _ => rfl
    · simp only [run, Registers.slot_val, Outcome.lookup_ok, Outcome.machine_done]
      exact runAlu_shift (· <<< 1) (· >>> 7) fun _ => rfl
  case indexOverflowFlag =>
    subst among
    simp only [run, Registers.slot_val, Outcome.lookup_ok, Outcome.machine_done]
    exact ⟨_, rfl⟩
  case loadStoreIncrementsIndex =>
    have inside : (x.val : Int) < 16 := by have := x.isLt; omega
    obtain rfl | rfl := among
    · simp only [run, blockEnd, inside, if_true, Outcome.machine_done]
      rfl
    · simp only [run, blockEnd, inside, if_true, Outcome.machine_done]
      rfl
  case clipSprites =>
    subst among
    simp only [run, Registers.slot_val, Outcome.lookup_ok, Outcome.machine_done]
    exact runDraw_clip

end Difference

/-- A governed word is executed to its end in both positions, and the machine runs on. -/
theorem WellFormed.step_of_governed {x y n : Fin 16} (ok : m.WellFormed)
    (running : m.mode = .running)
    (governed : m.memory.readWord m.registers.pc ∈ q.words x y n) :
    ∃ operation ∈ q.operations x y n, ∀ s : Settings,
      (m.step s).answer = .ok .continued ∧
        (m.step s).machine = (m.fetched.run s.dialect operation).machine := by
  rw [← Memory.readWord_emod] at governed
  obtain ⟨operation, among, asked⟩ := Switch.exists_operation governed
  have encodable := Instruction.operation?_encodable asked
  have noReturn : operation ≠ .ret := by
    rintro rfl
    cases q <;> simp [Switch.operations] at among
  have noCall : ∀ target, operation ≠ .call target := by
    rintro target rfl
    cases q <;> simp [Switch.operations] at among
  have noWait : ∀ x : Fin 16, operation ≠ .awaitKey x.val := by
    rintro x rfl
    cases q <;> simp [Switch.operations] at among
  refine ⟨operation, among, ?_⟩
  intro s
  have executed : m.fetched.exec s.dialect m.nextInstruction =
      m.fetched.run s.dialect operation := by
    simp only [Machine.exec, nextInstruction_eq, asked]
  have finished := ok.fetched.answer_run (d := s.dialect) encodable noReturn noCall
  have mode : (m.fetched.run s.dialect operation).machine.mode = .running :=
    (run_mode encodable noWait).trans running
  rw [← executed] at finished mode ⊢
  rw [step_of_running s running, cycle_of_done (Outcome.eq_done finished)]
  refine ⟨?_, rfl⟩
  simp only [Outcome.answer_done, eventAfter, mode, reduceCtorEq, ↓reduceIte]

/-- An action that executes no governed word is the same in both positions. -/
theorem WellFormed.perform_switched (ok : m.WellFormed) {position : Bool} {a : Action}
    (single : a.IsSingle)
    (free : ∀ e ∈ m.executedBy (s.switched q position) a, ¬ q.Governs e.word) (other : Bool) :
    m.perform (s.switched q other) a = m.perform (s.switched q position) a := by
  cases a with
  | step =>
    have freeWord : m.mode = .running → ¬ q.Governs (m.memory.readWord m.registers.pc) := by
      rintro running ⟨x, y, n, governed⟩
      obtain ⟨_, _, finished⟩ := ok.step_of_governed running governed
      rw [executedBy_step running (finished _).1] at free
      exact free _ (List.mem_singleton_self _) ⟨x, y, n, governed⟩
    simp only [Machine.perform, step_switched _ freeWord]
  | load _ | reset | setKey _ _ | tick | takeDirty => rfl
  | frames _ _ | execute _ => exact single.elim

/-- Actions that execute no governed word are the same in both positions. -/
theorem WellFormed.after_switched (ok : m.WellFormed) {position : Bool} {actions : List Action}
    (single : ∀ a ∈ actions, a.IsSingle)
    (free : ∀ e ∈ m.history (s.switched q position) actions, ¬ q.Governs e.word) (other : Bool) :
    m.exchanges (s.switched q other) actions = m.exchanges (s.switched q position) actions ∧
      m.after (s.switched q other) actions = m.after (s.switched q position) actions := by
  induction actions generalizing m with
  | nil => simp only [exchanges, after_nil, and_self]
  | cons a rest ih =>
    obtain ⟨isSingle, restSingle⟩ := List.forall_mem_cons.mp single
    have same := ok.perform_switched isSingle
      (fun e member => free e (List.mem_append_left _ member)) other
    obtain ⟨answers, machine⟩ := ih (ok.perform (s := s.switched q position) a) restSingle
      (fun e member => free e (List.mem_append_right _ member))
    simp only [exchanges, after_cons, same, answers, machine, and_self]

/-- From one well-formed machine, with a seed, the positions of a switch of the dialect cannot be
told apart by any actions short of frames while no governed word is executed: all answers and the
machines stay equal. A governed word is executed to its end in both positions, and the machines
after it differ in nothing but what the switch is about. -/
theorem dialectLocality_of_seeded {seed : Int} (seeded : s.seed = some seed) (ok : m.WellFormed)
    (q : Switch) :
    (∀ (position : Bool) {exchanges₁ exchanges₂ : List Exchange} {m₁ m₂ : Machine},
      Transcript (s.switched q position) m exchanges₁ m₁ →
        Transcript (s.switched q !position) m exchanges₂ m₂ →
          exchanges₁.map Exchange.action = exchanges₂.map Exchange.action →
            (∀ a ∈ exchanges₁.map Exchange.action, a.IsSingle) →
              (∀ e ∈ m.history (s.switched q position) (exchanges₁.map Exchange.action),
                ¬ q.Governs e.word) →
                exchanges₁ = exchanges₂ ∧ m₁ = m₂) ∧
      ∀ x y n : Fin 16, m.mode = .running →
        m.memory.readWord m.registers.pc ∈ q.words x y n →
          let off := m.step (s.switched q false)
          let on := m.step (s.switched q true)
          off.answer = .ok .continued ∧ on.answer = .ok .continued ∧
            q.Difference x y n m off.machine on.machine := by
  constructor
  · intro position exchanges₁ exchanges₂ m₁ m₂ first second sameActions single free
    have seededAt (position : Bool) : (s.switched q position).seed = some seed := seeded
    obtain ⟨answers₁, end₁⟩ := first.eq_of_seeded (seededAt position)
    obtain ⟨answers₂, end₂⟩ := second.eq_of_seeded (seededAt _)
    obtain ⟨sameAnswers, sameMachine⟩ := ok.after_switched single free !position
    rw [answers₁, end₁, answers₂, end₂, ← sameActions]
    exact ⟨sameAnswers.symm, sameMachine.symm⟩
  · intro x y n running governed off on
    obtain ⟨operation, among, executed⟩ := ok.step_of_governed running governed
    obtain ⟨offAnswer, offMachine⟩ := executed (s.switched q false)
    obtain ⟨onAnswer, onMachine⟩ := executed (s.switched q true)
    refine ⟨offAnswer, onAnswer, ?_⟩
    have difference := run_difference (m := m.fetched) (d := s.dialect) among
    change q.Difference x y n m (m.step _).machine (m.step _).machine
    rw [offMachine, onMachine]
    -- fetching leaves the registers alone that the difference is about
    cases q <;> exact difference

/-- A machine that sets two registers to different values and then stands at a shift of one of them
by the other: what it does up to there, and the shift in both positions. -/
theorem dialectLocality_of_seeded_shift :
    let s : Settings := { seed := some 7 }
    let off := s.switched .shiftUsesVy false
    let on := s.switched .shiftUsesVy true
    let m := ((initial s).load s [0x60, 0x03, 0x61, 0x0C, 0x80, 0x16]).machine
    let actions := [.step, .tick, .step, .setKey 3 true]
    let m' := m.after off actions
    m.WellFormed ∧ m.history on actions = [⟨0x200, 0x6003⟩, ⟨0x202, 0x610C⟩] ∧
      (∀ e ∈ m.history on actions, ¬ Switch.shiftUsesVy.Governs e.word) ∧
      m.exchanges on actions = m.exchanges off actions ∧ m.after on actions = m' ∧
      m'.WellFormed ∧ m'.registers.v.get 0 = 3 ∧ m'.registers.v.get 1 = 12 ∧
      m'.memory.readWord m'.registers.pc ∈ Switch.shiftUsesVy.words 0 1 0 ∧
      (m'.step off).answer = .ok .continued ∧ (m'.step on).answer = .ok .continued ∧
      Switch.shiftUsesVy.Difference 0 1 0 m' (m'.step off).machine (m'.step on).machine := by
  intro s off on m actions m'
  have ok : m.WellFormed := (wellFormed_initial s).load _
  have single : ∀ a ∈ actions, a.IsSingle := by simp [actions, Action.IsSingle]
  have placed : m.memory = Memory.initial.placeProgram [0x60, 0x03, 0x61, 0x0C, 0x80, 0x16]
      (by decide) := rfl
  have words : m.memory.readWord 0x200 = 0x6003 ∧ m.memory.readWord 0x202 = 0x610C ∧
      m.memory.readWord 0x204 = 0x8016 := by
    simp [placed, Memory.readWord, Memory.placeProgram, Memory.read_place, Address.ofInt,
      programStart]
  obtain ⟨word, word', shift⟩ := words
  let m₁ := m.fetched.setRegister 0 3
  let m₂ := m₁.tick.fetched.setRegister 1 12
  have first (position : Bool) :
      (m.step (s.switched .shiftUsesVy position)).answer = .ok .continued ∧
        (m.step (s.switched .shiftUsesVy position)).machine = m₁ := by
    apply step_of_operation _ (.setByte 0 3) rfl _ rfl rfl
    rw [show m.registers.pc = 0x200 from rfl, word]
    rfl
  have second (position : Bool) :
      (m₁.tick.step (s.switched .shiftUsesVy position)).answer = .ok .continued ∧
        (m₁.tick.step (s.switched .shiftUsesVy position)).machine = m₂ := by
    apply step_of_operation _ (.setByte 1 12) rfl _ rfl rfl
    rw [show m₁.tick.registers.pc = 0x202 from rfl, show m₁.tick.memory = m.memory from rfl, word']
    rfl
  have machine₁ : (m.step on).machine = m₁ := (first true).2
  have machine₁' : (m.step off).machine = m₁ := (first false).2
  have machine₂' : (m₁.tick.step off).machine = m₂ := (second false).2
  have history : m.history on actions = [⟨0x200, 0x6003⟩, ⟨0x202, 0x610C⟩] := by
    have executed : m.executedBy on .step = [⟨0x200, 0x6003⟩] := by
      rw [executedBy_step rfl (first true).1, show m.registers.pc = 0x200 from rfl, word]
    have executed' : m₁.tick.executedBy on .step = [⟨0x202, 0x610C⟩] := by
      rw [executedBy_step rfl (second true).1, show m₁.tick.registers.pc = 0x202 from rfl,
        show m₁.tick.memory = m.memory from rfl, word']
    simp only [actions, Machine.history, executed, perform, Outcome.map, machine₁,
      Outcome.machine_done, executed']
    rfl
  have free : ∀ e ∈ m.history on actions, ¬ Switch.shiftUsesVy.Governs e.word := by
    rintro e member ⟨x, y, n, governed⟩
    simp only [history, List.mem_cons, List.not_mem_nil, or_false] at member
    simp only [Switch.words, List.mem_cons, List.not_mem_nil, or_false] at governed
    obtain rfl | rfl := member <;> simp only at governed <;> omega
  have ended : m' = (m₂.setKey 3 true).machine := by
    simp only [m', actions, after_cons, after_nil, perform, Outcome.map, machine₁',
      Outcome.machine_done, machine₂']
  have ok' : m'.WellFormed := (Run.of_after (s := off) m actions).wellFormed ok
  have governed : m'.memory.readWord m'.registers.pc ∈ Switch.shiftUsesVy.words 0 1 0 := by
    rw [ended, show (m₂.setKey 3 true).machine.memory = m.memory from rfl,
      show (m₂.setKey 3 true).machine.registers.pc = 0x204 from rfl, shift]
    exact .head _
  obtain ⟨blind, -⟩ := dialectLocality_of_seeded (s := s) rfl ok .shiftUsesVy
  obtain ⟨-, differs⟩ := dialectLocality_of_seeded (s := s) rfl ok' .shiftUsesVy
  obtain ⟨sameAnswers, same⟩ :=
    blind true (.of_after m actions) (.of_after m actions) rfl single free
  have running : m'.mode = .running := by
    rw [ended]
    rfl
  obtain ⟨offAnswer, onAnswer, difference⟩ := differs 0 1 0 running governed
  exact ⟨ok, history, free, sameAnswers, same, ok', by rw [ended]; rfl, by rw [ended]; rfl,
    governed, offAnswer, onAnswer, difference⟩

end Machine

end Chip8
