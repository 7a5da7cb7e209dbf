import Chip8.Proofs.Arithmetic
import Chip8.Proofs.Effects

/-! # What a step can change

Every operation has a footprint, the parts of the machine that it may change, and leaves the other
parts as they are. The word at the program counter tells the footprint of a step, and where the
program counter goes.
-/

namespace Chip8

/-- The parts of a machine that instructions can change, apart from the program counter. -/
inductive Part where
  | memory
  | screen
  | sp
  | stack
  | index
  | register (k : Fin 16)
  | delay
  | sound
  | random
  | mode
  | waitRegister
  /-- The latch of the keypad. -/
  | edges
  /-- The levels of the keys. -/
  | down

def Part.Same (m m' : Machine) : Part → Prop
  | memory => m'.memory = m.memory
  | screen => m'.screen = m.screen
  | sp => m'.registers.sp = m.registers.sp
  | stack => m'.registers.stack = m.registers.stack
  | index => m'.registers.index = m.registers.index
  | register k => m'.registers.v.get k = m.registers.v.get k
  | delay => m'.timers.delay = m.timers.delay
  | sound => m'.timers.sound = m.timers.sound
  | random => m'.random = m.random
  | mode => m'.mode = m.mode
  | waitRegister => m'.waitRegister = m.waitRegister
  | edges => m'.keypad.edges = m.keypad.edges
  | down => m'.keypad.down = m.keypad.down

def Part.IsRegister (x : Int) (p : Part) : Prop := ∃ k : Fin 16, k.val = x ∧ p = register k

def Part.IsFlag (p : Part) : Prop := p = register Registers.flagRegister

def Operation.Touches (d : Dialect) (p : Part) : Operation → Prop
  | .system | .jump _ | .jumpOffset _ => False
  | .skipByte _ _ _ | .skipRegister _ _ _ | .skipKey _ _ => False
  | .clearScreen => p = .screen
  | .ret | .call _ => p = .sp ∨ p = .stack
  | .setByte x _ | .addByte x _ | .readDelay x => p.IsRegister x
  | .alu f x _ => p.IsRegister x ∨ (f.SetsFlag ∧ p.IsFlag)
  | .setIndex _ | .glyph _ => p = .index
  | .addIndex _ => p = .index ∨ (d.indexOverflowFlag = true ∧ p.IsFlag)
  | .random x _ => p = .random ∨ p.IsRegister x
  | .draw _ _ _ => p = .screen ∨ p.IsFlag
  | .awaitKey _ => p = .mode ∨ p = .waitRegister ∨ p = .edges
  | .setDelay _ => p = .delay
  | .setSound _ => p = .sound
  | .storeDecimal _ => p = .memory
  | .storeRegisters _ => p = .memory ∨ (d.loadStoreIncrementsIndex = true ∧ p = .index)
  | .loadRegisters x =>
      (∃ k : Fin 16, (k.val : Int) ≤ x ∧ p = .register k) ∨
        (d.loadStoreIncrementsIndex = true ∧ p = .index)

/-- A return moves the stack pointer only. -/
theorem Registers.pop_eq {r r' : Registers} {address pc : Int}
    (popped : r.pop pc = .ok (address, r')) : r' = { r with sp := r'.sp } := by
  unfold Registers.pop at popped
  split at popped
  · cases popped
  · split at popped <;> cases popped
    rfl

/-- A call changes the stack and the stack pointer only. -/
theorem Registers.push_eq {r r' : Registers} {address pc : Int}
    (pushed : r.push address pc = .ok r') : r' = { r with stack := r'.stack, sp := r'.sp } := by
  unfold Registers.push at pushed
  split at pushed <;> cases pushed
  rfl

namespace Machine

variable {d : Dialect} {m m' m'' : Machine} {p : Part} {operation : Operation}

theorem same_refl (p : Part) (m : Machine) : p.Same m m := by
  cases p <;> exact rfl

theorem same_trans (first : p.Same m m') (second : p.Same m' m'') : p.Same m m'' := by
  cases p <;> exact Eq.trans second first

theorem same_skipIf (p : Part) (m : Machine) (condition : Bool) :
    p.Same m (m.skipIf condition) := by
  cases condition <;> exact same_refl p m

theorem same_setRegister {x : Fin 16} (other : p ≠ .register x) (m : Machine) (b : UInt8) :
    p.Same m (m.setRegister x b) := by
  cases p with
  | register k => exact (get_setRegister m x k b).trans (if_neg fun same => other (by rw [same]))
  | _ => exact rfl

theorem same_setIndex (other : p ≠ .index) (m : Machine) (index : Int) :
    p.Same m (m.setIndex index) := by
  cases p with
  | index => exact absurd rfl other
  | _ => exact rfl

theorem same_withScreen (other : p ≠ .screen) (m : Machine) (screen : Screen) :
    p.Same m { m with screen := screen } := by
  cases p with
  | screen => exact absurd rfl other
  | _ => exact rfl

theorem same_storeAtIndex (other : p ≠ .memory) (m : Machine) (bytes : List UInt8) :
    p.Same m (m.storeAtIndex bytes) := by
  cases p with
  | memory => exact absurd rfl other
  | _ => exact rfl

theorem same_loadFromIndex {count : Nat}
    (other : ∀ k : Fin 16, k.val < count → p ≠ .register k) (m : Machine) :
    p.Same m (m.loadFromIndex count) := by
  rw [loadFromIndex]
  cases p with
  | register k =>
    have outside : ¬ k.val < count := fun inside => other k inside rfl
    exact (Vector.getElem_ofFn k.isLt).trans (if_neg outside)
  | _ => exact rfl

theorem same_blockEnd (other : ¬ (d.loadStoreIncrementsIndex = true ∧ p = .index)) (x : Int)
    (m : Machine) (log : List LogEntry) : p.Same m (m.blockEnd d x log).machine := by
  unfold blockEnd passBlock
  split
  · split
    · next increments => exact same_setIndex (fun isIndex => other ⟨increments, isIndex⟩) m _
    · exact same_refl p m
  · exact same_refl p m

/-- Only the stack and the stack pointer tell machines with other calls apart. -/
theorem same_withCalls (noPointer : p ≠ .sp) (noStack : p ≠ .stack) (m : Machine)
    (stack : Vector Int stackDepth) (sp : Nat) (pc : Int) :
    p.Same m ((m.withCalls stack sp).jump pc) := by
  cases p with
  | sp => exact absurd rfl noPointer
  | stack => exact absurd rfl noStack
  | _ => exact rfl

/-- An operation leaves alone what is outside of its footprint. -/
theorem run_same (encodable : operation.Encodable) (untouched : ¬ operation.Touches d p)
    (m : Machine) : p.Same m (m.run d operation).machine := by
  have noRegister {x : Fin 16} (other : ¬ p.IsRegister x.val) : p ≠ .register x :=
    fun same => other ⟨x, rfl, same⟩
  cases encodable <;>
    simp only [run, Registers.slot_val, assignment_val, Outcome.lookup_ok, Outcome.machine_done]
  case clearScreen => exact same_withScreen untouched m _
  case ret =>
    rw [Operation.Touches, not_or] at untouched
    cases popped : m.registers.pop m.fetchPc with
    | error reason => exact same_refl p m
    | ok found =>
      obtain ⟨address, registers⟩ := found
      rw [Registers.pop_eq popped]
      exact same_withCalls untouched.1 untouched.2 m m.registers.stack registers.sp address
  case system | jump | jumpOffset => exact same_refl p m
  case call target =>
    rw [Operation.Touches, not_or] at untouched
    split
    · exact same_refl p m
    · next registers pushed =>
      rw [Registers.push_eq pushed]
      exact same_withCalls untouched.1 untouched.2 m registers.stack registers.sp target.val
  case skipByte | skipRegister | skipKey => exact same_skipIf p m _
  case setByte x kk => exact same_setRegister (noRegister untouched) m kk
  case addByte x kk => exact same_setRegister (noRegister untouched) m _
  case alu f x y =>
    rw [Operation.Touches, not_or] at untouched
    have calculates := calculates_runAlu d f x y m
    obtain ⟨v, same⟩ : ∃ v, m.runAlu d f x y =
        { m with registers := { m.registers with v := v } } := ⟨_, calculates.elsewhere⟩
    cases p with
    | register k =>
      refine calculates.others k ?_ ?_
      · rintro rfl
        exact untouched.1 ⟨k, rfl, rfl⟩
      · rintro sets rfl
        exact untouched.2 ⟨sets, rfl⟩
    | _ =>
      rw [same]
      exact rfl
  case setIndex => exact same_setIndex untouched m _
  case random x mask =>
    rw [Operation.Touches, not_or] at untouched
    have drawn : p.Same m { m with random := m.random.next.2 } := by
      cases p with
      | random => exact absurd rfl untouched.1
      | _ => exact rfl
    exact same_trans drawn (same_setRegister (noRegister untouched.2) _ _)
  case draw x y rows =>
    rw [Operation.Touches, not_or] at untouched
    exact same_trans (same_withScreen untouched.1 m _) (same_setRegister untouched.2 _ _)
  case readDelay x =>
    simp only [assignment, Registers.slot_val]
    cases exactByte m.timers.delay with
    | error reason => exact same_refl p m
    | ok b => exact same_setRegister (noRegister untouched) m b
  case awaitKey x =>
    cases p with
    | mode => exact absurd (.inl rfl) untouched
    | waitRegister => exact absurd (.inr (.inl rfl)) untouched
    | edges => exact absurd (.inr (.inr rfl)) untouched
    | _ => exact rfl
  case setDelay x =>
    cases p with
    | delay => exact absurd rfl untouched
    | _ => exact rfl
  case setSound x =>
    cases p with
    | sound => exact absurd rfl untouched
    | _ => exact rfl
  case addIndex x =>
    rw [Operation.Touches, not_or] at untouched
    unfold runAddIndex
    split
    · next raises =>
      exact same_trans (same_setIndex untouched.1 m _)
        (same_setRegister (fun isFlag => untouched.2 ⟨raises, isFlag⟩) _ _)
    · exact same_setIndex untouched.1 m _
  case glyph x => exact same_setIndex untouched m _
  case storeDecimal x => exact same_storeAtIndex untouched m _
  case storeRegisters x =>
    rw [Operation.Touches, not_or] at untouched
    exact same_trans (same_storeAtIndex untouched.1 m _) (same_blockEnd untouched.2 x.val _ _)
  case loadRegisters x =>
    rw [Operation.Touches, not_or] at untouched
    refine same_trans (same_loadFromIndex ?_ m) (same_blockEnd untouched.2 x.val _ _)
    intro k inside same
    exact untouched.1 ⟨k, by omega, same⟩

end Machine

/-- The instructions that set the flag register beside their first register. -/
def Instruction.SetsFlag (d : Dialect) (i : Instruction) : Prop :=
  (i.op = 0x8 ∧ (4 ≤ i.n ∧ i.n ≤ 7 ∨ i.n = 0xE)) ∨ i.op = 0xD ∨
    (i.op = 0xF ∧ i.kk = 0x1E ∧ d.indexOverflowFlag = true)

def Part.ChangedBy (d : Dialect) (i : Instruction) : Part → Prop
  | memory => i.op = 0xF ∧ (i.kk = 0x33 ∨ i.kk = 0x55)
  | screen => i.raw = 0x00E0 ∨ i.op = 0xD
  | sp | stack => i.op = 0x2 ∨ i.raw = 0x00EE
  | index =>
      i.op = 0xA ∨ (i.op = 0xF ∧ (i.kk = 0x1E ∨ i.kk = 0x29)) ∨
        (i.op = 0xF ∧ (i.kk = 0x55 ∨ i.kk = 0x65) ∧ d.loadStoreIncrementsIndex = true)
  | register k =>
      (k.val = i.x ∧ (i.op = 0x6 ∨ i.op = 0x7 ∨ i.op = 0x8 ∨ i.op = 0xC ∨
        (i.op = 0xF ∧ i.kk = 0x07))) ∨
      (k.val ≤ i.x ∧ i.op = 0xF ∧ i.kk = 0x65) ∨
      (k = Registers.flagRegister ∧ i.SetsFlag d)
  | delay => i.op = 0xF ∧ i.kk = 0x15
  | sound => i.op = 0xF ∧ i.kk = 0x18
  | random => i.op = 0xC
  | mode | waitRegister | edges => i.op = 0xF ∧ i.kk = 0x0A
  | down => False

/-- The footprint of an operation as the fields of its word tell it. -/
theorem Part.changedBy_of_touches {d : Dialect} {p : Part} {word : Int} {operation : Operation}
    (asked : (Instruction.ofWord word).operation? = some operation)
    (touched : operation.Touches d p) : p.ChangedBy d (.ofWord word) := by
  have named : operation ≠ .system := by
    rintro rfl
    exact touched
  have same := Instruction.word_of_operation? asked named
  -- The words of most operations are a nibble, a register and a byte.
  have fields (o x : Fin 16) (kk : Int) (low : 0 ≤ kk) (high : kk < 256)
      (word : operation.word = 0x1000 * o.val + 0x100 * x.val + kk) :=
    Instruction.fields_of_word o x kk low high (same.symm.trans word)
  have misc (x : Fin 16) (kk : Int) (low : 0 ≤ kk) (high : kk < 256)
      (word : operation.word = 0xF000 + kk + 0x100 * x.val) :=
    fields 0xF x kk low high (by omega)
  cases Instruction.operation?_encodable asked with
  | system | jump | jumpOffset | skipByte | skipRegister | skipKey => exact touched.elim
  | clearScreen =>
    cases touched
    exact .inl same.symm
  | ret => obtain rfl | rfl := touched <;> exact .inr same.symm
  | call target =>
    have op := Instruction.op_of_word 0x2 target same.symm
    obtain rfl | rfl := touched <;> exact .inl op
  | setIndex target =>
    obtain rfl := touched
    exact .inl (Instruction.op_of_word 0xA target same.symm)
  | setByte x kk =>
    have bound := kk.toNat_lt
    obtain ⟨op, register, -⟩ := fields 0x6 x kk.toNat (by omega) (by omega) rfl
    obtain ⟨k, isX, rfl⟩ := touched
    exact .inl ⟨isX.trans register.symm, .inl op⟩
  | addByte x kk =>
    have bound := kk.toNat_lt
    obtain ⟨op, register, -⟩ := fields 0x7 x kk.toNat (by omega) (by omega) rfl
    obtain ⟨k, isX, rfl⟩ := touched
    exact .inl ⟨isX.trans register.symm, .inr (.inl op)⟩
  | random x mask =>
    have bound := mask.toNat_lt
    obtain ⟨op, register, -⟩ := fields 0xC x mask.toNat (by omega) (by omega) rfl
    obtain rfl | ⟨k, isX, rfl⟩ := touched
    · exact op
    · exact .inl ⟨isX.trans register.symm, .inr (.inr (.inr (.inl op)))⟩
  | alu f x y =>
    have nibble : 0 ≤ f.nibble ∧ f.nibble < 16 := by cases f <;> decide
    obtain ⟨op, register, byte⟩ := fields 0x8 x (0x10 * y.val + f.nibble) (by omega) (by omega)
      (by simp only [Operation.word]; omega)
    obtain ⟨k, isX, rfl⟩ | ⟨sets, rfl⟩ := touched
    · exact .inl ⟨isX.trans register.symm, .inr (.inr (.inl op))⟩
    · refine .inr (.inr ⟨rfl, .inl ⟨op, ?_⟩⟩)
      rw [(Instruction.nibbles_of_kk y f.nibble nibble.1 nibble.2 byte).2]
      cases f with
      | copy | or | and | xor => exact sets.elim
      | add | subtract | shiftRight | subtractFrom | shiftLeft => decide
  | draw x y rows =>
    obtain ⟨op, -, -⟩ := fields 0xD x (0x10 * y.val + rows.val) (by omega) (by omega)
      (by simp only [Operation.word]; omega)
    obtain rfl | rfl := touched
    · exact .inr op
    · exact .inr (.inr ⟨rfl, .inr (.inl op)⟩)
  | readDelay x =>
    obtain ⟨op, register, byte⟩ := misc x 0x07 (by decide) (by decide) rfl
    obtain ⟨k, isX, rfl⟩ := touched
    exact .inl ⟨isX.trans register.symm, .inr (.inr (.inr (.inr ⟨op, byte⟩)))⟩
  | awaitKey x =>
    obtain ⟨op, -, byte⟩ := misc x 0x0A (by decide) (by decide) rfl
    obtain rfl | rfl | rfl := touched <;> exact ⟨op, byte⟩
  | setDelay x =>
    obtain ⟨op, -, byte⟩ := misc x 0x15 (by decide) (by decide) rfl
    obtain rfl := touched
    exact ⟨op, byte⟩
  | setSound x =>
    obtain ⟨op, -, byte⟩ := misc x 0x18 (by decide) (by decide) rfl
    obtain rfl := touched
    exact ⟨op, byte⟩
  | addIndex x =>
    obtain ⟨op, -, byte⟩ := misc x 0x1E (by decide) (by decide) rfl
    obtain rfl | ⟨raises, rfl⟩ := touched
    · exact .inr (.inl ⟨op, .inl byte⟩)
    · exact .inr (.inr ⟨rfl, .inr (.inr ⟨op, byte, raises⟩)⟩)
  | glyph x =>
    obtain ⟨op, -, byte⟩ := misc x 0x29 (by decide) (by decide) rfl
    obtain rfl := touched
    exact .inr (.inl ⟨op, .inr byte⟩)
  | storeDecimal x =>
    obtain ⟨op, -, byte⟩ := misc x 0x33 (by decide) (by decide) rfl
    obtain rfl := touched
    exact ⟨op, .inl byte⟩
  | storeRegisters x =>
    obtain ⟨op, -, byte⟩ := misc x 0x55 (by decide) (by decide) rfl
    obtain rfl | ⟨increments, rfl⟩ := touched
    · exact ⟨op, .inr byte⟩
    · exact .inr (.inr ⟨op, .inl byte, increments⟩)
  | loadRegisters x =>
    obtain ⟨op, register, byte⟩ := misc x 0x65 (by decide) (by decide) rfl
    obtain ⟨k, inside, rfl⟩ | ⟨increments, rfl⟩ := touched
    · exact .inr (.inl ⟨by omega, op, byte⟩)
    · exact .inr (.inr ⟨op, .inr byte, increments⟩)

inductive Instruction.Skips (m : Machine) (i : Instruction) : Prop
  | byteEqual {x : Fin 16} : i.op = 0x3 → i.x = x.val → m.registers.get x = i.kk → Skips m i
  | byteDiffers {x : Fin 16} : i.op = 0x4 → i.x = x.val → m.registers.get x ≠ i.kk → Skips m i
  | registersEqual {x y : Fin 16} : i.op = 0x5 → i.n = 0 → i.x = x.val → i.y = y.val →
      m.registers.v.get x = m.registers.v.get y → Skips m i
  | registersDiffer {x y : Fin 16} : i.op = 0x9 → i.n = 0 → i.x = x.val → i.y = y.val →
      m.registers.v.get x ≠ m.registers.v.get y → Skips m i
  | keyDown {x : Fin 16} : i.op = 0xE → i.kk = 0x9E → i.x = x.val →
      m.keypad.isPressed (m.registers.get x) = true → Skips m i
  | keyUp {x : Fin 16} : i.op = 0xE → i.kk = 0xA1 → i.x = x.val →
      m.keypad.isPressed (m.registers.get x) = false → Skips m i

/-- Where an instruction takes the program counter, on the machine that is to fetch it. -/
structure Instruction.Successor (m : Machine) (i : Instruction) (pc : Int) : Prop where
  jumps : i.op = 0x1 ∨ i.op = 0x2 → pc = i.nnn
  jumpsOffset : i.op = 0xB → pc = (m.registers.get Registers.offsetRegister + i.nnn) % 4096
  returns : i.raw = 0x00EE → m.registers.openCalls.getLast? = some pc
  awaits : i.op = 0xF → i.kk = 0x0A → pc = m.registers.pc
  skips : i.Skips m → pc = (m.registers.pc + 4) % 4096
  follows : i.op ≠ 0x1 → i.op ≠ 0x2 → i.op ≠ 0xB → i.raw ≠ 0x00EE →
    ¬ (i.op = 0xF ∧ i.kk = 0x0A) → ¬ i.Skips m → pc = (m.registers.pc + 2) % 4096

/-- An operation that leaves the program counter alone. -/
def Operation.IsSequential : Operation → Prop
  | .jump _ | .call _ | .ret | .jumpOffset _ | .awaitKey _ => False
  | .skipByte _ _ _ | .skipRegister _ _ _ | .skipKey _ _ => False
  | _ => True

namespace Machine

variable {s : Settings} {d : Dialect} {m : Machine} {operation : Operation} {word : Int}

theorem pc_blockEnd (m : Machine) (x : Int) (log : List LogEntry) :
    (m.blockEnd d x log).machine.registers.pc = m.registers.pc := by
  unfold blockEnd passBlock
  split
  · split <;> rfl
  · rfl

/-- Sequential operations do not move the program counter. -/
theorem run_pc (encodable : operation.Encodable) (sequential : operation.IsSequential) :
    (m.run d operation).machine.registers.pc = m.registers.pc := by
  cases encodable <;>
    simp only [run, Registers.slot_val, assignment_val, Outcome.lookup_ok, Outcome.machine_done]
  case jump | call | ret | jumpOffset | awaitKey | skipByte | skipRegister | skipKey =>
    exact sequential.elim
  case alu => unfold runAlu; split <;> rfl
  case addIndex => unfold runAddIndex; split <;> rfl
  case readDelay x => cases assignment x.val m.timers.delay <;> rfl
  case storeRegisters => exact pc_blockEnd (m.storeAtIndex _) _ _
  case loadRegisters => rw [pc_blockEnd, loadFromIndex]
  all_goals rfl

/-- Behind a fetched skip the counter is past one word or past two. -/
theorem pc_skipIf_fetched (m : Machine) (condition : Bool) :
    (m.fetched.skipIf condition).registers.pc =
      if condition then (m.registers.pc + 4) % 4096 else (m.registers.pc + 2) % 4096 := by
  cases condition with
  | false => rfl
  | true =>
    change wrapAddress (wrapAddress (m.registers.pc + 2) + 2) = (m.registers.pc + 4) % 4096
    unfold wrapAddress
    omega

theorem run_skipByte (m : Machine) (ifEqual : Bool) (x : Fin 16) (kk : Int) :
    (m.fetched.run d (.skipByte ifEqual x.val kk)).machine =
      m.fetched.skipIf (decide (m.registers.get x = kk) == ifEqual) := by
  simp only [run, Registers.slot_val, Outcome.lookup_ok, Outcome.machine_done]
  rfl

theorem run_skipRegister (m : Machine) (ifEqual : Bool) (x y : Fin 16) :
    (m.fetched.run d (.skipRegister ifEqual x.val y.val)).machine =
      m.fetched.skipIf (decide (m.registers.v.get x = m.registers.v.get y) == ifEqual) := by
  simp only [run, Registers.slot_val, Outcome.lookup_ok, Outcome.machine_done]
  rfl

theorem run_skipKey (m : Machine) (ifDown : Bool) (x : Fin 16) :
    (m.fetched.run d (.skipKey ifDown x.val)).machine =
      m.fetched.skipIf (m.keypad.isPressed (m.registers.get x) == ifDown) := by
  simp only [run, Registers.slot_val, Outcome.lookup_ok, Outcome.machine_done]
  rfl

/-- A skip whose condition holds passes over a word. -/
theorem run_of_skips (asked : (Instruction.ofWord word).operation? = some operation)
    (skips : (Instruction.ofWord word).Skips m) :
    (m.fetched.run d operation).machine.registers.pc = (m.registers.pc + 4) % 4096 := by
  cases skips with
  | byteEqual op first same =>
    simp only [Instruction.operation?, op, first] at asked
    cases asked
    rw [run_skipByte, pc_skipIf_fetched, if_pos (by simp [same])]
  | byteDiffers op first other =>
    simp only [Instruction.operation?, op, first] at asked
    cases asked
    rw [run_skipByte, pc_skipIf_fetched, if_pos (by simp [other])]
  | registersEqual op last first second same =>
    simp only [Instruction.operation?, op, last, first, second, ↓reduceIte] at asked
    cases asked
    rw [run_skipRegister, pc_skipIf_fetched, if_pos (by simp [same])]
  | registersDiffer op last first second other =>
    simp only [Instruction.operation?, op, last, first, second, ↓reduceIte] at asked
    cases asked
    rw [run_skipRegister, pc_skipIf_fetched, if_pos (by simp [other])]
  | keyDown op byte first pressed =>
    simp only [Instruction.operation?, op, byte, first] at asked
    cases asked
    rw [run_skipKey, pc_skipIf_fetched, if_pos (by simp [pressed])]
  | keyUp op byte first released =>
    simp only [Instruction.operation?, op, byte, first] at asked
    cases asked
    rw [run_skipKey, pc_skipIf_fetched, if_pos (by simp [released])]

/-- Everything but a jump, a return, a wait and a skip whose condition holds goes on behind the
instruction. -/
theorem run_of_follows (asked : (Instruction.ofWord word).operation? = some operation)
    (noJump : (Instruction.ofWord word).op ≠ 0x1) (noCall : (Instruction.ofWord word).op ≠ 0x2)
    (noOffset : (Instruction.ofWord word).op ≠ 0xB)
    (noReturn : (Instruction.ofWord word).raw ≠ 0x00EE)
    (noWait : ¬ ((Instruction.ofWord word).op = 0xF ∧ (Instruction.ofWord word).kk = 0x0A))
    (noSkip : ¬ (Instruction.ofWord word).Skips m) :
    (m.fetched.run d operation).machine.registers.pc = (m.registers.pc + 2) % 4096 := by
  have encodable := Instruction.operation?_encodable asked
  by_cases sequential : operation.IsSequential
  · exact run_pc encodable sequential
  have named : operation ≠ .system := by
    rintro rfl
    exact sequential trivial
  have same := Instruction.word_of_operation? asked named
  have fields (o x : Fin 16) (kk : Int) (low : 0 ≤ kk) (high : kk < 256)
      (word : operation.word = 0x1000 * o.val + 0x100 * x.val + kk) :=
    Instruction.fields_of_word o x kk low high (same.symm.trans word)
  cases encodable with
  | ret => exact absurd same.symm noReturn
  | jump target => exact absurd (Instruction.op_of_word 0x1 target same.symm) noJump
  | call target => exact absurd (Instruction.op_of_word 0x2 target same.symm) noCall
  | jumpOffset target => exact absurd (Instruction.op_of_word 0xB target same.symm) noOffset
  | awaitKey x =>
    obtain ⟨op, -, byte⟩ := fields 0xF x 0x0A (by decide) (by decide)
      (by simp only [Operation.word]; omega)
    exact absurd ⟨op, byte⟩ noWait
  | skipByte ifEqual x kk =>
    have bound := kk.toNat_lt
    rw [run_skipByte, pc_skipIf_fetched, if_neg]
    intro condition
    cases ifEqual with
    | true =>
      obtain ⟨op, register, byte⟩ := fields 0x3 x kk.toNat (by omega) (by omega) rfl
      exact noSkip (.byteEqual op register (by simpa [byte] using condition))
    | false =>
      obtain ⟨op, register, byte⟩ := fields 0x4 x kk.toNat (by omega) (by omega) rfl
      exact noSkip (.byteDiffers op register (by simpa [byte] using condition))
  | skipRegister ifEqual x y =>
    rw [run_skipRegister, pc_skipIf_fetched, if_neg]
    intro condition
    cases ifEqual with
    | true =>
      obtain ⟨op, register, byte⟩ := fields 0x5 x (0x10 * y.val) (by omega) (by omega) rfl
      obtain ⟨second, last⟩ := Instruction.nibbles_of_kk y 0 (by decide) (by decide)
        (byte.trans (Int.add_zero _).symm)
      exact noSkip (.registersEqual op last register second (by simpa using condition))
    | false =>
      obtain ⟨op, register, byte⟩ := fields 0x9 x (0x10 * y.val) (by omega) (by omega) rfl
      obtain ⟨second, last⟩ := Instruction.nibbles_of_kk y 0 (by decide) (by decide)
        (byte.trans (Int.add_zero _).symm)
      exact noSkip (.registersDiffer op last register second (by simpa using condition))
  | skipKey ifDown x =>
    rw [run_skipKey, pc_skipIf_fetched, if_neg]
    intro condition
    cases ifDown with
    | true =>
      obtain ⟨op, register, byte⟩ := fields 0xE x 0x9E (by decide) (by decide)
        (by simp only [Operation.word, ↓reduceIte]; omega)
      exact noSkip (.keyDown op byte register (by simpa using condition))
    | false =>
      obtain ⟨op, register, byte⟩ := fields 0xE x 0xA1 (by decide) (by decide)
        (by simp only [Operation.word, Bool.false_eq_true, ↓reduceIte]; omega)
      exact noSkip (.keyUp op byte register (by simpa using condition))
  | _ => exact absurd trivial sequential

/-- The topmost slot is that of the innermost call. -/
theorem getLast?_openCalls {r : Registers} {depth : Nat} (isOpen : r.sp = depth + 1)
    (inside : depth < stackDepth) :
    r.openCalls.getLast? = some (r.stack.get ⟨depth, inside⟩) := by
  have length : r.openCalls.length = depth + 1 := by
    rw [Registers.openCalls, List.length_take, Vector.length_toList, isOpen]
    omega
  have slot : r.stack.toList[depth]? = some (r.stack.get ⟨depth, inside⟩) := by
    rw [List.getElem?_eq_getElem (by rwa [Vector.length_toList]), Vector.getElem_toList]
    rfl
  rw [List.getLast?_eq_getElem?, length, Registers.openCalls, isOpen, Nat.add_sub_cancel,
    List.getElem?_take_of_lt (Nat.lt_succ_self depth), slot]

/-- A step without a fault has run the operation at the program counter. -/
theorem WellFormed.step_of_clear (ok : m.WellFormed) (running : m.mode = .running)
    (clear : ∀ fault, (m.step s).answer ≠ .error (.fault fault)) :
    ∃ operation, m.nextInstruction.operation? = some operation ∧
      (m.step s).machine = (m.fetched.run s.dialect operation).machine := by
  obtain ⟨event, finished⟩ | ⟨fault, faulted⟩ := ok.step_finishesOrFaults (s := s)
  · rw [step_of_running s running] at finished ⊢
    obtain ⟨ended, machine⟩ := cycle_of_ok finished
    obtain ⟨operation, asked, run⟩ := exec_of_ok ended
    exact ⟨operation, asked, machine.trans (congrArg Outcome.machine run)⟩
  · exact absurd faulted (clear fault)

/-- A word that finishes raises no fault. -/
theorem clear_of_exec (running : m.mode = .running)
    (finished : (m.fetched.exec s.dialect m.nextInstruction).answer = .ok ()) (fault : Fault) :
    (m.step s).answer ≠ .error (.fault fault) := by
  rw [step_of_running s running]
  intro raised
  simp only [cycle, finished, Outcome.answer_done, reduceCtorEq] at raised

/-- A call without a fault goes to its target. -/
theorem step_call_of_clear (running : m.mode = .running)
    (clear : ∀ fault, (m.step s).answer ≠ .error (.fault fault))
    (calls : m.nextInstruction.op = 0x2) :
    (m.step s).machine.registers.pc = m.nextInstruction.nnn := by
  have word := Memory.readWord_emod m.memory m.registers.pc
  have family : m.memory.readWord m.registers.pc / 4096 = 2 := by
    rw [← word]
    exact calls
  by_cases free : m.registers.sp < stackDepth
  · rw [(step_call_of_free s running family free).2]
    exact congrArg (· % 4096) word.symm
  · exact absurd (step_call_of_full s running family (by omega)).1 (clear _)

/-- A return without a fault goes behind the innermost call. -/
theorem WellFormed.step_ret_of_clear (ok : m.WellFormed) (running : m.mode = .running)
    (clear : ∀ fault, (m.step s).answer ≠ .error (.fault fault))
    (returns : m.nextInstruction.raw = 0x00EE) :
    m.registers.openCalls.getLast? = some (m.step s).machine.registers.pc := by
  have word : m.memory.readWord m.registers.pc = 0x00EE :=
    (Memory.readWord_emod m.memory m.registers.pc).symm.trans returns
  have bound := ok.registers.sp
  cases isOpen : m.registers.sp with
  | zero => exact absurd (step_ret_of_empty s running word isOpen).1 (clear _)
  | succ depth =>
    have inside : depth < stackDepth := by omega
    rw [(step_ret_of_open s running word isOpen inside).2]
    exact getLast?_openCalls isOpen inside

theorem WellFormed.successor (ok : m.WellFormed) (running : m.mode = .running)
    (clear : ∀ fault, (m.step s).answer ≠ .error (.fault fault)) :
    m.nextInstruction.Successor m (m.step s).machine.registers.pc := by
  obtain ⟨operation, asked, same⟩ := ok.step_of_clear running clear
  constructor
  case returns => exact ok.step_ret_of_clear running clear
  case skips =>
    rw [same]
    exact run_of_skips asked
  case follows =>
    rw [same]
    exact run_of_follows asked
  case jumps =>
    rintro (op | op)
    · simp only [Instruction.operation?, op] at asked
      cases asked
      rw [same]
      rfl
    · exact step_call_of_clear running clear op
  case jumpsOffset =>
    intro op
    simp only [Instruction.operation?, op] at asked
    cases asked
    rw [same]
    rfl
  case awaits =>
    intro op byte
    simp only [Instruction.operation?, op, byte, Instruction.misc?] at asked
    cases asked
    rw [same]
    rfl

/-- A step of a running machine that raises no fault changes no part that its instruction is not
meant to change, and takes the program counter to the successor of the instruction. -/
theorem footprint_of_step (ok : m.WellFormed) (running : m.mode = .running)
    (clear : ∀ fault, (m.step s).answer ≠ .error (.fault fault)) :
    (∀ p : Part, ¬ p.Same m (m.step s).machine → p.ChangedBy s.dialect m.nextInstruction) ∧
      m.nextInstruction.Successor m (m.step s).machine.registers.pc := by
  refine ⟨?_, ok.successor running clear⟩
  intro p differs
  obtain ⟨operation, asked, same⟩ := ok.step_of_clear running clear
  apply Part.changedBy_of_touches asked
  by_contra untouched
  rw [same] at differs
  have fetched : p.Same m m.fetched := by cases p <;> exact rfl
  exact differs (same_trans fetched
    (run_same (Instruction.operation?_encodable asked) untouched m.fetched))

/-- A skip of a byte that differs from a zero register keeps the index and passes over a word. -/
theorem footprint_of_step_skip :
    let m := ((initial {}).load {} [0x40, 0x01]).machine
    m.WellFormed ∧ m.mode = .running ∧
      (∀ fault, (m.step {}).answer ≠ .error (.fault fault)) ∧
      (m.step {}).machine.registers.index = m.registers.index ∧
      (m.step {}).machine.registers.pc = 0x204 := by
  intro m
  have ok : m.WellFormed := (wellFormed_initial {}).load _
  have running : m.mode = .running := rfl
  have word : m.memory.readWord m.registers.pc = 0x4001 := by
    change (Memory.initial.placeProgram [0x40, 0x01] (by decide)).readWord 0x200 = _
    simp [Memory.readWord, Memory.placeProgram, Memory.read_place, Address.ofInt, programStart]
  have next : m.nextInstruction = .ofWord 0x4001 := congrArg Instruction.ofWord word
  have clear : ∀ fault, (m.step {}).answer ≠ .error (.fault fault) := by
    apply clear_of_exec running
    rw [next, ok.fetched.answer_exec 0x4001]
    decide
  obtain ⟨changes, successor⟩ := footprint_of_step ok running clear
  rw [next] at changes successor
  refine ⟨ok, running, clear, ?_, ?_⟩
  · by_contra differs
    have changed := changes .index differs
    revert changed
    simp [Part.ChangedBy, Instruction.ofWord]
  · have zero : m.registers.get 0 = 0 := rfl
    have differs : m.registers.get 0 ≠ (Instruction.ofWord 0x4001).kk := by
      rw [zero]
      decide
    exact successor.skips (.byteDiffers (x := 0) rfl rfl differs)

end Machine

end Chip8
