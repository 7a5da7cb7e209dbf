import Chip8.Proofs.Decoding
import Chip8.Proofs.Run

/-! # Well-formed machines

How far the integers of a machine can go: addresses stay below 4096, counters below 256, the stack
pointer below 17, and the font table stays in its place. Sizes, bytes and bits need no statement,
they are in the types. No action of a host, refused or not, takes a machine out of these bounds.
-/

namespace Chip8

def IsAddress (a : Int) : Prop := 0 ≤ a ∧ a < memorySize

instance (a : Int) : Decidable (IsAddress a) := inferInstanceAs (Decidable (_ ∧ _))

theorem isAddress_wrapAddress (a : Int) : IsAddress (wrapAddress a) :=
  ⟨wrapAddress_nonneg a, wrapAddress_lt a⟩

theorem isAddress_val (a : Address) : IsAddress a.val := by
  have bound := a.isLt
  unfold IsAddress
  omega

theorem isAddress_glyphAddress (digit : Int) : IsAddress (glyphAddress digit) := by
  simp only [IsAddress, glyphAddress, fontBase, glyphSize, memorySize]
  omega

def IsByte (z : Int) : Prop := 0 ≤ z ∧ z < 256

instance (z : Int) : Decidable (IsByte z) := inferInstanceAs (Decidable (_ ∧ _))

theorem IsByte.exists_toNat {z : Int} (byte : IsByte z) : ∃ b : UInt8, z = b.toNat := by
  refine ⟨lowByte z, ?_⟩
  unfold IsByte at byte
  rw [toNat_lowByte]
  omega

theorem isByte_toNat (b : UInt8) : IsByte b.toNat := by
  have bound := b.toNat_lt
  unfold IsByte
  omega

namespace Memory

def HasFont (m : Memory) : Prop := m.readBytes fontBase font.length = font

private theorem inFont_of_lt {offset : Nat} (inside : offset < font.length) :
    (Address.ofInt ((fontBase : Nat) + (offset : Nat))).InFont := by
  rw [length_font] at inside
  simp only [Address.InFont, Address.val_ofInt, fontBase]
  omega

/-- A memory that agrees with one that has the font table, as far as the table goes. -/
theorem HasFont.of_read_eq {m n : Memory} (table : m.HasFont)
    (same : ∀ a : Int, (Address.ofInt a).InFont → n.read a = m.read a) : n.HasFont := by
  refine (List.map_congr_left ?_).trans table
  intro offset member
  exact same _ (inFont_of_lt (by simpa using member))

theorem HasFont.write {m : Memory} (table : m.HasFont) (a value : Int) :
    (m.write a value).HasFont := by
  apply table.of_read_eq
  intro b inFont
  rw [read_write, if_neg (fun stored => stored.2 inFont)]

theorem HasFont.writeBytes {m : Memory} (table : m.HasFont) (a : Int) (bytes : List UInt8) :
    (m.writeBytes a bytes).HasFont := by
  induction bytes generalizing m a with
  | nil => exact table
  | cons b rest ih => exact ih (table.write a b.toNat) (a + 1)

theorem hasFont_initial : Memory.initial.HasFont := by
  apply List.ext_getElem
  · simp [readBytes]
  · intro offset _ inside
    have inFont := inFont_of_lt inside
    have cell : (Address.ofInt ((fontBase : Nat) + (offset : Nat))).val - fontBase = offset := by
      rw [length_font] at inside
      simp only [Address.val_ofInt, fontBase]
      omega
    simp only [readBytes, List.getElem_map, List.getElem_range]
    rw [Memory.initial, read_place, if_pos inFont.1, cell]
    exact (List.getElem_eq_getD _).symm

/-- Programs are placed behind the font table. -/
theorem HasFont.placeProgram {m : Memory} (table : m.HasFont) {program : List UInt8}
    (fits : program.length ≤ programCapacity) : (m.placeProgram program fits).HasFont := by
  apply table.of_read_eq
  intro a inFont
  have below : (Address.ofInt a).val < programStart := Nat.lt_of_lt_of_le inFont.2 (by decide)
  rw [Memory.placeProgram, read_place, if_neg (Nat.not_le_of_lt below)]

end Memory

namespace Registers

/-- The index and the program counter are addresses, at most all slots of the stack are in use and
every slot holds an address. -/
structure WellFormed (r : Registers) : Prop where
  index : IsAddress r.index
  pc : IsAddress r.pc
  sp : r.sp ≤ stackDepth
  stack : ∀ i : Fin stackDepth, IsAddress r.stack[i]

variable {r : Registers}

theorem wellFormed_initial : initial.WellFormed where
  index := by decide
  pc := by decide
  sp := by decide
  stack i := by simp [initial, IsAddress]

theorem WellFormed.advance (ok : r.WellFormed) : r.advance.WellFormed :=
  { ok with pc := isAddress_wrapAddress _ }

theorem WellFormed.withBytes (ok : r.WellFormed) (v : Vector UInt8 16) :
    { r with v := v }.WellFormed :=
  ⟨ok.index, ok.pc, ok.sp, ok.stack⟩

/-- A call that finds a free slot takes it. -/
theorem WellFormed.push {r' : Registers} {address pc : Int} (ok : r.WellFormed)
    (pushed : r.push address pc = .ok r') : r'.WellFormed := by
  unfold Registers.push at pushed
  split at pushed
  · next free =>
    cases pushed
    refine { ok with sp := free, stack := ?_ }
    intro i
    simp only [Fin.getElem_fin, Vector.getElem_set]
    split
    · exact isAddress_wrapAddress address
    · exact ok.stack i
  · contradiction

/-- A return finds an address. -/
theorem WellFormed.pop {r' : Registers} {address pc : Int} (ok : r.WellFormed)
    (popped : r.pop pc = .ok (address, r')) : IsAddress address ∧ r'.WellFormed := by
  unfold Registers.pop at popped
  split at popped
  · cases popped
  · next depth count =>
    have inside : depth < stackDepth := by have := ok.sp; omega
    rw [dif_pos inside] at popped
    cases popped
    exact ⟨ok.stack ⟨depth, inside⟩, { ok with sp := Nat.le_of_lt inside }⟩

end Registers

namespace Timers

/-- Both counters are in the range of a byte. -/
structure WellFormed (t : Timers) : Prop where
  delay : IsByte t.delay
  sound : IsByte t.sound

theorem wellFormed_initial : initial.WellFormed := ⟨by decide, by decide⟩

theorem isByte_countDown {n : Int} (byte : IsByte n) : IsByte (countDown n) := by
  unfold IsByte countDown at *
  split <;> omega

theorem WellFormed.tick {t : Timers} (ok : t.WellFormed) : t.tick.WellFormed :=
  ⟨isByte_countDown ok.delay, isByte_countDown ok.sound⟩

end Timers

namespace Machine

/-- The font table is in its place, registers and timers are well formed, the instruction fetched
last has an address and the waiting register exists. -/
structure WellFormed (m : Machine) : Prop where
  memory : m.memory.HasFont
  registers : m.registers.WellFormed
  timers : m.timers.WellFormed
  fetchPc : IsAddress m.fetchPc
  waitRegister : 0 ≤ m.waitRegister ∧ m.waitRegister < 16

variable {s : Settings} {d : Dialect} {m : Machine}

theorem wellFormed_initial (s : Settings) : (initial s).WellFormed where
  memory := Memory.hasFont_initial
  registers := Registers.wellFormed_initial
  timers := Timers.wellFormed_initial
  fetchPc := isAddress_val ⟨programStart, by decide⟩
  waitRegister := ⟨Int.le_refl 0, by change (0 : Int) < 16; decide⟩

namespace WellFormed

theorem withScreen (ok : m.WellFormed) (screen : Screen) : { m with screen := screen }.WellFormed :=
  { ok with }

theorem withTimers (ok : m.WellFormed) {timers : Timers} (counters : timers.WellFormed) :
    { m with timers := timers }.WellFormed :=
  { ok with timers := counters }

theorem withRandom (ok : m.WellFormed) (stream : RandomStream) :
    { m with random := stream }.WellFormed :=
  { ok with }

theorem withRegisters (ok : m.WellFormed) {registers : Registers} (inside : registers.WellFormed) :
    { m with registers := registers }.WellFormed :=
  { ok with registers := inside }

theorem jump (ok : m.WellFormed) {target : Int} (inside : IsAddress target) :
    (m.jump target).WellFormed :=
  { ok with registers := { ok.registers with pc := inside } }

theorem skipIf (ok : m.WellFormed) (condition : Bool) : (m.skipIf condition).WellFormed := by
  unfold Machine.skipIf
  split
  · exact { ok with registers := ok.registers.advance }
  · exact ok

theorem setRegister (ok : m.WellFormed) (x : Fin 16) (b : UInt8) : (m.setRegister x b).WellFormed :=
  ok.withRegisters (ok.registers.withBytes _)

theorem setIndex (ok : m.WellFormed) {index : Int} (inside : IsAddress index) :
    (m.setIndex index).WellFormed :=
  { ok with registers := { ok.registers with index := inside } }

theorem setFlag (ok : m.WellFormed) (value : Int) : (m.setFlag value).WellFormed :=
  ok.setRegister Registers.flagRegister (lowByte value)

theorem storeAtIndex (ok : m.WellFormed) (bytes : List UInt8) : (m.storeAtIndex bytes).WellFormed :=
  { ok with memory := ok.memory.writeBytes _ bytes }

theorem loadFromIndex (ok : m.WellFormed) (count : Nat) : (m.loadFromIndex count).WellFormed :=
  ok.withRegisters (ok.registers.withBytes _)

theorem passBlock (ok : m.WellFormed) (x : Int) : (m.passBlock d x).WellFormed := by
  unfold Machine.passBlock
  split
  · exact ok.setIndex (isAddress_wrapAddress _)
  · exact ok

theorem blockEnd (ok : m.WellFormed) (x : Int) (log : List LogEntry) :
    (m.blockEnd d x log).machine.WellFormed := by
  unfold Machine.blockEnd
  split
  · exact ok.passBlock x
  · exact ok

theorem runAlu (ok : m.WellFormed) (f : Alu) (x y : Fin 16) : (m.runAlu d f x y).WellFormed := by
  unfold Machine.runAlu
  split
  · exact ok.setRegister x _
  · exact (ok.setRegister x _).setRegister Registers.flagRegister _

theorem runDraw (ok : m.WellFormed) (x y : Fin 16) (rows : Int) :
    (m.runDraw d x y rows).WellFormed :=
  (ok.withScreen _).setFlag _

theorem runAddIndex (ok : m.WellFormed) (x : Fin 16) : (m.runAddIndex d x).WellFormed := by
  have moved := ok.setIndex (isAddress_wrapAddress (m.registers.index + m.registers.get x))
  unfold Machine.runAddIndex
  split
  · exact moved.setFlag _
  · exact moved

theorem runAwaitKey (ok : m.WellFormed) (x : Fin 16) : (m.runAwaitKey x.val).WellFormed := by
  have bound := x.isLt
  exact { ok.jump ok.fetchPc with waitRegister := by simp only [Machine.runAwaitKey]; omega }

/-- Running an encodable operation keeps a machine well formed, also when the operation faults. -/
theorem run {operation : Operation} (ok : m.WellFormed) (encodable : operation.Encodable) :
    (m.run d operation).machine.WellFormed := by
  cases encodable <;>
    simp only [Machine.run, Registers.slot_val, assignment_val, Outcome.lookup_ok,
      Outcome.machine_done]
  case clearScreen => exact ok.withScreen _
  case ret =>
    cases popped : m.registers.pop m.fetchPc with
    | error reason => exact ok
    | ok found =>
      obtain ⟨inside, registers⟩ := ok.registers.pop popped
      exact (ok.withRegisters registers).jump inside
  case system => exact ok
  case jump target => exact ok.jump (isAddress_val target)
  case call target =>
    split
    · exact ok
    · next pushed =>
      exact (ok.withRegisters (ok.registers.push pushed)).jump (isAddress_val target)
  case skipByte => exact ok.skipIf _
  case skipRegister => exact ok.skipIf _
  case setByte x kk => exact ok.setRegister x kk
  case addByte x _ => exact ok.setRegister x _
  case alu f x y => exact ok.runAlu f x y
  case setIndex target => exact ok.setIndex (isAddress_val target)
  case jumpOffset => exact ok.jump (isAddress_wrapAddress _)
  case random x _ => exact (ok.withRandom _).setRegister x _
  case draw x y rows => exact ok.runDraw x y rows
  case skipKey => exact ok.skipIf _
  case readDelay x =>
    obtain ⟨b, same⟩ := ok.timers.delay.exists_toNat
    rw [same, assignment_val]
    exact ok.setRegister x b
  case awaitKey x => exact ok.runAwaitKey x
  case setDelay x => exact ok.withTimers ⟨isByte_toNat _, ok.timers.sound⟩
  case setSound x => exact ok.withTimers ⟨ok.timers.delay, isByte_toNat _⟩
  case addIndex x => exact ok.runAddIndex x
  case glyph => exact ok.setIndex (isAddress_glyphAddress _)
  case storeDecimal => exact ok.storeAtIndex _
  case storeRegisters => exact (ok.storeAtIndex _).blockEnd _ _
  case loadRegisters => exact (ok.loadFromIndex _).blockEnd _ _

theorem exec (ok : m.WellFormed) (word : Int) :
    (m.exec d (.ofWord word)).machine.WellFormed := by
  unfold Machine.exec
  split
  · next asked => exact ok.run (Instruction.operation?_encodable asked)
  · exact ok

theorem fetched (ok : m.WellFormed) : m.fetched.WellFormed :=
  { ok with registers := ok.registers.advance, fetchPc := ok.registers.pc }

theorem cycle (ok : m.WellFormed) : (m.cycle s).machine.WellFormed := by
  have executed : (m.fetched.exec s.dialect m.nextInstruction).machine.WellFormed :=
    ok.fetched.exec _
  simp only [Machine.cycle]
  split
  · exact executed
  · exact { executed with }
  · exact executed

theorem pollKey (ok : m.WellFormed) : m.pollKey.machine.WellFormed := by
  obtain ⟨x, found⟩ := Registers.exists_slot ok.waitRegister.1 ok.waitRegister.2
  simp only [Machine.pollKey, found, Outcome.lookup_ok]
  split
  · exact ok
  · next key keypad _ =>
    have taken : { m with keypad := keypad }.WellFormed := { ok with }
    have stored := taken.setRegister x (UInt8.ofNat key.val)
    exact { stored with registers := stored.registers.advance }

theorem step (ok : m.WellFormed) : (m.step s).machine.WellFormed := by
  unfold Machine.step
  split
  · exact ok.cycle
  · exact ok.pollKey
  · exact ok

theorem load (ok : m.WellFormed) (program : List UInt8) :
    (m.load s program).machine.WellFormed := by
  by_cases fits : program.length ≤ programCapacity
  · rw [load_of_fits s m fits]
    exact { wellFormed_initial s with memory := Memory.hasFont_initial.placeProgram fits }
  · rw [load_of_tooLarge s m (Nat.lt_of_not_le fits)]
    exact ok

theorem setKey (ok : m.WellFormed) (index : Int) (pressed : Bool) :
    (m.setKey index pressed).machine.WellFormed := by
  unfold Machine.setKey
  cases m.keypad.setKey index pressed with
  | ok keypad => exact { ok with }
  | error reason => exact ok

theorem act (ok : m.WellFormed) {a : Action} (elementary : a.IsElementary) :
    (m.perform s a).machine.WellFormed := by
  cases a with
  | step => exact ok.step
  | setKey index pressed => exact ok.setKey index pressed
  | tick => exact ok.withTimers ok.timers.tick
  | takeDirty => exact ok.withScreen _
  | load | reset | frames | execute => contradiction

theorem of_reaches {m' : Machine} {told : Option Fault} (ok : m.WellFormed)
    (reaches : Reaches s m told m') : m'.WellFormed :=
  reaches.preserves (fun _ _ elementary ok => ok.act elementary) ok

/-- Every action of a host keeps a machine well formed, also one that is refused. -/
theorem perform (ok : m.WellFormed) (a : Action) : (m.perform s a).machine.WellFormed := by
  cases a with
  | load program => exact ok.load program
  | reset => exact wellFormed_initial s
  | frames count schedule => exact ok.of_reaches (runFrames_reaches count schedule m)
  | execute word => exact ok.exec word
  | step | setKey | tick | takeDirty => exact ok.act trivial

end WellFormed

theorem Run.wellFormed {m' : Machine} {actions : List Action} (run : Run s m actions m')
    (ok : m.WellFormed) : m'.WellFormed :=
  run.preserves (fun _ a ok => ok.perform a) (fun _ stream ok => ok.withRandom stream) ok

/-- Whatever a host does to a new machine, and in whatever order, the machine is well formed. -/
theorem wellFormed_of_run {actions : List Action} (run : Run s (initial s) actions m) :
    m.WellFormed :=
  run.wellFormed (wellFormed_initial s)

/-- A program that draws a random byte, loaded and stepped without a seed. -/
theorem wellFormed_of_run_unseeded :
    let loaded := ((initial {}).perform {} (.load [0xC0, 0xFF])).machine
    let drawn := ({ loaded with random := .ofSeed (some 7) }.perform {} .step).machine
    Run {} (initial {}) [.load [0xC0, 0xFF], .step] drawn ∧ drawn.WellFormed := by
  intro loaded drawn
  have run : Run {} (initial {}) [.load [0xC0, 0xFF], .step] drawn :=
    .act (.unseeded (.ofSeed (some 7)) rfl (.act (.nil drawn)))
  exact ⟨run, wellFormed_of_run run⟩

end Machine

end Chip8
