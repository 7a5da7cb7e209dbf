import Chip8.Proofs.WellFormed
import Mathlib.Tactic.SplitIfs

/-! # Blocks of registers in memory

A block store writes successive cells, around the top of memory if need be, and leaves out those of
the font table. So what a block load brings back from the same place are the stored registers, with
the bytes of the table where the block runs into it. The digits of a number are stored by the same
law.
-/

namespace Chip8

namespace Memory

/-- The law of a block store from `a` on: each byte is in its cell, unless the cell belongs to the
font table, and all other cells are as before. -/
structure Stores (before : Memory) (a : Int) (bytes : List UInt8) (after : Memory) : Prop where
  stored : ∀ (k : Nat) (byte : UInt8), bytes[k]? = some byte →
    ¬ (Address.ofInt (a + k)).InFont → after.read (a + k) = byte
  kept : ∀ b : Int, (∀ k < bytes.length, Address.ofInt (a + (k : Nat)) = Address.ofInt b →
    (Address.ofInt b).InFont) → after.read b = before.read b

/-- What is read after a block store: the byte that is as far into the block as the cell is behind
its first one, or the old byte. -/
theorem read_writeBytes (m : Memory) (a b : Int) {bytes : List UInt8}
    (fits : bytes.length ≤ memorySize) :
    (m.writeBytes a bytes).read b =
      if (Address.ofInt b).InFont then m.read b
      else bytes.getD ((b - a) % 4096).toNat (m.read b) := by
  induction bytes generalizing m a with
  | nil => simp [writeBytes]
  | cons byte rest ih =>
    simp only [List.length_cons, memorySize] at fits
    rw [writeBytes, ih _ _ (by simp only [memorySize]; omega), read_write]
    by_cases inFont : (Address.ofInt b).InFont
    · simp only [inFont, not_true_eq_false, and_false, ↓reduceIte]
    by_cases first : Address.ofInt a = Address.ofInt b
    · -- The rest of the block is too short to come around to its first cell.
      have same := Address.ofInt_eq_iff.mp first
      have start : ((b - a) % 4096).toNat = 0 := by omega
      have beyond : rest.length ≤ ((b - (a + 1)) % 4096).toNat := by omega
      simp [inFont, first, start, beyond]
    · have apart : a % 4096 ≠ b % 4096 := fun same => first (Address.ofInt_eq_iff.mpr same)
      have next : ((b - a) % 4096).toNat = ((b - (a + 1)) % 4096).toNat + 1 := by omega
      simp [inFont, first, next]

/-- Stored bytes follow the law of block stores. -/
theorem stores_writeBytes (m : Memory) (a : Int) {bytes : List UInt8}
    (fits : bytes.length ≤ memorySize) : m.Stores a bytes (m.writeBytes a bytes) where
  stored k byte isByte free := by
    obtain ⟨inside, -⟩ := List.getElem?_eq_some_iff.mp isByte
    simp only [memorySize] at fits
    have offset : ((a + k - a) % 4096).toNat = k := by omega
    rw [read_writeBytes m a _ fits, if_neg free, offset, List.getD_eq_getElem?_getD, isByte,
      Option.getD_some]
  kept b apart := by
    rw [read_writeBytes m a b fits]
    split_ifs with inFont
    · rfl
    · have cell : Address.ofInt (a + ((b - a) % 4096).toNat) = Address.ofInt b := by
        rw [Address.ofInt_eq_iff]
        omega
      have beyond : bytes.length ≤ ((b - a) % 4096).toNat :=
        Nat.le_of_not_lt fun inside => inFont (apart _ inside cell)
      rw [List.getD_eq_getElem?_getD, List.getElem?_eq_none beyond, Option.getD_none]

/-- A byte of the font table, read in its place. -/
theorem HasFont.read {m : Memory} (table : m.HasFont) {a : Int}
    (inFont : (Address.ofInt a).InFont) :
    font[(Address.ofInt a).val - fontBase]? = some (m.read a) := by
  have low := inFont.1
  have high := inFont.2
  have cell : Address.ofInt ((fontBase : Nat) + ((Address.ofInt a).val - fontBase : Nat)) =
      Address.ofInt a := by
    rw [Address.ofInt_eq_iff]
    simp only [fontBase, Address.val_ofInt] at low ⊢
    omega
  have inside : (Address.ofInt a).val - fontBase < font.length := by
    rw [length_font]
    omega
  rw [← congrArg (·[(Address.ofInt a).val - fontBase]?) table]
  simp only [readBytes, Int.toNat_natCast, List.getElem?_map, List.getElem?_range inside,
    Option.map_some, Memory.read, cell]

end Memory

namespace Machine

variable {m : Machine} {d : Dialect} {word : Int} {x : Fin 16}

/-- The registers from 0 to `x`, in order. -/
def registerBlock (m : Machine) (x : Fin 16) : List UInt8 := m.registers.v.toList.take (x.val + 1)

/-- Where the index is behind a block of registers from 0 to `x`. -/
def indexBehind (d : Dialect) (x : Fin 16) (index : Int) : Int :=
  if d.loadStoreIncrementsIndex then (index + x.val + 1) % 4096 else index

theorem registerBlock_fits (m : Machine) (x : Fin 16) :
    (m.registerBlock x).length ≤ memorySize := by
  simp only [registerBlock, List.length_take, Vector.length_toList, memorySize]
  omega

theorem registerBlock_getElem? (m : Machine) {x k : Fin 16} (within : k ≤ x) :
    (m.registerBlock x)[k.val]? = some (m.registers.v.get k) := by
  have inside : k.val < x.val + 1 := by omega
  rw [registerBlock, List.getElem?_take_of_lt inside]
  simp [Vector.get]

theorem passBlock_eq (d : Dialect) (x : Fin 16) (m : Machine) :
    m.passBlock d x.val = m.setIndex (indexBehind d x m.registers.index) := by
  unfold passBlock indexBehind
  split <;> rfl

/-- The registers from 0 to `x` stored. -/
theorem exec_storeRegisters (isStore : word % 65536 = 0xF055 + 0x100 * x.val) :
    ∃ log, m.exec d (.ofWord word) = .done () { m with
      memory := m.memory.writeBytes m.registers.index (m.registerBlock x)
      registers := { m.registers with index := indexBehind d x m.registers.index } } log := by
  have bound := x.isLt
  have asked : (Instruction.ofWord word).operation? = some (.storeRegisters x.val) :=
    Instruction.operation?_misc 0x55 (by decide) (by decide) (by omega)
  have count : ((x.val : Int) + 1).toNat = x.val + 1 := by omega
  simp only [exec, asked, run, blockEnd, count]
  rw [if_pos (by omega), passBlock_eq]
  exact ⟨_, rfl⟩

/-- The registers from 0 to `x` loaded. -/
theorem exec_loadRegisters (isLoad : word % 65536 = 0xF065 + 0x100 * x.val) :
    m.exec d (.ofWord word) = .done () { m with registers := { m.registers with
      v := Vector.ofFn fun k : Fin 16 =>
        if k ≤ x then m.memory.read (m.registers.index + k.val) else m.registers.v.get k
      index := indexBehind d x m.registers.index } } := by
  have bound := x.isLt
  have asked : (Instruction.ofWord word).operation? = some (.loadRegisters x.val) :=
    Instruction.operation?_misc 0x65 (by decide) (by decide) (by omega)
  have count : ((x.val : Int) + 1).toNat = x.val + 1 := by omega
  have within (k : Fin 16) : k.val < x.val + 1 ↔ k ≤ x := by omega
  simp only [exec, asked, run, blockEnd, count]
  rw [if_pos (by omega), passBlock_eq, loadFromIndex]
  simp only [within]
  rfl

/-- The digits of a register stored. -/
theorem exec_storeDecimal (isDecimal : word % 65536 = 0xF033 + 0x100 * x.val) :
    ∃ log, m.exec d (.ofWord word) = .done () { m with
      memory := m.memory.writeBytes m.registers.index
        (decimalDigits (m.registers.v.get x).toNat) } log := by
  have asked : (Instruction.ofWord word).operation? = some (.storeDecimal x.val) :=
    Instruction.operation?_misc 0x33 (by decide) (by decide) (by omega)
  simp only [exec, asked, run, Registers.slot_val, Outcome.lookup_ok]
  exact ⟨_, rfl⟩

/-- A byte has three decimal digits. -/
theorem exists_decimalDigits (byte : UInt8) : ∃ a b c : UInt8,
    decimalDigits byte.toNat = [a, b, c] ∧ a.toNat ≤ 9 ∧ b.toNat ≤ 9 ∧ c.toNat ≤ 9 ∧
      100 * a.toNat + 10 * b.toNat + c.toNat = byte.toNat := by
  have bound := byte.toNat_lt
  have exact (n : Nat) (small : n < 256) : (UInt8.ofNat n).toNat = n :=
    UInt8.toNat_ofNat_of_lt' small
  have hundreds := exact (byte.toNat / 100) (by omega)
  have tens := exact (byte.toNat / 10 % 10) (by omega)
  have ones := exact (byte.toNat % 10) (by omega)
  refine ⟨_, _, _, rfl, ?_⟩
  rw [hundreds, tens, ones]
  omega

/-- What is read from the cells of a stored block: the registers, and the old bytes in the font
table. -/
theorem read_registerBlock (m : Machine) (a : Int) {x k : Fin 16} (within : k ≤ x) :
    (m.memory.writeBytes a (m.registerBlock x)).read (a + k.val) =
      if (Address.ofInt (a + k.val)).InFont then m.memory.read (a + k.val)
      else m.registers.v.get k := by
  have bound := k.isLt
  have offset : ((a + k.val - a) % 4096).toNat = k.val := by omega
  rw [Memory.read_writeBytes m.memory a _ (m.registerBlock_fits x), offset,
    List.getD_eq_getElem?_getD, registerBlock_getElem? m within, Option.getD_some]

/-- Store, load and digits, on any machine and with any index. A block store writes the registers
from 0 to `x` by the law of block stores, moves the index or leaves it, as the dialect says, and
does nothing else. A block load from the same place, whatever is in the registers by then, brings
back the stored registers, but the bytes of the font table where the block runs into it, and leaves
the other registers and memory alone. The three digits of a register are stored by the same law,
and the index stays. -/
theorem storeLoad_of_words (m : Machine) (d : Dialect) (x : Fin 16) {store load decimal : Int}
    (isStore : store % 65536 = 0xF055 + 0x100 * x.val)
    (isLoad : load % 65536 = 0xF065 + 0x100 * x.val)
    (isDecimal : decimal % 65536 = 0xF033 + 0x100 * x.val) :
    let index := m.registers.index
    let stored := m.exec d (.ofWord store)
    let written := m.exec d (.ofWord decimal)
    (stored.answer = .ok () ∧
      m.memory.Stores index (m.registerBlock x) stored.machine.memory ∧
      stored.machine = { m with
        memory := stored.machine.memory
        registers := { m.registers with index := indexBehind d x index } }) ∧
    (∀ bytes : Vector UInt8 16,
      let before := { stored.machine with
        registers := { stored.machine.registers with v := bytes, index := index } }
      let loaded := before.exec d (.ofWord load)
      loaded.answer = .ok () ∧
      (∀ k ≤ x, ¬ (Address.ofInt (index + k.val)).InFont →
        loaded.machine.registers.v.get k = m.registers.v.get k) ∧
      (∀ k ≤ x, (Address.ofInt (index + k.val)).InFont →
        loaded.machine.registers.v.get k = m.memory.read (index + k.val) ∧
        (m.memory.HasFont → font[(Address.ofInt (index + k.val)).val - fontBase]? =
          some (loaded.machine.registers.v.get k))) ∧
      (∀ k > x, loaded.machine.registers.v.get k = bytes.get k) ∧
      loaded.machine = { before with registers := { before.registers with
        v := loaded.machine.registers.v
        index := indexBehind d x index } }) ∧
    (written.answer = .ok () ∧
      (∃ a b c : UInt8, m.memory.Stores index [a, b, c] written.machine.memory ∧
        a.toNat ≤ 9 ∧ b.toNat ≤ 9 ∧ c.toNat ≤ 9 ∧
        100 * a.toNat + 10 * b.toNat + c.toNat = (m.registers.v.get x).toNat) ∧
      written.machine = { m with memory := written.machine.memory }) := by
  intro index stored written
  obtain ⟨storeLog, ran⟩ := exec_storeRegisters (m := m) (d := d) isStore
  obtain ⟨decimalLog, wrote⟩ := exec_storeDecimal (m := m) (d := d) isDecimal
  have ran : stored = _ := ran
  have wrote : written = _ := wrote
  refine ⟨?_, ?_, ?_⟩
  · rw [ran]
    exact ⟨rfl, Memory.stores_writeBytes _ _ (m.registerBlock_fits x), rfl⟩
  · intro bytes before loaded
    have moved : loaded = _ := exec_loadRegisters isLoad
    have memory : before.memory = m.memory.writeBytes index (m.registerBlock x) :=
      congrArg (fun o : Outcome Unit => o.machine.memory) ran
    have register (k : Fin 16) : loaded.machine.registers.v.get k =
        if k ≤ x then (m.memory.writeBytes index (m.registerBlock x)).read (index + k.val)
        else bytes.get k := by
      rw [moved, ← memory]
      exact Vector.getElem_ofFn k.isLt
    refine ⟨?_, ?_, ?_, ?_, ?_⟩
    · rw [moved]
      rfl
    · intro k within free
      rw [register, if_pos within, read_registerBlock m index within, if_neg free]
    · intro k within inFont
      rw [register, if_pos within, read_registerBlock m index within, if_pos inFont]
      exact ⟨rfl, fun table => table.read inFont⟩
    · intro k beyond
      rw [register, if_neg (Fin.not_le.mpr beyond)]
    · rw [moved]
      rfl
  · obtain ⟨a, b, c, digits, small⟩ := exists_decimalDigits (m.registers.v.get x)
    have law : m.memory.Stores index [a, b, c] (m.memory.writeBytes index [a, b, c]) :=
      Memory.stores_writeBytes _ _ (by simp [memorySize])
    rw [wrote, digits]
    exact ⟨rfl, ⟨a, b, c, law, small⟩, rfl⟩

/-- Two registers stored at the lower edge of the font table and loaded again: the second one comes
back as the first byte of the table. -/
theorem storeLoad_of_words_edge :
    let m : Machine := { initial {} with
      registers := { Registers.initial with v := Vector.replicate 16 7, index := 0x4F } }
    let stored := m.exec {} (.ofWord 0xF155)
    let loaded := { stored.machine with
      registers := { stored.machine.registers with
        v := Vector.replicate 16 9, index := 0x4F } }.exec {} (.ofWord 0xF165)
    (0xF155 : Int) % 65536 = 0xF055 + 0x100 * (1 : Fin 16).val ∧
      (0xF165 : Int) % 65536 = 0xF065 + 0x100 * (1 : Fin 16).val ∧
      (0xF133 : Int) % 65536 = 0xF033 + 0x100 * (1 : Fin 16).val ∧
      stored.answer = .ok () ∧ stored.machine.memory.read 0x4F = 7 ∧
      loaded.machine.registers.v.get 0 = 7 ∧ loaded.machine.registers.v.get 1 = 0xF0 ∧
      loaded.machine.registers.v.get 2 = 9 := by
  intro m stored loaded
  have isStore : (0xF155 : Int) % 65536 = 0xF055 + 0x100 * (1 : Fin 16).val := by decide
  have isLoad : (0xF165 : Int) % 65536 = 0xF065 + 0x100 * (1 : Fin 16).val := by decide
  have isDecimal : (0xF133 : Int) % 65536 = 0xF033 + 0x100 * (1 : Fin 16).val := by decide
  have seven (k : Fin 16) : m.registers.v.get k = 7 := Vector.getElem_replicate k.isLt
  have below : ¬ (Address.ofInt (0x4F + (0 : Fin 16).val)).InFont := by decide
  have above : (Address.ofInt (0x4F + (1 : Fin 16).val)).InFont := by decide
  obtain ⟨⟨finished, law, -⟩, back, -⟩ := storeLoad_of_words m {} 1 isStore isLoad isDecimal
  obtain ⟨-, outside, inside, beyond, -⟩ := back (Vector.replicate 16 9)
  have glyph := (inside 1 (by decide) above).2 Memory.hasFont_initial
  refine ⟨isStore, isLoad, isDecimal, finished, ?_, ?_, ?_, ?_⟩
  · exact law.stored 0 7 (m.registerBlock_getElem? (x := 1) (k := 0) (by decide)) below
  · exact (outside 0 (by decide) below).trans (seven 0)
  · exact (Option.some.inj glyph).symm
  · exact (beyond 2 (by decide)).trans (Vector.getElem_replicate (by decide))

end Machine

end Chip8
