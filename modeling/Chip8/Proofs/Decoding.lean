import Chip8.Execution

/-! # Decoded words

Two facts about the operation that a word asks for. It is encodable: its registers are nibbles, its
immediate values bytes and its targets addresses, so every register is found and every immediate
fits. And it determines the word again, except for the ignored calls of native code; so each
question about the operation of a word is a question about the word.
-/

namespace Chip8

namespace Registers

/-- A nibble names a register. -/
@[simp] theorem slot_val (x : Fin 16) : slot (x.val : Int) = .ok x :=
  position_of_lt x.isLt (by decide)

theorem exists_val {z : Int} (low : 0 ≤ z) (high : z < 16) : ∃ x : Fin 16, z = x.val := by
  refine ⟨⟨z.toNat, by omega⟩, ?_⟩
  change z = (z.toNat : Int)
  omega

theorem exists_slot {z : Int} (low : 0 ≤ z) (high : z < 16) : ∃ x : Fin 16, slot z = .ok x := by
  obtain ⟨x, rfl⟩ := exists_val low high
  exact ⟨x, slot_val x⟩

end Registers

/-- A byte is exactly representable in a register. -/
@[simp] theorem exactByte_toNat (b : UInt8) : exactByte (b.toNat : Int) = .ok b := by
  have bound := b.toNat_lt
  unfold exactByte
  rw [if_pos (by omega), lowByte_toNat]

/-- An assignment of a byte to an existing register goes through. -/
@[simp] theorem assignment_val (x : Fin 16) (b : UInt8) :
    assignment (x.val : Int) (b.toNat : Int) = .ok (x, b) := by
  simp only [assignment, Registers.slot_val, exactByte_toNat]
  rfl

/-- An operation with a nibble for each register, a byte for each immediate value and an address
for each target. -/
inductive Operation.Encodable : Operation → Prop
  | clearScreen : Encodable .clearScreen
  | ret : Encodable .ret
  | system : Encodable .system
  | jump (target : Address) : Encodable (.jump target.val)
  | call (target : Address) : Encodable (.call target.val)
  | skipByte (ifEqual : Bool) (x : Fin 16) (kk : UInt8) :
      Encodable (.skipByte ifEqual x.val kk.toNat)
  | skipRegister (ifEqual : Bool) (x y : Fin 16) : Encodable (.skipRegister ifEqual x.val y.val)
  | setByte (x : Fin 16) (kk : UInt8) : Encodable (.setByte x.val kk.toNat)
  | addByte (x : Fin 16) (kk : UInt8) : Encodable (.addByte x.val kk.toNat)
  | alu (f : Alu) (x y : Fin 16) : Encodable (.alu f x.val y.val)
  | setIndex (target : Address) : Encodable (.setIndex target.val)
  | jumpOffset (target : Address) : Encodable (.jumpOffset target.val)
  | random (x : Fin 16) (mask : UInt8) : Encodable (.random x.val mask.toNat)
  | draw (x y rows : Fin 16) : Encodable (.draw x.val y.val rows.val)
  | skipKey (ifDown : Bool) (x : Fin 16) : Encodable (.skipKey ifDown x.val)
  | readDelay (x : Fin 16) : Encodable (.readDelay x.val)
  | awaitKey (x : Fin 16) : Encodable (.awaitKey x.val)
  | setDelay (x : Fin 16) : Encodable (.setDelay x.val)
  | setSound (x : Fin 16) : Encodable (.setSound x.val)
  | addIndex (x : Fin 16) : Encodable (.addIndex x.val)
  | glyph (x : Fin 16) : Encodable (.glyph x.val)
  | storeDecimal (x : Fin 16) : Encodable (.storeDecimal x.val)
  | storeRegisters (x : Fin 16) : Encodable (.storeRegisters x.val)
  | loadRegisters (x : Fin 16) : Encodable (.loadRegisters x.val)

/-- The last nibble of the words of a two-register operation. -/
def Alu.nibble : Alu → Int
  | copy => 0x0
  | or => 0x1
  | and => 0x2
  | xor => 0x3
  | add => 0x4
  | subtract => 0x5
  | shiftRight => 0x6
  | subtractFrom => 0x7
  | shiftLeft => 0xE

/-- The word that asks for an operation. The ignored calls of native code have many; zero is one. -/
def Operation.word : Operation → Int
  | clearScreen => 0x00E0
  | ret => 0x00EE
  | system => 0x0000
  | jump target => 0x1000 + target
  | call target => 0x2000 + target
  | skipByte ifEqual x kk => (if ifEqual then 0x3000 else 0x4000) + 0x100 * x + kk
  | skipRegister ifEqual x y => (if ifEqual then 0x5000 else 0x9000) + 0x100 * x + 0x10 * y
  | setByte x kk => 0x6000 + 0x100 * x + kk
  | addByte x kk => 0x7000 + 0x100 * x + kk
  | alu f x y => 0x8000 + 0x100 * x + 0x10 * y + f.nibble
  | setIndex target => 0xA000 + target
  | jumpOffset target => 0xB000 + target
  | random x mask => 0xC000 + 0x100 * x + mask
  | draw x y rows => 0xD000 + 0x100 * x + 0x10 * y + rows
  | skipKey ifDown x => (if ifDown then 0xE09E else 0xE0A1) + 0x100 * x
  | readDelay x => 0xF007 + 0x100 * x
  | awaitKey x => 0xF00A + 0x100 * x
  | setDelay x => 0xF015 + 0x100 * x
  | setSound x => 0xF018 + 0x100 * x
  | addIndex x => 0xF01E + 0x100 * x
  | glyph x => 0xF029 + 0x100 * x
  | storeDecimal x => 0xF033 + 0x100 * x
  | storeRegisters x => 0xF055 + 0x100 * x
  | loadRegisters x => 0xF065 + 0x100 * x

namespace Instruction

private theorem exists_byte {z : Int} (low : 0 ≤ z) (high : z < 256) :
    ∃ b : UInt8, z = (b.toNat : Int) := by
  refine ⟨lowByte z, ?_⟩
  rw [toNat_lowByte]
  omega

private theorem exists_address {z : Int} (low : 0 ≤ z) (high : z < 4096) :
    ∃ a : Address, z = (a.val : Int) := by
  refine ⟨.ofInt z, ?_⟩
  rw [Address.val_ofInt]
  omega

/-- The fields of a word are three nibbles, a byte and an address. -/
theorem ofWord_fields (word : Int) :
    ∃ (x y n : Fin 16) (kk : UInt8) (nnn : Address),
      (ofWord word).x = x.val ∧ (ofWord word).y = y.val ∧ (ofWord word).n = n.val ∧
        (ofWord word).kk = kk.toNat ∧ (ofWord word).nnn = nnn.val := by
  obtain ⟨x, isX⟩ := Registers.exists_val (z := word % 65536 / 256 % 16) (by omega) (by omega)
  obtain ⟨y, isY⟩ := Registers.exists_val (z := word % 65536 / 16 % 16) (by omega) (by omega)
  obtain ⟨n, isN⟩ := Registers.exists_val (z := word % 65536 % 16) (by omega) (by omega)
  obtain ⟨kk, isKk⟩ := exists_byte (z := word % 65536 % 256) (by omega) (by omega)
  obtain ⟨nnn, isNnn⟩ := exists_address (z := word % 65536 % 4096) (by omega) (by omega)
  exact ⟨x, y, n, kk, nnn, isX, isY, isN, isKk, isNnn⟩

private theorem misc?_encodable {x : Fin 16} {kk : Int} {operation : Operation}
    (asked : misc? x.val kk = some operation) : operation.Encodable := by
  unfold misc? at asked
  split at asked <;> cases asked
  · exact .readDelay x
  · exact .awaitKey x
  · exact .setDelay x
  · exact .setSound x
  · exact .addIndex x
  · exact .glyph x
  · exact .storeDecimal x
  · exact .storeRegisters x
  · exact .loadRegisters x

/-- A word asks for encodable operations only. -/
theorem operation?_encodable {word : Int} {operation : Operation}
    (asked : (ofWord word).operation? = some operation) : operation.Encodable := by
  obtain ⟨x, y, n, kk, nnn, isX, isY, isN, isKk, isNnn⟩ := ofWord_fields word
  unfold operation? at asked
  rw [isX, isY, isN, isKk, isNnn] at asked
  split at asked
  · split at asked
    · cases asked; exact .clearScreen
    · split at asked <;> cases asked
      · exact .ret
      · exact .system
  · cases asked; exact .jump nnn
  · cases asked; exact .call nnn
  · cases asked; exact .skipByte true x kk
  · cases asked; exact .skipByte false x kk
  · split at asked <;> cases asked
    exact .skipRegister true x y
  · cases asked; exact .setByte x kk
  · cases asked; exact .addByte x kk
  · obtain ⟨f, -, rfl⟩ := Option.map_eq_some_iff.mp asked
    exact .alu f x y
  · split at asked <;> cases asked
    exact .skipRegister false x y
  · cases asked; exact .setIndex nnn
  · cases asked; exact .jumpOffset nnn
  · cases asked; exact .random x kk
  · cases asked; exact .draw x y n
  · split at asked <;> cases asked
    · exact .skipKey true x
    · exact .skipKey false x
  · exact misc?_encodable asked
  · contradiction

/-- Only the low sixteen bits of a word count. -/
theorem ofWord_emod (word : Int) : ofWord (word % 65536) = ofWord word := by
  simp only [ofWord, Int.emod_emod]

/-- The fields of a word overlap and make up the word. -/
theorem ofWord_parts (word : Int) :
    word % 65536 = 0x1000 * (ofWord word).op + (ofWord word).nnn ∧
      (ofWord word).nnn = 0x100 * (ofWord word).x + (ofWord word).kk ∧
      (ofWord word).kk = 0x10 * (ofWord word).y + (ofWord word).n ∧ 0 ≤ (ofWord word).n := by
  refine ⟨?_, ?_, ?_, ?_⟩ <;> simp only [ofWord] <;> omega

/-- The fields of a word by its nibbles. -/
theorem ofWord_nibbles (word : Int) : ∃ o x y n : Fin 16,
    word % 65536 = 0x1000 * o.val + 0x100 * x.val + 0x10 * y.val + n.val ∧
    ofWord word = ⟨o.val, x.val, y.val, n.val, 0x10 * y.val + n.val,
      0x100 * x.val + 0x10 * y.val + n.val, word % 65536⟩ := by
  have nibble (z : Int) : ∃ d : Fin 16, z % 16 = d.val :=
    Registers.exists_val (by omega) (by omega)
  obtain ⟨o, isO⟩ := nibble (word % 65536 / 4096)
  obtain ⟨x, isX⟩ := nibble (word % 65536 / 256)
  obtain ⟨y, isY⟩ := nibble (word % 65536 / 16)
  obtain ⟨n, isN⟩ := nibble (word % 65536)
  refine ⟨o, x, y, n, by omega, ?_⟩
  simp only [ofWord, mk.injEq, and_true]
  omega

/-- The fields of a word that is put together of a nibble, a register and a byte. -/
theorem fields_of_word {word : Int} (o x : Fin 16) (kk : Int) (low : 0 ≤ kk) (high : kk < 256)
    (same : word % 65536 = 0x1000 * o.val + 0x100 * x.val + kk) :
    (ofWord word).op = o.val ∧ (ofWord word).x = x.val ∧ (ofWord word).kk = kk := by
  simp only [ofWord]
  omega

/-- The first nibble of a word that is put together of a nibble and a target. -/
theorem op_of_word {word : Int} (o : Fin 16) (target : Address)
    (same : word % 65536 = 0x1000 * o.val + target.val) : (ofWord word).op = o.val := by
  have bound : target.val < 4096 := target.isLt
  simp only [ofWord]
  omega

/-- The nibbles of a low byte that is put together of two. -/
theorem nibbles_of_kk {word : Int} (y : Fin 16) (n : Int) (low : 0 ≤ n) (high : n < 16)
    (same : (ofWord word).kk = 0x10 * y.val + n) :
    (ofWord word).y = y.val ∧ (ofWord word).n = n := by
  simp only [ofWord] at same ⊢
  omega

private theorem alu?_nibble {n : Int} {f : Alu} (nonneg : 0 ≤ n) (asked : alu? n = some f) :
    f.nibble = n := by
  unfold alu? at asked
  rw [if_neg (by omega)] at asked
  split at asked <;> cases asked <;> rfl

private theorem misc?_word {x kk : Int} {operation : Operation}
    (asked : misc? x kk = some operation) : operation.word = 0xF000 + 0x100 * x + kk := by
  unfold misc? at asked
  split at asked <;> cases asked <;> simp only [Operation.word] <;> omega

/-- The operation of a word determines the word, calls of native code apart. -/
theorem word_of_operation? {word : Int} {operation : Operation}
    (asked : (ofWord word).operation? = some operation) (named : operation ≠ .system) :
    operation.word = word % 65536 := by
  obtain ⟨whole, address, byte, nonneg⟩ := ofWord_parts word
  have raw : (ofWord word).raw = word % 65536 := rfl
  unfold operation? at asked
  split at asked
  case h_1 =>
    split at asked
    · next clears =>
      cases asked
      exact clears.symm.trans raw
    · split at asked <;> cases asked
      · next returns => exact returns.symm.trans raw
      · contradiction
  case h_9 =>
    obtain ⟨f, found, rfl⟩ := Option.map_eq_some_iff.mp asked
    have nibble := alu?_nibble nonneg found
    simp only [Operation.word]
    omega
  case h_16 =>
    have same := misc?_word asked
    omega
  all_goals
    (try split at asked) <;> cases asked <;>
      simp only [Operation.word, ↓reduceIte, Bool.false_eq_true] <;> omega

/-- The one word of a return. -/
theorem operation?_eq_ret_iff (word : Int) :
    (ofWord word).operation? = some .ret ↔ word % 65536 = 0x00EE := by
  constructor
  · intro asked
    exact (word_of_operation? asked (by simp)).symm
  · intro same
    rw [← ofWord_emod, same]
    rfl

/-- The words of calls: a nibble and the target. -/
theorem operation?_eq_call_iff (word target : Int) :
    (ofWord word).operation? = some (.call target) ↔
      word % 65536 / 4096 = 2 ∧ target = word % 4096 := by
  constructor
  · intro asked
    have same := word_of_operation? asked (by simp)
    have encodable := operation?_encodable asked
    cases encodable with
    | call a =>
      have bound : a.val < 4096 := a.isLt
      simp only [Operation.word] at same
      omega
  · rintro ⟨family, rfl⟩
    have op : (ofWord word).op = 2 := family
    have address : (ofWord word).nnn = word % 4096 := by simp only [ofWord]; omega
    simp only [operation?, op, address]

/-- The words that wait for a key: a register between a nibble and a byte. -/
theorem operation?_eq_awaitKey_iff (word : Int) (x : Fin 16) :
    (ofWord word).operation? = some (.awaitKey x.val) ↔ word % 65536 = 0xF00A + 0x100 * x.val := by
  constructor
  · intro asked
    exact (word_of_operation? asked (by simp)).symm
  · intro same
    have bound := x.isLt
    have op : (ofWord word).op = 0xF := by simp only [ofWord]; omega
    have kk : (ofWord word).kk = 0x0A := by simp only [ofWord]; omega
    have register : (ofWord word).x = x.val := by simp only [ofWord]; omega
    simp only [operation?, op, kk, register, misc?]

/-- The words of family 8: two registers before the nibble of the operation. -/
theorem operation?_alu {word : Int} {f : Alu} {x y : Fin 16}
    (same : word % 65536 = 0x8000 + 0x100 * x.val + 0x10 * y.val + f.nibble) :
    (ofWord word).operation? = some (.alu f x.val y.val) := by
  have boundX := x.isLt
  have boundY := y.isLt
  have nibble : 0 ≤ f.nibble ∧ f.nibble < 16 := by cases f <;> decide
  have op : (ofWord word).op = 8 := by simp only [ofWord]; omega
  have first : (ofWord word).x = x.val := by simp only [ofWord]; omega
  have second : (ofWord word).y = y.val := by simp only [ofWord]; omega
  have last : (ofWord word).n = f.nibble := by simp only [ofWord]; omega
  have found : alu? f.nibble = some f := by cases f <;> rfl
  simp only [operation?, op, first, second, last, found, Option.map_some]

/-- The words that draw: two registers and the number of rows. -/
theorem operation?_draw {word : Int} {x y rows : Fin 16}
    (same : word % 65536 = 0xD000 + 0x100 * x.val + 0x10 * y.val + rows.val) :
    (ofWord word).operation? = some (.draw x.val y.val rows.val) := by
  have boundX := x.isLt
  have boundY := y.isLt
  have boundRows := rows.isLt
  have op : (ofWord word).op = 0xD := by simp only [ofWord]; omega
  have first : (ofWord word).x = x.val := by simp only [ofWord]; omega
  have second : (ofWord word).y = y.val := by simp only [ofWord]; omega
  have last : (ofWord word).n = rows.val := by simp only [ofWord]; omega
  simp only [operation?, op, first, second, last]

/-- The words of family F: a register before the byte of the operation. -/
theorem operation?_misc {word : Int} {x : Fin 16} (kk : Int) (low : 0 ≤ kk) (high : kk < 256)
    (same : word % 65536 = 0xF000 + 0x100 * x.val + kk) :
    (ofWord word).operation? = misc? x.val kk := by
  have boundX := x.isLt
  have op : (ofWord word).op = 0xF := by simp only [ofWord]; omega
  have register : (ofWord word).x = x.val := by simp only [ofWord]; omega
  have byte : (ofWord word).kk = kk := by simp only [ofWord]; omega
  simp only [operation?, op, register, byte]

end Instruction

end Chip8
