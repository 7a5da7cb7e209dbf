import Chip8.Proofs.Decoding

/-! # Arithmetic in registers

The two-register operations, each by the equation that ties its result and its flag to the values
before it. The result is written first and the flag last, so whichever registers coincide, both
operands are read before either is written, and a flag register that is also the target ends as the
flag.
-/

namespace Chip8

def Dialect.shiftSource (d : Dialect) (a b : Nat) : Nat := if d.shiftUsesVy then b else a

/-- The flag of a subtraction: nothing borrowed, or the other way round. -/
def Dialect.IsBorrowFlag (d : Dialect) (minuend subtrahend flag : Nat) : Prop :=
  flag ≤ 1 ∧ (flag = 1 ↔ (subtrahend ≤ minuend ↔ d.borrowFlagInverted = false))

namespace Alu

def SetsFlag : Alu → Prop
  | copy | or | and | xor => False
  | add | subtract | subtractFrom | shiftRight | shiftLeft => True

/-- The law of an operation on the values `a` and `b` of its registers: what its result and its
flag are, if it sets one. -/
def Law (d : Dialect) (a b result flag : Nat) : Alu → Prop
  | copy => result = b
  | or => result = a ||| b
  | and => result = a &&& b
  | xor => result = a ^^^ b
  | add => result + 256 * flag = a + b
  | subtract => (result : Int) = ((a : Int) - b) % 256 ∧ d.IsBorrowFlag a b flag
  | subtractFrom => (result : Int) = ((b : Int) - a) % 256 ∧ d.IsBorrowFlag b a flag
  | shiftRight => 2 * result + flag = d.shiftSource a b ∧ flag ≤ 1
  | shiftLeft => result + 256 * flag = 2 * d.shiftSource a b

theorem isBorrowFlag (d : Dialect) (minuend subtrahend : UInt8) :
    d.IsBorrowFlag minuend.toNat subtrahend.toNat (d.subtractionFlag minuend subtrahend).toNat := by
  simp only [Dialect.IsBorrowFlag, Dialect.subtractionFlag, ← UInt8.le_iff_toNat_le]
  by_cases enough : subtrahend ≤ minuend <;> cases d.borrowFlagInverted <;> simp [enough]

theorem toNat_sub (a b : UInt8) : ((a - b).toNat : Int) = ((a.toNat : Int) - b.toNat) % 256 := by
  have boundA := a.toNat_lt
  have boundB := b.toNat_lt
  rw [UInt8.toNat_sub]
  omega

theorem toNat_shiftSource (d : Dialect) (a b : UInt8) :
    (if d.shiftUsesVy then b else a).toNat = d.shiftSource a.toNat b.toNat := by
  unfold Dialect.shiftSource
  split <;> rfl

/-- An operation that sets the flag keeps to its law. -/
theorem apply_of_setsFlag {f : Alu} (sets : f.SetsFlag) (d : Dialect) (a b : UInt8) :
    ∃ result flag, f.apply d a b = (result, some flag) ∧
      f.Law d a.toNat b.toNat result.toNat flag.toNat := by
  have boundA := a.toNat_lt
  have boundB := b.toNat_lt
  cases f with
  | copy | or | and | xor => exact sets.elim
  | add =>
    refine ⟨_, _, rfl, ?_⟩
    simp only [Law, UInt8.toNat_add]
    split
    · change _ + 256 * 1 = _
      omega
    · change _ + 256 * 0 = _
      omega
  | subtract => exact ⟨_, _, rfl, toNat_sub a b, isBorrowFlag d a b⟩
  | subtractFrom => exact ⟨_, _, rfl, toNat_sub b a, isBorrowFlag d b a⟩
  | shiftRight =>
    refine ⟨_, _, rfl, ?_⟩
    simp only [Law, ← toNat_shiftSource]
    generalize (if d.shiftUsesVy then b else a) = source
    have half : (source >>> 1).toNat = source.toNat / 2 := by simp [Nat.shiftRight_eq_div_pow]
    have bit : (source &&& 1).toNat = source.toNat % 2 := by simp [Nat.and_one_is_mod]
    omega
  | shiftLeft =>
    refine ⟨_, _, rfl, ?_⟩
    simp only [Law, ← toNat_shiftSource]
    generalize (if d.shiftUsesVy then b else a) = source
    have bound := source.toNat_lt
    have double : (source <<< 1).toNat = 2 * source.toNat % 256 := by
      simp [Nat.shiftLeft_eq, Nat.mul_comm]
    have bit : (source >>> 7).toNat = source.toNat / 128 := by simp [Nat.shiftRight_eq_div_pow]
    omega

/-- An operation that sets no flag keeps to its law, which is one of the result alone. -/
theorem apply_of_not_setsFlag {f : Alu} (free : ¬ f.SetsFlag) (d : Dialect) (a b : UInt8) :
    ∃ result, f.apply d a b = (result, none) ∧
      ∀ flag, f.Law d a.toNat b.toNat result.toNat flag := by
  cases f with
  | copy => exact ⟨_, rfl, fun _ => rfl⟩
  | or => exact ⟨_, rfl, fun _ => UInt8.toNat_or a b⟩
  | and => exact ⟨_, rfl, fun _ => UInt8.toNat_and a b⟩
  | xor => exact ⟨_, rfl, fun _ => UInt8.toNat_xor a b⟩
  | add | subtract | subtractFrom | shiftRight | shiftLeft => exact (free trivial).elim

end Alu

namespace Instruction

/-- The words that add a byte to a register. -/
theorem operation?_addByte {word : Int} {x : Fin 16} {kk : UInt8}
    (same : word % 65536 = 0x7000 + 0x100 * x.val + kk.toNat) :
    (ofWord word).operation? = some (.addByte x.val kk.toNat) := by
  have boundX := x.isLt
  have boundKk := kk.toNat_lt
  have op : (ofWord word).op = 7 := by simp only [ofWord]; omega
  have register : (ofWord word).x = x.val := by simp only [ofWord]; omega
  have byte : (ofWord word).kk = kk.toNat := by simp only [ofWord]; omega
  simp only [operation?, op, register, byte]

end Instruction

namespace Machine

variable {m : Machine} {d : Dialect} {x y : Fin 16}

/-- A byte put into one register is seen there, and the others are as before. -/
theorem get_setRegister (m : Machine) (x k : Fin 16) (b : UInt8) :
    (m.setRegister x b).registers.v.get k = if x = k then b else m.registers.v.get k := by
  simp only [Fin.ext_iff]
  exact Vector.getElem_set x.isLt k.isLt

/-- What an operation on two registers leaves. It finishes and changes registers only, and of these
the first and, if it sets the flag, the flag register. Its result and its flag keep to the law of
the operation on the values before it. The flag register ends as the flag, and the first register
as the result unless it is the flag register itself. -/
structure Calculates (d : Dialect) (f : Alu) (x y : Fin 16) (m : Machine) (o : Outcome Unit) :
    Prop where
  finished : o.answer = .ok ()
  elsewhere : o.machine =
    { m with registers := { m.registers with v := o.machine.registers.v } }
  others : ∀ k, k ≠ x → (f.SetsFlag → k ≠ Registers.flagRegister) →
    o.machine.registers.v.get k = m.registers.v.get k
  law : ∃ result flag : UInt8,
    f.Law d (m.registers.v.get x).toNat (m.registers.v.get y).toNat result.toNat flag.toNat ∧
    (f.SetsFlag → o.machine.registers.v.get Registers.flagRegister = flag) ∧
    ((f.SetsFlag → x ≠ Registers.flagRegister) → o.machine.registers.v.get x = result)

theorem calculates_runAlu (d : Dialect) (f : Alu) (x y : Fin 16) (m : Machine) :
    Calculates d f x y m (.done () (m.runAlu d f x y)) := by
  by_cases sets : f.SetsFlag
  · obtain ⟨result, flag, applied, law⟩ :=
      f.apply_of_setsFlag sets d (m.registers.v.get x) (m.registers.v.get y)
    have ran : m.runAlu d f x y =
        (m.setRegister x result).setRegister Registers.flagRegister flag := by
      simp only [runAlu, applied]
    rw [ran]
    refine ⟨rfl, rfl, ?_, result, flag, law, ?_, ?_⟩
    · intro k apart noFlag
      rw [Outcome.machine_done, get_setRegister, if_neg (noFlag sets).symm, get_setRegister,
        if_neg apart.symm]
    · intro _
      exact v_setRegister ..
    · intro noFlag
      rw [Outcome.machine_done, get_setRegister, if_neg (noFlag sets).symm, v_setRegister]
  · obtain ⟨result, applied, law⟩ :=
      f.apply_of_not_setsFlag sets d (m.registers.v.get x) (m.registers.v.get y)
    have ran : m.runAlu d f x y = m.setRegister x result := by simp only [runAlu, applied]
    rw [ran]
    refine ⟨rfl, rfl, ?_, result, 0, law _, fun does => (sets does).elim, ?_⟩
    · intro k apart _
      rw [Outcome.machine_done, get_setRegister, if_neg apart.symm]
    · intro _
      exact v_setRegister ..

/-- The words of family 8 keep to the laws of their operations. -/
theorem exec_calculates (m : Machine) (d : Dialect) {f : Alu} {word : Int}
    (isWord : word % 65536 = 0x8000 + 0x100 * x.val + 0x10 * y.val + f.nibble) :
    Calculates d f x y m (m.exec d (.ofWord word)) := by
  simp only [exec, Instruction.operation?_alu isWord, run, Registers.slot_val, Outcome.lookup_ok]
  exact calculates_runAlu d f x y m

theorem exec_addByte (m : Machine) (d : Dialect) {kk : UInt8} {word : Int}
    (isWord : word % 65536 = 0x7000 + 0x100 * x.val + kk.toNat) :
    m.exec d (.ofWord word) =
      .done () (m.setRegister x (lowByte (m.registers.get x + kk.toNat))) := by
  simp only [exec, Instruction.operation?_addByte isWord, run, Registers.slot_val,
    Outcome.lookup_ok]

/-- A register is subtracted again after it was added. -/
theorem subtract_add (apart : x ≠ y) (noFlagX : x ≠ Registers.flagRegister)
    (noFlagY : y ≠ Registers.flagRegister) {o o' : Outcome Unit}
    (added : Calculates d .add x y m o) (subtracted : Calculates d .subtract x y o.machine o') :
    o'.machine.registers.v.get x = m.registers.v.get x := by
  obtain ⟨sum, carry, sumLaw, -, isSum⟩ := added.law
  obtain ⟨difference, -, ⟨differenceLaw, -⟩, -, isDifference⟩ := subtracted.law
  have kept : o.machine.registers.v.get y = m.registers.v.get y :=
    added.others y apart.symm fun _ => noFlagY
  rw [isSum fun _ => noFlagX, kept] at differenceLaw
  rw [isDifference fun _ => noFlagX, ← UInt8.toNat_inj]
  have bound := (m.registers.v.get x).toNat_lt
  change sum.toNat + 256 * carry.toNat = _ at sumLaw
  omega

/-- Arithmetic in registers, on any machine, in any dialect and for any choice of registers, also
the same one twice or the flag register. The nine operations of family 8 keep to their laws and
change nothing else. Adding a byte changes one register, modulo 256, and sets no flag. Subtracting
the second register after adding it restores the first one, if these two and the flag register are
three registers. -/
theorem arithmetic_of_words (m : Machine) (d : Dialect) (x y : Fin 16) :
    (∀ (f : Alu) (word : Int),
      word % 65536 = 0x8000 + 0x100 * x.val + 0x10 * y.val + f.nibble →
        Calculates d f x y m (m.exec d (.ofWord word))) ∧
    (∀ (kk : UInt8) (word : Int), word % 65536 = 0x7000 + 0x100 * x.val + kk.toNat →
      ∃ sum : UInt8, m.exec d (.ofWord word) = .done () (m.setRegister x sum) ∧
        sum.toNat = ((m.registers.v.get x).toNat + kk.toNat) % 256) ∧
    (x ≠ y → x ≠ Registers.flagRegister → y ≠ Registers.flagRegister → ∀ add subtract : Int,
      add % 65536 = 0x8004 + 0x100 * x.val + 0x10 * y.val →
      subtract % 65536 = 0x8005 + 0x100 * x.val + 0x10 * y.val →
        let sum := (m.exec d (.ofWord add)).machine
        (sum.exec d (.ofWord subtract)).machine.registers.v.get x = m.registers.v.get x) := by
  refine ⟨fun f word isWord => exec_calculates m d isWord, ?_, ?_⟩
  · intro kk word isWord
    refine ⟨_, exec_addByte m d isWord, ?_⟩
    rw [toNat_lowByte]
    change (((m.registers.v.get x).toNat + kk.toNat : Int) % 256).toNat = _
    omega
  · intro apart noFlagX noFlagY add subtract isAdd isSubtract sum
    have nibbles : Alu.add.nibble = 4 ∧ Alu.subtract.nibble = 5 := ⟨rfl, rfl⟩
    have added : Calculates d .add x y m (m.exec d (.ofWord add)) :=
      exec_calculates m d (by omega)
    have subtracted : Calculates d .subtract x y sum (sum.exec d (.ofWord subtract)) :=
      exec_calculates sum d (by omega)
    exact subtract_add apart noFlagX noFlagY added subtracted

/-- With 200 in all registers: a sum in the flag register gives way to its carry, a sum with a byte
wraps, and a sum and a difference cancel. -/
theorem arithmetic_of_words_carry :
    let m : Machine := { initial {} with
      registers := { Registers.initial with v := Vector.replicate 16 200 } }
    let sum := (m.exec {} (.ofWord 0x8014)).machine
    (0x8F04 : Int) % 65536 =
        0x8000 + 0x100 * (15 : Fin 16).val + 0x10 * (0 : Fin 16).val + Alu.add.nibble ∧
      (m.exec {} (.ofWord 0x8F04)).machine.registers.v.get 15 = 1 ∧
      (0x7064 : Int) % 65536 = 0x7000 + 0x100 * (0 : Fin 16).val + (100 : UInt8).toNat ∧
      m.exec {} (.ofWord 0x7064) = .done () (m.setRegister 0 44) ∧
      ((0 : Fin 16) ≠ 1 ∧ (0 : Fin 16) ≠ Registers.flagRegister ∧
        (1 : Fin 16) ≠ Registers.flagRegister) ∧
      (sum.exec {} (.ofWord 0x8015)).machine.registers.v.get 0 = 200 := by
  intro m sum
  have value (k : Fin 16) : m.registers.v.get k = 200 := Vector.getElem_replicate k.isLt
  have isSum : (0x8F04 : Int) % 65536 =
      0x8000 + 0x100 * (15 : Fin 16).val + 0x10 * (0 : Fin 16).val + Alu.add.nibble := by decide
  have isByte : (0x7064 : Int) % 65536 =
      0x7000 + 0x100 * (0 : Fin 16).val + (100 : UInt8).toNat := by decide
  obtain ⟨calculates, -, -⟩ := arithmetic_of_words m {} 15 0
  obtain ⟨-, addsByte, restores⟩ := arithmetic_of_words m {} 0 1
  refine ⟨isSum, ?_, isByte, ?_, by decide, ?_⟩
  · obtain ⟨result, flag, law, isFlag, -⟩ := (calculates .add 0x8F04 isSum).law
    have bound := result.toNat_lt
    rw [value, value] at law
    change result.toNat + 256 * flag.toNat = 200 + 200 at law
    have carry : flag.toNat = 1 := by omega
    exact (isFlag trivial).trans (UInt8.toNat_inj.mp carry)
  · obtain ⟨byte, ran, isByteSum⟩ := addsByte 100 0x7064 isByte
    rw [value] at isByteSum
    have wrapped : byte = 44 := UInt8.toNat_inj.mp isByteSum
    rw [ran, wrapped]
  · have cancel :=
      restores (by decide) (by decide) (by decide) 0x8014 0x8015 (by decide) (by decide)
    exact cancel.trans (value 0)

end Machine

end Chip8
