import Chip8.Byte
import Chip8.Fault
import Chip8.Font

/-! # Memory

A flat store of 4096 bytes, addressed by any integer. A fresh memory holds the font table and
zeros. Stores keep the low eight bits of the value and leave the font table alone; the one law of
the store is `read_write`.
-/

namespace Chip8

/-- The bytes of memory. -/
structure Memory where
  bytes : Vector UInt8 memorySize
deriving DecidableEq

namespace Memory

/-- The bytes from an address on are replaced by a list that memory has room for. -/
def place (m : Memory) (base : Nat) (data : List UInt8)
    (fits : base + data.length ≤ memorySize) : Memory :=
  ⟨⟨(m.bytes.toList.take base ++ data ++ m.bytes.toList.drop (base + data.length)).toArray, by
    simp only [List.size_toArray, List.length_append, List.length_take, List.length_drop,
      Vector.length_toList]
    omega⟩⟩

/-- Zeros, with the font table in its place. -/
def initial : Memory := (Memory.mk (Vector.replicate memorySize 0)).place fontBase font (by decide)

/-- Every byte zero, then the font table in its place. -/
def reset (_ : Memory) : Memory :=
  (Memory.mk (Vector.replicate memorySize 0)).place fontBase font (by decide)

/-- The byte in the cell that an integer denotes. -/
def read (m : Memory) (a : Int) : UInt8 := m.bytes[Address.ofInt a]

def isProtected (a : Int) : Bool := decide (Address.ofInt a).InFont

/-- Store the low eight bits of a value, except into the font table. -/
def write (m : Memory) (a value : Int) : Memory :=
  if isProtected a then m
  else ⟨m.bytes.set (Address.ofInt a) (lowByte value) (Address.ofInt a).isLt⟩

/-- Store a list of bytes at successive addresses, the first one first. -/
def writeBytes (m : Memory) (a : Int) : List UInt8 → Memory
  | [] => m
  | b :: rest => (m.write a b.toNat).writeBytes (a + 1) rest

/-- The bytes at `length` successive addresses; none for a length that is not positive. -/
def readBytes (m : Memory) (a length : Int) : List UInt8 :=
  (List.range length.toNat).map fun offset => m.read (a + (offset : Nat))

def placeProgram (m : Memory) (program : List UInt8)
    (fits : program.length ≤ programCapacity) : Memory :=
  m.place programStart program ((Nat.le_sub_iff_add_le' (by decide)).mp fits)

/-- A program placed at the program start; one that does not fit below the top is refused. -/
def loadProgram (m : Memory) (program : List UInt8) : Except Refusal Memory :=
  if tooLarge : programCapacity < program.length then
    .error (.programTooLarge program.length programCapacity)
  else .ok (m.placeProgram program (Nat.le_of_not_lt tooLarge))

theorem toList_place (m : Memory) {base : Nat} {data : List UInt8}
    (fits : base + data.length ≤ memorySize) :
    (m.place base data fits).bytes.toList =
      m.bytes.toList.take base ++ data ++ m.bytes.toList.drop (base + data.length) := rfl

theorem read_place (m : Memory) {base : Nat} {data : List UInt8}
    (fits : base + data.length ≤ memorySize) (a : Int) :
    (m.place base data fits).read a =
      if base ≤ (Address.ofInt a).val then data.getD ((Address.ofInt a).val - base) (m.read a)
      else m.read a := by
  have total (k : Memory) : k.bytes.toList.length = memorySize := Vector.length_toList
  have readAt (k : Memory) : k.bytes.toList[(Address.ofInt a).val]? = some (k.read a) := by
    rw [List.getElem?_eq_getElem (by rw [total]; exact (Address.ofInt a).isLt),
      Vector.getElem_toList]
    rfl
  have front : (m.bytes.toList.take base).length = base := by
    rw [List.length_take, total]
    omega
  apply Option.some.inj
  rw [← readAt, toList_place, List.append_assoc]
  by_cases before : (Address.ofInt a).val < base
  · rw [if_neg (Nat.not_le_of_lt before), List.getElem?_append_left (by rwa [front]),
      List.getElem?_take_of_lt before, readAt]
  · rw [if_pos (Nat.le_of_not_lt before), List.getElem?_append_right (by omega), front,
      List.getD_eq_getElem?_getD]
    by_cases inside : (Address.ofInt a).val - base < data.length
    · rw [List.getElem?_append_left inside, List.getElem?_eq_getElem inside, Option.getD_some]
    · have cell : base + data.length + ((Address.ofInt a).val - base - data.length) =
          (Address.ofInt a).val := by omega
      rw [List.getElem?_append_right (Nat.le_of_not_lt inside), List.getElem?_drop, cell, readAt,
        List.getElem?_eq_none (Nat.le_of_not_lt inside), Option.getD_none]

/-- A store is seen at its own cell, unless protected, and nowhere else. -/
theorem read_write (m : Memory) (a value b : Int) :
    (m.write a value).read b =
      if Address.ofInt a = Address.ofInt b ∧ ¬ (Address.ofInt b).InFont
      then lowByte value else m.read b := by
  unfold write isProtected read
  by_cases same : Address.ofInt a = Address.ofInt b
  · by_cases inFont : (Address.ofInt b).InFont
    · simp [same, inFont]
    · simp [same, inFont]
  · have apart : (Address.ofInt a).val ≠ (Address.ofInt b).val := fun h => same (Fin.ext h)
    split
    · simp [same]
    · simp only [same, false_and, ↓reduceIte]
      exact Vector.getElem_set_ne _ _ apart

/-- Two memories with equal reads are equal. -/
theorem ext_read {m n : Memory} (h : ∀ a : Int, m.read a = n.read a) : m = n := by
  have same : m.bytes = n.bytes := by
    apply Vector.ext
    intro i bound
    have readAt (k : Memory) : k.read (i : Nat) = k.bytes[i] := by
      have cell : Address.ofInt (i : Nat) = ⟨i, bound⟩ := Address.ofInt_val ⟨i, bound⟩
      simp only [read, cell, Fin.getElem_fin]
    rw [← readAt m, ← readAt n]
    exact h i
  cases m
  cases n
  exact congrArg Memory.mk same

theorem placeProgram_nil (m : Memory) : m.placeProgram [] (Nat.zero_le _) = m := by
  apply ext_read
  intro a
  rw [placeProgram, read_place, List.getD_nil, ite_self]

end Memory

end Chip8
