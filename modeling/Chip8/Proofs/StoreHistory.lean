import Chip8.Proofs.StoreLoad
import Mathlib.Data.List.Induction

/-! # Memory and the history of its stores

What a byte of memory is, told by what happened to it: the last store into its cell, or else the
program, or else zero. The cells of the font table stay out of all this. Blocks are read byte by
byte, however long they are and wherever they begin.
-/

namespace Chip8

/-- A store: any integer as the address, and any as the value. -/
structure Store where
  address : Int
  value : Int
deriving DecidableEq

/-- The last of some stores into the cell that an integer denotes. -/
def lastStore (stores : List Store) (b : Int) : Option Store :=
  (stores.filter fun store => decide (store.address % 4096 = b % 4096)).getLast?

theorem lastStore_concat (stores : List Store) (store : Store) (b : Int) :
    lastStore (stores ++ [store]) b =
      if store.address % 4096 = b % 4096 then some store else lastStore stores b := by
  simp only [lastStore, List.filter_append, List.filter_cons, List.filter_nil, decide_eq_true_eq]
  split
  · exact List.getLast?_concat
  · rw [List.append_nil]

/-- The byte that stores leave in a cell, with a program in memory before them. -/
def heldByte (program : List UInt8) (stores : List Store) (b : Int) : Int :=
  let cell := (b % 4096).toNat
  if 0x050 ≤ cell ∧ cell ≤ 0x09F then (font.getD (cell - 0x050) 0).toNat
  else match lastStore stores b with
    | some store => store.value % 256
    | none => if programStart ≤ cell then (program.getD (cell - programStart) 0).toNat else 0

namespace Memory

def storeAll (m : Memory) (stores : List Store) : Memory :=
  stores.foldl (fun m store => m.write store.address store.value) m

theorem storeAll_concat (m : Memory) (stores : List Store) (store : Store) :
    m.storeAll (stores ++ [store]) = (m.storeAll stores).write store.address store.value := by
  rw [storeAll, List.foldl_append]
  rfl

/-- The last store into a cell is what is read there, and without one the old byte. -/
theorem read_storeAll (m : Memory) (stores : List Store) (b : Int) :
    (m.storeAll stores).read b =
      if (Address.ofInt b).InFont then m.read b
      else ((lastStore stores b).map fun store => lowByte store.value).getD (m.read b) := by
  -- From the last store backwards: it decides about its own cell, and about no other.
  induction stores using List.reverseRecOn with
  | nil => exact (ite_self _).symm
  | append_singleton stores store ih =>
    rw [storeAll_concat, read_write, ih, lastStore_concat]
    by_cases inFont : (Address.ofInt b).InFont
    · simp only [inFont, not_true_eq_false, and_false, ↓reduceIte]
    · by_cases same : store.address % 4096 = b % 4096
      · simp only [Address.ofInt_eq_iff, inFont, same, not_false_eq_true, and_self, ↓reduceIte,
          Option.map_some, Option.getD_some]
      · simp only [Address.ofInt_eq_iff, inFont, same, false_and, ↓reduceIte]

theorem reset_eq_initial (m : Memory) : m.reset = initial := rfl

/-- A fresh memory holds the glyphs in the cells of the font table and zeros in all others. -/
theorem read_initial (b : Int) :
    initial.read b =
      if (Address.ofInt b).InFont then font.getD ((Address.ofInt b).val - fontBase) 0 else 0 := by
  have zeros (a : Int) : (Memory.mk (Vector.replicate memorySize 0)).read a = 0 := by
    simp [Memory.read]
  rw [initial, read_place, zeros]
  by_cases behind : fontBase ≤ (Address.ofInt b).val
  · rw [if_pos behind]
    split_ifs with inFont
    · rfl
    · have beyond : font.length ≤ (Address.ofInt b).val - fontBase := by
        rw [length_font]
        unfold Address.InFont at inFont
        omega
      rw [List.getD_eq_getElem?_getD, List.getElem?_eq_none beyond, Option.getD_none]
  · rw [if_neg behind, if_neg fun inFont => behind inFont.1]

/-- What is read from a fresh memory with a program after some stores. -/
theorem read_storeAll_program {program : List UInt8} (fits : program.length ≤ programCapacity)
    (stores : List Store) (b : Int) :
    (((initial.placeProgram program fits).storeAll stores).read b).toNat =
      heldByte program stores b := by
  have isFont : (Address.ofInt b).InFont ↔
      0x050 ≤ (b % 4096).toNat ∧ (b % 4096).toNat ≤ 0x09F := by
    simp only [Address.InFont, fontBase, Address.val_ofInt]
    omega
  rw [read_storeAll, placeProgram, read_place, read_initial, heldByte]
  simp only [← isFont, Address.val_ofInt]
  by_cases inFont : (Address.ofInt b).InFont
  · have below : ¬ programStart ≤ (b % 4096).toNat := by
      have := isFont.mp inFont
      simp only [programStart]
      omega
    simp only [inFont, below, ↓reduceIte]
  · simp only [inFont, ↓reduceIte]
    cases lastStore stores b with
    | none =>
      rw [Option.map_none, Option.getD_none]
      split_ifs <;> rfl
    | some store =>
      have low : ((store.value % 256).toNat : Int) = store.value % 256 := by omega
      simpa only [Option.map_some, Option.getD_some, toNat_lowByte] using low

theorem length_readBytes (m : Memory) (b n : Int) : (m.readBytes b n).length = n.toNat := by
  rw [readBytes, List.length_map, List.length_range]

theorem readBytes_getElem? (m : Memory) (b : Int) {n : Int} {k : Nat} (inside : (k : Int) < n) :
    (m.readBytes b n)[k]? = some (m.read (b + k)) := by
  rw [readBytes, List.getElem?_map, List.getElem?_range (by omega), Option.map_some]

/-- Memory fresh or put back to its start, with or without a program, and any stores after that:
every byte of the font table is in its place, and each other cell holds the low eight bits of the
last value stored into it, whatever integers denoted the cell, and without one the byte of the
program or zero. A block from any integer on has the byte of each of its integers, in order. -/
theorem stores_of_start (before : Memory) {program : List UInt8}
    (fits : program.length ≤ programCapacity) (stores : List Store) :
    (∀ start ∈ [initial, before.reset],
      (∀ b, ((start.storeAll stores).read b).toNat = heldByte [] stores b) ∧
      ∃ loaded, start.loadProgram program = .ok loaded ∧
        ∀ b, ((loaded.storeAll stores).read b).toNat = heldByte program stores b) ∧
    ∀ (m : Memory) (b n : Int), 0 ≤ n →
      ((m.readBytes b n).length : Int) = n ∧
      ∀ k : Nat, (k : Int) < n → (m.readBytes b n)[k]? = some (m.read (b + k)) := by
  refine ⟨?_, ?_⟩
  · intro start isStart
    obtain rfl : start = initial := by
      simpa only [reset_eq_initial, List.mem_cons, List.not_mem_nil, or_false, or_self]
        using isStart
    have small : ¬ programCapacity < program.length := Nat.not_lt_of_le fits
    refine ⟨fun b => ?_, _, dif_neg small, read_storeAll_program fits stores⟩
    rw [← read_storeAll_program (Nat.zero_le _), placeProgram_nil]
  · intro m b n positive
    refine ⟨?_, fun k inside => m.readBytes_getElem? b inside⟩
    rw [length_readBytes]
    omega

/-- A program of two bytes, its second byte stored over twice through other integers and a store
into the font table. -/
theorem stores_of_start_twice :
    let program : List UInt8 := [0x12, 0x34]
    let stores : List Store := [⟨0x201, 7⟩, ⟨0x201 - 4096, -1⟩, ⟨0x050, 9⟩]
    program.length ≤ programCapacity ∧ initial ∈ [initial, initial.reset] ∧
      ∃ loaded, initial.loadProgram program = .ok loaded ∧
        ((loaded.storeAll stores).read 0x200).toNat = 0x12 ∧
        ((loaded.storeAll stores).read 0x201).toNat = 0xFF ∧
        ((loaded.storeAll stores).read (0x050 + 4096)).toNat = 0xF0 ∧
        (0 : Int) ≤ 5000 ∧ ((loaded.readBytes 0x200 5000).length : Int) = 5000 := by
  intro program stores
  have fits : program.length ≤ programCapacity := by decide
  have isStart : initial ∈ [initial, initial.reset] := List.mem_cons_self
  obtain ⟨starts, blocks⟩ := stores_of_start initial fits stores
  obtain ⟨-, loaded, accepted, held⟩ := starts initial isStart
  have first : heldByte program stores 0x200 = 0x12 := by decide
  have second : heldByte program stores 0x201 = 0xFF := by decide
  have glyph : heldByte program stores (0x050 + 4096) = 0xF0 := by decide
  refine ⟨fits, isStart, loaded, accepted, ?_, ?_, ?_, by decide,
    (blocks loaded 0x200 5000 (by decide)).1⟩
  · exact Int.ofNat_inj.mp ((held _).trans first)
  · exact Int.ofNat_inj.mp ((held _).trans second)
  · exact Int.ofNat_inj.mp ((held _).trans glyph)

end Memory

end Chip8
