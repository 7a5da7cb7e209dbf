import Chip8.Instruction.Mnemonic
import Chip8.Proofs.Decoding
import Mathlib.Tactic.IntervalCases
import Mathlib.Tactic.SplitIfs

/-! # Names of decoded words

A word is shown as data exactly when no operation has it: the names and the operations are two
readings of the same encodings.
-/

namespace Chip8.Instruction

private theorem aluName_eq_none_iff (n : Fin 16) :
    aluName (n.val : Int) = none ↔ alu? (n.val : Int) = none := by
  revert n
  decide

private theorem miscName_eq_none_iff (x kk : Int) : miscName kk = none ↔ misc? x kk = none := by
  unfold misc?
  split
  case h_10 => simp_all [miscName]
  all_goals simp [miscName]

/-- A word without a name is a word without an operation. -/
theorem operationName_eq_none_iff (word : Int) :
    (ofWord word).operationName = none ↔ (ofWord word).operation? = none := by
  obtain ⟨x, y, n, kk, nnn, isX, isY, isN, isKk, isNnn⟩ := ofWord_fields word
  have low : 0 ≤ (ofWord word).op := by simp only [ofWord]; omega
  have high : (ofWord word).op < 16 := by simp only [ofWord]; omega
  -- Names look at the whole word first, operations at its family.
  have ofFamily : (ofWord word).op ≠ 0 →
      (ofWord word).raw ≠ 0x00E0 ∧ (ofWord word).raw ≠ 0x00EE := by
    simp only [ofWord]
    omega
  interval_cases family : (ofWord word).op
  all_goals simp only [operationName, operation?, family, Int.reduceEq, ↓reduceIte, ofFamily, ne_eq,
    not_false_eq_true, reduceCtorEq]
  · split_ifs <;> simp
  · split_ifs <;> simp
  · simp only [Option.map_eq_none_iff, isN, aluName_eq_none_iff]
  · split_ifs <;> simp
  · split_ifs with down up
    · simp [down]
    · simp [up]
    · split <;> simp_all
  · rw [Option.map_eq_none_iff]
    exact miscName_eq_none_iff _ _

/-- A word without an operation is shown as data. -/
theorem mnemonic_of_undefined {word : Int} (undefined : (ofWord word).operation? = none) :
    (ofWord word).mnemonic = "DW " ++ Text.hex4 (word % 65536) := by
  rw [mnemonic, (operationName_eq_none_iff word).mpr undefined]
  rfl

end Chip8.Instruction
