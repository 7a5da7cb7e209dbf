/-! # Addresses

Memory has 4096 cells, and every integer denotes one of them: its residue modulo 4096. Index
arithmetic therefore never leaves memory, it wraps around at the top.
-/

namespace Chip8

abbrev memorySize : Nat := 4096

/-- The cell where a program is placed and where execution starts. -/
abbrev programStart : Nat := 0x200

/-- The number of bytes between the program start and the top of memory. -/
abbrev programCapacity : Nat := memorySize - programStart

abbrev Address := Fin memorySize

/-- The cell that an integer denotes, counted modulo the size of memory. -/
def Address.ofInt (a : Int) : Address := ⟨(a % 4096).toNat, by change _ < 4096; omega⟩

/-- An integer brought into the address range, kept as an integer. -/
def wrapAddress (a : Int) : Int := a % 4096

theorem wrapAddress_nonneg (a : Int) : 0 ≤ wrapAddress a := by
  unfold wrapAddress
  omega

theorem wrapAddress_lt (a : Int) : wrapAddress a < 4096 := by
  unfold wrapAddress
  omega

@[simp] theorem wrapAddress_wrapAddress (a : Int) :
    wrapAddress (wrapAddress a) = wrapAddress a := by
  unfold wrapAddress
  omega

namespace Address

@[simp] theorem val_ofInt (a : Int) : (ofInt a : Nat) = (a % 4096).toNat := rfl

/-- Two integers denote one cell exactly when they agree modulo the size of memory. -/
theorem ofInt_eq_iff {a b : Int} : ofInt a = ofInt b ↔ a % 4096 = b % 4096 := by
  simp only [Fin.ext_iff, val_ofInt]
  omega

@[simp] theorem ofInt_wrapAddress (a : Int) : ofInt (wrapAddress a) = ofInt a := by
  rw [ofInt_eq_iff]
  unfold wrapAddress
  omega

@[simp] theorem ofInt_val (a : Address) : ofInt (a : Nat) = a := by
  have bound : (a : Nat) < 4096 := a.isLt
  ext
  simp only [val_ofInt]
  omega

end Address

end Chip8
