import Chip8.Instruction
import Chip8.Text.Numeral

/-! # Mnemonics

The name of an instruction in trace lines: the operation and its operands, numbers in capital
hexadecimal digits. A word that no operation has is shown as data, `DW` and the word.
-/

namespace Chip8.Instruction

open Text

def registerName (x : Int) : String := "V" ++ hex x

/-- The names of the two-register operations of family 8. -/
def aluName (n : Int) : Option String :=
  if n = 0x0 then some "LD"
  else if n = 0x1 then some "OR"
  else if n = 0x2 then some "AND"
  else if n = 0x3 then some "XOR"
  else if n = 0x4 then some "ADD"
  else if n = 0x5 then some "SUB"
  else if n = 0x6 then some "SHR"
  else if n = 0x7 then some "SUBN"
  else if n = 0xE then some "SHL"
  else none

/-- The texts before and after the register in the names of family F. -/
def miscName (kk : Int) : Option (String × String) :=
  if kk = 0x07 then some ("LD ", ", DT")
  else if kk = 0x0A then some ("LD ", ", K")
  else if kk = 0x15 then some ("LD DT, ", "")
  else if kk = 0x18 then some ("LD ST, ", "")
  else if kk = 0x1E then some ("ADD I, ", "")
  else if kk = 0x29 then some ("LD F, ", "")
  else if kk = 0x33 then some ("LD B, ", "")
  else if kk = 0x55 then some ("LD [I], ", "")
  else if kk = 0x65 then some ("LD ", ", [I]")
  else none

/-- The name of an instruction whose word has an operation. -/
def operationName (i : Instruction) : Option String :=
  let vx := registerName i.x
  let vy := registerName i.y
  if i.raw = 0x00E0 then some "CLS"
  else if i.raw = 0x00EE then some "RET"
  else if i.op = 0x0 then some ("SYS " ++ hex3 i.nnn)
  else if i.op = 0x1 then some ("JP " ++ hex3 i.nnn)
  else if i.op = 0x2 then some ("CALL " ++ hex3 i.nnn)
  else if i.op = 0x3 then some ("SE " ++ vx ++ ", " ++ hex2 i.kk)
  else if i.op = 0x4 then some ("SNE " ++ vx ++ ", " ++ hex2 i.kk)
  else if i.op = 0x5 then if i.n = 0 then some ("SE " ++ vx ++ ", " ++ vy) else none
  else if i.op = 0x6 then some ("LD " ++ vx ++ ", " ++ hex2 i.kk)
  else if i.op = 0x7 then some ("ADD " ++ vx ++ ", " ++ hex2 i.kk)
  else if i.op = 0x8 then (aluName i.n).map fun name => name ++ " " ++ vx ++ ", " ++ vy
  else if i.op = 0x9 then if i.n = 0 then some ("SNE " ++ vx ++ ", " ++ vy) else none
  else if i.op = 0xA then some ("LD I, " ++ hex3 i.nnn)
  else if i.op = 0xB then some ("JP V0, " ++ hex3 i.nnn)
  else if i.op = 0xC then some ("RND " ++ vx ++ ", " ++ hex2 i.kk)
  else if i.op = 0xD then some ("DRW " ++ vx ++ ", " ++ vy ++ ", " ++ hex i.n)
  else if i.op = 0xE then
    if i.kk = 0x9E then some ("SKP " ++ vx)
    else if i.kk = 0xA1 then some ("SKNP " ++ vx)
    else none
  else if i.op = 0xF then (miscName i.kk).map fun (before, after) => before ++ vx ++ after
  else none

/-- The name of an instruction; a word without an operation is shown as data. -/
def mnemonic (i : Instruction) : String := i.operationName.getD ("DW " ++ hex4 i.raw)

end Chip8.Instruction
