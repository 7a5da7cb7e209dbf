import Chip8.Proofs.Step

/-! # Words in memory

A word of sixteen bits is kept as two bytes, the high one first. Wherever its bytes stand, be it as
part of a loaded program or stored by one, around the top of memory too, the word is decoded from
there and a running machine executes it. The font table takes no stores, so it holds no such words.
-/

namespace Chip8

/-- The bytes of the low sixteen bits of a word, the high one first. -/
def wordBytes (word : Int) : List UInt8 := [lowByte (word / 256), lowByte word]

/-- The program whose words are these, one behind the other. -/
def programOf (words : List Int) : List UInt8 := words.flatMap wordBytes

/-- A program has two bytes for each word. -/
theorem length_programOf (words : List Int) : (programOf words).length = 2 * words.length := by
  induction words with
  | nil => rfl
  | cons word rest ih =>
    rw [programOf, List.flatMap_cons, List.length_append, ← programOf, ih, List.length_cons]
    simp only [wordBytes, List.length_cons, List.length_nil]
    omega

/-- Memory has room for the program of 1792 words. -/
theorem length_programOf_le {words : List Int} (fits : words.length ≤ 1792) :
    (programOf words).length ≤ programCapacity := by
  rw [length_programOf]
  simp only [programCapacity, memorySize, programStart]
  omega

/-- The bytes of each word stand at twice its place. -/
theorem programOf_getElem? {words : List Int} {i : Nat} {word : Int}
    (isWord : words[i]? = some word) :
    (programOf words)[2 * i]? = some (lowByte (word / 256)) ∧
      (programOf words)[2 * i + 1]? = some (lowByte word) := by
  induction words generalizing i with
  | nil => cases isWord
  | cons first rest ih =>
    have opened : programOf (first :: rest) =
        lowByte (first / 256) :: lowByte first :: programOf rest := rfl
    rw [opened]
    cases i with
    | zero =>
      obtain rfl := Option.some.inj isWord
      exact ⟨rfl, rfl⟩
    | succ i => exact ih isWord

namespace Machine

/-- The machine that a step leaves after an execution: halted if that ended with a fault. -/
def settled (executed : Outcome Unit) : Machine :=
  match executed.answer with
  | .error (.fault _) => { executed.machine with mode := .halted }
  | _ => executed.machine

/-- A step executes an instruction, with the program counter already past it: the machine becomes
what the instruction makes of it, and the host is told how it ended. -/
structure Executes (s : Settings) (m : Machine) (i : Instruction) : Prop where
  answer : (m.step s).answer =
    (m.fetched.exec s.dialect i).answer.map fun _ => (m.fetched.exec s.dialect i).machine.eventAfter
  machine : (m.step s).machine = settled (m.fetched.exec s.dialect i)

/-- A running machine executes the instruction at its program counter. -/
theorem executes_nextInstruction (s : Settings) {m : Machine} (running : m.mode = .running) :
    m.Executes s m.nextInstruction := by
  have stepped := step_of_running s running
  cases answer : (m.fetched.exec s.dialect m.nextInstruction).answer with
  | ok finished =>
    simp only [cycle, answer] at stepped
    exact ⟨by rw [stepped, answer]; rfl, by simp only [stepped, settled, answer]; rfl⟩
  | error reason =>
    cases reason <;>
      (simp only [cycle, answer] at stepped
       exact ⟨by rw [stepped, answer]; rfl, by simp only [stepped, settled, answer]; rfl⟩)

end Machine

namespace Memory

/-- A word stands in memory: it is decoded from there, whatever integer denotes the place, and a
running machine whose program counter is there executes it. -/
structure HasWord (memory : Memory) (a word : Int) : Prop where
  decoded : ∀ offset : Int, offset % 4096 = a % 4096 →
    Instruction.ofImage memory.bytes.toList offset = .ok (.ofWord word)
  executed : ∀ (s : Settings) (m : Machine), m.memory = memory → m.mode = .running →
    m.registers.pc % 4096 = a % 4096 → m.Executes s (.ofWord word)

/-- A word stored at an address, the high byte first. -/
def writeWord (m : Memory) (a word : Int) : Memory := (m.write a (word / 256)).write (a + 1) word

variable {m : Memory} {a b word : Int}

theorem read_congr (same : a % 4096 = b % 4096) : m.read a = m.read b :=
  congrArg (fun cell : Address => m.bytes[cell]) (Address.ofInt_eq_iff.mpr same)

/-- Decoding from the bytes of memory is fetching. -/
theorem ofImage_bytes (m : Memory) (offset : Int) :
    Instruction.ofImage m.bytes.toList offset = .ok (m.fetch offset) := by
  have byteAt (a : Int) : m.bytes.toList[(Address.ofInt a).val]? = some (m.read a) := by
    rw [Vector.getElem?_toList, Vector.getElem?_eq_getElem (Address.ofInt a).isLt]
    rfl
  simp only [Instruction.ofImage, byteAt]
  rfl

/-- The two bytes of a word at a place of memory make the word there. -/
theorem fetch_of_bytes (high : m.read a = lowByte (word / 256))
    (low : m.read (a + 1) = lowByte word) : m.fetch a = .ofWord word := by
  have whole : m.readWord a = word % 65536 := by
    rw [readWord, high, low, toNat_lowByte, toNat_lowByte]
    omega
  rw [fetch, whole, Instruction.ofWord_emod]

theorem hasWord_of_bytes (high : m.read a = lowByte (word / 256))
    (low : m.read (a + 1) = lowByte word) : m.HasWord a word := by
  have fetched (offset : Int) (same : offset % 4096 = a % 4096) :
      m.fetch offset = .ofWord word := by
    have next : (offset + 1) % 4096 = (a + 1) % 4096 := by omega
    exact fetch_of_bytes ((read_congr same).trans high) ((read_congr next).trans low)
  refine ⟨?_, ?_⟩
  · intro offset same
    rw [ofImage_bytes, fetched offset same]
  · rintro s machine rfl running same
    rw [← fetched _ same]
    exact Machine.executes_nextInstruction s running

/-- Outside the font table a stored word stands where it was stored. -/
theorem hasWord_writeWord (m : Memory) (word : Int) (free : ¬ (Address.ofInt a).InFont)
    (freeNext : ¬ (Address.ofInt (a + 1)).InFont) : (m.writeWord a word).HasWord a word := by
  have apart : Address.ofInt (a + 1) ≠ Address.ofInt a := by
    rw [ne_eq, Address.ofInt_eq_iff]
    omega
  apply hasWord_of_bytes
  · rw [writeWord, read_write, if_neg fun same => apart same.1, read_write, if_pos ⟨rfl, free⟩]
  · rw [writeWord, read_write, if_pos ⟨rfl, freeNext⟩]

/-- The words of a program stand one behind the other from the program start on. -/
theorem hasWord_programOf (m : Memory) {words : List Int} (fits : words.length ≤ 1792) {i : Nat}
    (isWord : words[i]? = some word) :
    (m.placeProgram (programOf words) (length_programOf_le fits)).HasWord
      (programStart + 2 * i) word := by
  obtain ⟨inside, -⟩ := List.getElem?_eq_some_iff.mp isWord
  obtain ⟨high, low⟩ := programOf_getElem? isWord
  have cell : (Address.ofInt (programStart + 2 * i)).val = programStart + 2 * i := by
    simp only [Address.val_ofInt, programStart]
    omega
  have next : (Address.ofInt (programStart + 2 * i + 1)).val = programStart + (2 * i + 1) := by
    simp only [Address.val_ofInt, programStart]
    omega
  apply hasWord_of_bytes
  · rw [placeProgram, read_place, cell, if_pos (Nat.le_add_right ..), Nat.add_sub_cancel_left,
      List.getD_eq_getElem?_getD, high, Option.getD_some]
  · rw [placeProgram, read_place, next, if_pos (Nat.le_add_right ..), Nat.add_sub_cancel_left,
      List.getD_eq_getElem?_getD, low, Option.getD_some]

end Memory

namespace Machine

/-- Up to 1792 words make a program that is accepted, by any memory and by a machine, and each of
the words then stands in memory two bytes behind the one before it. A word stored over two cells
outside the font table stands there too, be it around the top of memory. The fields of a decoded
word are its digits, and they make up its low sixteen bits. -/
theorem words_of_program {words : List Int} (fits : words.length ≤ 1792) :
    (∀ memory : Memory, ∃ loaded, memory.loadProgram (programOf words) = .ok loaded ∧
      ∀ (i : Nat) (word : Int), words[i]? = some word →
        loaded.HasWord (programStart + 2 * i) word) ∧
    (∀ (s : Settings) (m : Machine),
      let loaded := m.load s (programOf words)
      loaded.answer = .ok () ∧
        Memory.initial.loadProgram (programOf words) = .ok loaded.machine.memory) ∧
    (∀ (memory : Memory) (a word : Int), ¬ (Address.ofInt a).InFont →
      ¬ (Address.ofInt (a + 1)).InFont → (memory.writeWord a word).HasWord a word) ∧
    ∀ word : Int,
      let i := Instruction.ofWord word
      i.raw = 4096 * i.op + i.nnn ∧ i.nnn = 256 * i.x + i.kk ∧ i.kk = 16 * i.y + i.n ∧
        i.raw = word % 65536 ∧ ∀ digit ∈ [i.op, i.x, i.y, i.n], 0 ≤ digit ∧ digit < 16 := by
  have small : (programOf words).length ≤ programCapacity := length_programOf_le fits
  have accepted (memory : Memory) : memory.loadProgram (programOf words) =
      .ok (memory.placeProgram (programOf words) small) := dif_neg (Nat.not_lt_of_le small)
  refine ⟨fun memory => ⟨_, accepted memory, ?_⟩, ?_, ?_, ?_⟩
  · intro i word isWord
    exact memory.hasWord_programOf fits isWord
  · intro s m loaded
    have placed : loaded = _ := load_of_fits s m small
    rw [placed]
    exact ⟨rfl, accepted .initial⟩
  · intro memory a word free freeNext
    exact memory.hasWord_writeWord word free freeNext
  · intro word i
    obtain ⟨o, x, y, n, parts, fields⟩ := Instruction.ofWord_nibbles word
    simp only [i, fields, List.mem_cons, List.not_mem_nil, or_false, forall_eq_or_imp, forall_eq,
      true_and]
    omega

/-- A program of two words, of which the second one is negative, and a word around the top of
memory. -/
theorem words_of_program_top :
    let words : List Int := [0x6A02, -1]
    words.length ≤ 1792 ∧ words[1]? = some (-1) ∧
      (∃ loaded, Memory.initial.loadProgram (programOf words) = .ok loaded ∧
        Instruction.ofImage loaded.bytes.toList 0x202 = .ok (.ofWord 0xFFFF)) ∧
      ¬ (Address.ofInt 0xFFF).InFont ∧ ¬ (Address.ofInt (0xFFF + 1)).InFont ∧
      Instruction.ofImage (Memory.initial.writeWord 0xFFF 0x00E0).bytes.toList (-1) =
        .ok (.ofWord 0x00E0) := by
  intro words
  have fits : words.length ≤ 1792 := by decide
  have free : ¬ (Address.ofInt 0xFFF).InFont := by decide
  have freeNext : ¬ (Address.ofInt (0xFFF + 1)).InFont := by decide
  obtain ⟨programs, -, stored, -⟩ := words_of_program fits
  obtain ⟨loaded, accepted, placed⟩ := programs .initial
  have second := (placed 1 (-1) rfl).decoded 0x202 rfl
  have top := (stored .initial 0xFFF 0x00E0 free freeNext).decoded (-1) rfl
  exact ⟨fits, rfl, ⟨loaded, accepted, second⟩, free, freeNext, top⟩

end Machine

end Chip8
