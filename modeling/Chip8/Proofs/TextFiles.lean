import Chip8.FileTree
import Chip8.Text.Utf8
import Mathlib.Data.List.TakeWhile

/-! # Texts in files

An encoded text is decoded to itself, in whatever blocks its bytes come. A block may break off in
the middle of a character; the bytes of that character are left over, and the next block completes
them.
-/

namespace Chip8

namespace Text

def encoded (text : List Char) : List UInt8 := text.flatMap String.utf8EncodeChar

namespace Utf8

section Character

theorem width_eq (lead : UInt8) :
    width lead =
      if lead.toNat ≤ 0x7F then 1
      else if lead.toNat < 0xC2 then 0
      else if lead.toNat ≤ 0xDF then 2
      else if lead.toNat ≤ 0xEF then 3
      else if lead.toNat ≤ 0xF4 then 4
      else 0 := by
  simp only [width, UInt8.le_iff_toNat_le, UInt8.lt_iff_toNat_lt]
  rfl

theorem isTail_iff (b : UInt8) : isTail b = true ↔ 0x80 ≤ b.toNat ∧ b.toNat ≤ 0xBF := by
  simp [isTail, UInt8.le_iff_toNat_le]

theorem isSecond_iff (lead b : UInt8) :
    isSecond lead b = true ↔
      (0x80 ≤ b.toNat ∧ b.toNat ≤ 0xBF)
        ∧ (lead.toNat = 0xE0 → 0xA0 ≤ b.toNat) ∧ (lead.toNat = 0xED → b.toNat ≤ 0x9F)
        ∧ (lead.toNat = 0xF0 → 0x90 ≤ b.toNat) ∧ (lead.toNat = 0xF4 → b.toNat ≤ 0x8F) := by
  simp [isSecond, isTail_iff, UInt8.le_iff_toNat_le, ← UInt8.toNat_inj, imp_iff_not_or, and_assoc]

/-- A lead byte and a tail that stand for a character. -/
structure Spells (c : Char) (lead : UInt8) (tail : List UInt8) : Prop where
  width : width lead = tail.length + 1
  second : ∀ b ∈ tail.head?, isSecond lead b = true
  others : ∀ b ∈ tail.tail, isTail b = true
  character : assemble lead tail = c

variable {c : Char} {lead second third last : UInt8}

theorem code_range (c : Char) : c.toNat < 0xD800 ∨ (0xDFFF < c.toNat ∧ c.toNat < 0x110000) :=
  c.valid

theorem ofNat_eq {code : Nat} (same : code = c.toNat) : Char.ofNat code = c := by
  rw [same, Char.ofNat_toNat]

theorem spells_one (small : c.toNat ≤ 0x7F) (first : lead.toNat = c.toNat) : Spells c lead [] where
  width := by
    rw [width_eq, if_pos (by omega)]
    rfl
  second := by simp
  others := by simp
  character := ofNat_eq first

theorem spells_two (large : 0x7F < c.toNat) (small : c.toNat ≤ 0x7FF)
    (first : lead.toNat = c.toNat / 64 + 0xC0) (ends : last.toNat = c.toNat % 64 + 0x80) :
    Spells c lead [last] where
  width := by
    rw [width_eq, if_neg (by omega), if_neg (by omega), if_pos (by omega)]
    rfl
  second := by
    simp only [List.head?_cons, Option.mem_def, Option.some.injEq, forall_eq', isSecond_iff]
    omega
  others := by simp
  character := by
    apply ofNat_eq
    simp only [List.length_singleton, List.foldl_cons, List.foldl_nil, first, ends]
    omega

theorem spells_three (large : 0x7FF < c.toNat) (small : c.toNat ≤ 0xFFFF)
    (first : lead.toNat = c.toNat / 4096 + 0xE0) (next : second.toNat = c.toNat / 64 % 64 + 0x80)
    (ends : last.toNat = c.toNat % 64 + 0x80) : Spells c lead [second, last] where
  width := by
    rw [width_eq, if_neg (by omega), if_neg (by omega), if_neg (by omega), if_pos (by omega)]
    rfl
  second := by
    have noHalf := code_range c
    simp only [List.head?_cons, Option.mem_def, Option.some.injEq, forall_eq', isSecond_iff]
    omega
  others := by
    simp only [List.tail_cons, List.mem_singleton, forall_eq, isTail_iff]
    omega
  character := by
    apply ofNat_eq
    simp only [List.length_cons, List.length_nil, List.foldl_cons, List.foldl_nil, first, next,
      ends]
    omega

theorem spells_four (large : 0xFFFF < c.toNat) (first : lead.toNat = c.toNat / 262144 + 0xF0)
    (next : second.toNat = c.toNat / 4096 % 64 + 0x80)
    (middle : third.toNat = c.toNat / 64 % 64 + 0x80) (ends : last.toNat = c.toNat % 64 + 0x80) :
    Spells c lead [second, third, last] where
  width := by
    have bound := code_range c
    rw [width_eq, if_neg (by omega), if_neg (by omega), if_neg (by omega), if_neg (by omega),
      if_pos (by omega)]
    rfl
  second := by
    have bound := code_range c
    simp only [List.head?_cons, Option.mem_def, Option.some.injEq, forall_eq', isSecond_iff]
    omega
  others := by
    simp only [List.tail_cons, List.mem_cons, List.not_mem_nil, or_false, forall_eq_or_imp,
      forall_eq, isTail_iff]
    omega
  character := by
    have bound := code_range c
    apply ofNat_eq
    simp only [List.length_cons, List.length_nil, List.foldl_cons, List.foldl_nil, first, next,
      middle, ends]
    omega

/-- The bytes of a character are a lead byte and a tail that stand for it. -/
theorem exists_spells (c : Char) :
    ∃ lead tail, String.utf8EncodeChar c = lead :: tail ∧ Spells c lead tail := by
  have bound := code_range c
  have code : c.val.toNat = c.toNat := rfl
  have byte {n m : Nat} (small : n < 256) (same : n = m) : (UInt8.ofNat n).toNat = m :=
    (UInt8.toNat_ofNat_of_lt small).trans same
  unfold String.utf8EncodeChar
  dsimp only
  rw [code]
  split
  · next one => exact ⟨_, _, rfl, spells_one one (byte (by omega) rfl)⟩
  · split
    · next one two =>
      exact ⟨_, _, rfl, spells_two (by omega) two (byte (by omega) (by omega))
        (byte (by omega) rfl)⟩
    · split
      · next two three =>
        exact ⟨_, _, rfl, spells_three (by omega) three (byte (by omega) (by omega))
          (byte (by omega) rfl) (byte (by omega) rfl)⟩
      · next three =>
        exact ⟨_, _, rfl, spells_four (by omega) (byte (by omega) (by omega))
          (byte (by omega) rfl) (byte (by omega) rfl) (byte (by omega) rfl)⟩

end Character

section Decoding

variable {c : Char} {lead : UInt8} {tail part missing bytes : List UInt8} {text done : List Char}

/-- All bytes of a tail fit. -/
theorem fitting_tail (spells : Spells c lead tail) (more : List UInt8) :
    fitting lead tail.length (tail ++ more) = tail.length := by
  cases tail with
  | nil => simp [fitting]
  | cons second others =>
    have fits : isSecond lead second = true := spells.second second rfl
    have rest : others.takeWhile isTail = others := List.takeWhile_eq_self_iff.mpr spells.others
    simp only [List.length_cons, List.cons_append, fitting, fits, ↓reduceIte, List.take_left, rest]
    omega

/-- All bytes of the beginning of a tail fit. -/
theorem fitting_part (spells : Spells c lead tail) (cut : part ++ missing = tail) :
    fitting lead tail.length part = part.length := by
  subst cut
  cases part with
  | nil => cases missing <;> rfl
  | cons second others =>
    have fits : isSecond lead second = true := spells.second second rfl
    have rest : others.takeWhile isTail = others :=
      List.takeWhile_eq_self_iff.mpr fun b member =>
        spells.others b (List.mem_append_left missing member)
    have short : others.take (others ++ missing).length = others :=
      List.take_of_length_le (by simp)
    simp only [List.cons_append, List.length_cons, fitting, fits, ↓reduceIte, short, rest]
    omega

theorem decodeFrom_character (spells : Spells c lead tail) (atEnd : Bool) (position : Nat)
    (done : List Char) (more : List UInt8) :
    decodeFrom atEnd position done (lead :: (tail ++ more)) =
      decodeFrom atEnd (position + (tail.length + 1)) (c :: done) more := by
  rw [decodeFrom]
  simp only [spells.width, Nat.add_one_ne_zero, ↓reduceIte, Nat.add_sub_cancel,
    fitting_tail spells, List.take_left, List.drop_left, spells.character]

/-- A character that breaks off is left over. -/
theorem decodeFrom_cut (spells : Spells c lead tail) (cut : part ++ missing = tail)
    (incomplete : missing ≠ []) (position : Nat) (done : List Char) :
    decodeFrom false position done (lead :: part) = .ok (done, lead :: part) := by
  have short : part.length ≠ tail.length := by
    have missed : 0 < missing.length := List.length_pos_iff.mpr incomplete
    rw [← cut, List.length_append]
    omega
  rw [decodeFrom]
  simp only [spells.width, Nat.add_one_ne_zero, ↓reduceIte, Nat.add_sub_cancel,
    fitting_part spells cut, short, Nat.lt_irrefl, Bool.false_eq_true]

theorem encoded_cons (c : Char) (text : List Char) :
    encoded (c :: text) = String.utf8EncodeChar c ++ encoded text := rfl

theorem decodeFrom_encoded (atEnd : Bool) (position : Nat) (done text : List Char) :
    decodeFrom atEnd position done (encoded text) = .ok (text.reverse ++ done, []) := by
  induction text generalizing position done with
  | nil => simp [encoded, decodeFrom]
  | cons c text ih =>
    obtain ⟨lead, tail, bytes, spells⟩ := exists_spells c
    rw [encoded_cons, bytes, List.cons_append, decodeFrom_character spells, ih]
    simp

/-- The beginning of an encoded text is decoded as far as its characters are complete. -/
theorem decodeFrom_part (position : Nat) (done : List Char)
    (cut : bytes ++ missing = encoded text) :
    ∃ read unread left, text = read ++ unread ∧
      decodeFrom false position done bytes = .ok (read.reverse ++ done, left) ∧
      left ++ missing = encoded unread := by
  induction text generalizing bytes position done with
  | nil =>
    obtain ⟨rfl, rfl⟩ := List.append_eq_nil_iff.mp cut
    exact ⟨[], [], [], rfl, by simp [decodeFrom], rfl⟩
  | cons c text ih =>
    obtain ⟨lead, tail, character, spells⟩ := exists_spells c
    cases bytes with
    | nil => exact ⟨[], c :: text, [], rfl, by simp [decodeFrom], cut⟩
    | cons first bytes =>
      have same := cut
      rw [encoded_cons, character, List.cons_append, List.cons_append, List.cons.injEq] at same
      obtain ⟨rfl, same⟩ := same
      -- The bytes end within this character, or go on behind it.
      obtain ⟨rest, whole, incomplete⟩ | ⟨more, rfl, later⟩ :
          (∃ rest, bytes ++ rest = tail ∧ rest ≠ []) ∨
            ∃ more, bytes = tail ++ more ∧ more ++ missing = encoded text := by
        obtain ⟨rest, whole, begins⟩ | ⟨more, whole, later⟩ := List.append_eq_append_iff.mp same
        · by_cases complete : rest = []
          · subst complete
            exact .inr ⟨[], by simpa using whole.symm, by simpa using begins⟩
          · exact .inl ⟨rest, whole.symm, complete⟩
        · exact .inr ⟨more, whole, later.symm⟩
      · exact ⟨[], c :: text, first :: bytes, rfl, decodeFrom_cut spells whole incomplete _ _, cut⟩
      · obtain ⟨read, unread, left, rfl, decoded, leftOver⟩ :=
          ih (position + (tail.length + 1)) (c :: done) later
        refine ⟨c :: read, unread, left, rfl, ?_, leftOver⟩
        rw [decodeFrom_character spells, decoded]
        simp

/-- In whatever blocks the bytes of a text come, they are decoded to it. -/
theorem decodeBlocks_encoded (blocks : List (List UInt8)) (done text : List Char)
    (left : List UInt8) (bytes : left ++ blocks.flatten = encoded text) :
    decodeBlocks done left blocks = (done.reverse ++ text, none) := by
  induction blocks generalizing done text left with
  | nil =>
    have all : left = encoded text := by simpa using bytes
    simp only [decodeBlocks, all, decodeFrom_encoded]
    simp
  | cons block rest ih =>
    have parted : (left ++ block) ++ rest.flatten = encoded text := by simpa using bytes
    obtain ⟨read, unread, left', rfl, decoded, leftOver⟩ := decodeFrom_part 0 done parted
    simp only [decodeBlocks, decoded]
    rw [ih _ _ _ leftOver]
    simp

theorem flatten_blocks (bytes : List UInt8) : (blocks bytes).flatten = bytes := by
  fun_induction blocks bytes with
  | case1 bytes long ih => rw [List.flatten_cons, ih, List.take_append_drop]
  | case2 => rfl
  | case3 => simp

end Decoding

end Utf8

/-- A file with a text is read as that text, with its line ends unified. -/
theorem readText_encoded (text : List Char) :
    readText (encoded text) = (unifyLineEnds text, none) := by
  have decoded : Utf8.decodeBlocks [] [] (Utf8.blocks (encoded text)) = (text, none) :=
    Utf8.decodeBlocks_encoded _ [] text [] (Utf8.flatten_blocks _)
  rw [readText, decoded]

end Text

def FileTree.Holds (tree : FileTree) (path : String) (text : List Char) : Prop :=
  tree.read path = .ok (Text.encoded text)

end Chip8
