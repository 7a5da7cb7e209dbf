import Chip8.CommandLine
import Chip8.Proofs.IntegerSpellings
import Mathlib.Data.List.Forall2

/-! # The text of a memory dump

A dump has a line for each sixteen bytes of memory, and the lines follow each other by address. The
bytes that the lines show, read in order, are those of memory, so a memory is told by its dump.
-/

namespace Chip8

namespace Text

/-- A number written in capital hexadecimal digits, as many as there are places. -/
structure IsHex (places n : Nat) (shown : List Char) : Prop where
  width : shown.length = places
  digits : ∀ c ∈ shown, c ∈ "0123456789ABCDEF".toList
  value : Number.valueOf 16 shown = n

theorem hexDigit_mem (d : Fin 16) : hexDigit d ∈ "0123456789ABCDEF".toList := by
  revert d
  decide

/-- Digits write the number that they make up by their places. -/
theorem isHex_digits (ds : List (Fin 16)) :
    IsHex ds.length (ds.foldl (fun value d => value * 16 + d.val) 0) (ds.map hexDigit) where
  width := List.length_map ..
  digits := by
    intro c member
    obtain ⟨d, -, rfl⟩ := List.mem_map.mp member
    exact hexDigit_mem d
  value := by
    simp only [Number.valueOf, List.foldl_map, Number.digitIn_hexDigit, Option.getD_some]

theorem isHex_hex2 (b : UInt8) : IsHex 2 b.toNat (hex2 b.toNat).toList := by
  obtain ⟨y, n, parts⟩ := exists_nibbles b
  have number : b.toNat = (0 * 16 + y.val) * 16 + n.val := by omega
  rw [parts, toList_hex2, number]
  exact isHex_digits [y, n]

theorem isHex_hex3 {base : Nat} (small : base < 0x1000) :
    IsHex 3 base (hex3 base).toList := by
  obtain ⟨x, y, n, parts⟩ := exists_nibbles_address (z := base) (by omega) (by omega)
  have number : base = ((0 * 16 + x.val) * 16 + y.val) * 16 + n.val := by omega
  rw [parts, toList_hex3, number]
  exact isHex_digits [x, y, n]

variable {places n : Nat} {shown : List Char} {c : Char}

/-- Where a number is written there are digits only. -/
theorem IsHex.notMem (written : IsHex places n shown) (other : c ∉ "0123456789ABCDEF".toList) :
    c ∉ shown :=
  fun member => other (written.digits c member)

/-- Bytes are shown in digits and blanks only. -/
theorem notMem_hexBytes (other : c ∉ "0123456789ABCDEF".toList) (solid : c ≠ ' ')
    (bytes : List UInt8) : c ∉ (hexBytes bytes).toList := by
  rw [toList_hexBytes]
  induction bytes with
  | nil => exact List.not_mem_nil
  | cons b rest ih =>
    cases rest with
    | nil => simpa using (isHex_hex2 b).notMem other
    | cons b' rest =>
      rw [List.map_cons, List.map_cons, List.intercalate_cons_cons, List.mem_append,
        List.mem_append, List.mem_singleton, not_or, not_or]
      exact ⟨⟨(isHex_hex2 b).notMem other, solid⟩, ih⟩

/-- The lines of a text that is made up of lines, if there is no line break within a line. -/
theorem lines_linesText {rows : List String} (whole : ∀ line ∈ rows, '\n' ∉ line.toList) :
    lines (CommandLine.linesText rows).toList = rows.map String.toList := by
  -- Behind the last line break stands an empty piece, which is no line.
  have cut : (CommandLine.linesText rows).toList.splitOnP (· = '\n') =
      rows.map String.toList ++ [[]] := by
    rw [CommandLine.linesText, String.toList_join, List.flatMap_map]
    induction rows with
    | nil => simp
    | cons line rest ih =>
      obtain ⟨first, others⟩ := List.forall_mem_cons.mp whole
      have noBreak : ∀ c ∈ line.toList, decide (c = '\n') = false := by
        intro c member
        exact decide_eq_false fun isBreak => first (isBreak ▸ member)
      have feed : "\n".toList = ['\n'] := rfl
      rw [List.flatMap_cons, String.toList_append, List.append_assoc, feed, List.singleton_append,
        List.splitOnP_append_cons _ _ (by decide), List.splitOnP_eq_singleton noBreak, ih others]
      rfl
  rw [lines, cut]
  simp

end Text

namespace Memory

open Text

/-- A line of a dump: the address of its first byte in three digits, a colon and a blank, and the
sixteen bytes from there on in two digits each, with a blank between two. -/
structure IsDumpLine (m : Memory) (base : Nat) (line : List Char) : Prop where
  address : IsHex 3 base (line.take 3)
  mark : (line.drop 3).take 2 = [':', ' ']
  bytes : List.Forall₂ (fun (b : UInt8) piece => IsHex 2 b.toNat piece) (m.readBytes base 16)
    ((line.drop 5).splitOn ' ')

variable {m : Memory} {base : Nat} {line : List Char}

theorem isDumpLine_dumpLine (m : Memory) (small : base < 0x1000) :
    m.IsDumpLine base (m.dumpLine base).toList := by
  have address := isHex_hex3 small
  have parts : (m.dumpLine base).toList =
      (hex3 base).toList ++ ([':', ' '] ++ (hexBytes (m.readBytes base 16)).toList) := by
    rw [dumpLine, String.toList_append, String.toList_append, List.append_assoc]
    rfl
  have some : m.readBytes base 16 ≠ [] := by simp [readBytes]
  have bytes : (m.dumpLine base).toList.drop 5 = (hexBytes (m.readBytes base 16)).toList := by
    rw [parts, ← List.append_assoc]
    exact List.drop_left' (by rw [List.length_append, address.width]; rfl)
  refine ⟨?_, ?_, ?_⟩
  · rw [parts, List.take_left' address.width]
    exact address
  · rw [parts, List.drop_left' address.width]
    rfl
  · rw [bytes, splitOn_hexBytes some, List.forall₂_map_right_iff,
      List.forall₂_same]
    exact fun b _ => isHex_hex2 b

/-- A line is read as the bytes that it shows. -/
theorem IsDumpLine.dumpedBytes_eq (shows : m.IsDumpLine base line) :
    dumpedBytes (String.ofList line) = m.readBytes base 16 := by
  have read := shows.bytes
  rw [List.splitOn_eq_splitOnP] at read
  rw [dumpedBytes, String.toList_ofList]
  generalize (line.drop 5).splitOnP _ = pieces at read ⊢
  generalize m.readBytes base 16 = bytes at read
  induction read with
  | nil => rfl
  | cons first _ ih => rw [List.map_cons, ih, first.value, UInt8.ofNat_toNat]

theorem readBytes_add (m : Memory) (a : Int) (n k : Nat) :
    m.readBytes a (n + k : Nat) = m.readBytes a n ++ m.readBytes (a + n) k := by
  simp only [readBytes, Int.toNat_natCast, List.range_add, List.map_append, List.map_map]
  refine congrArg (_ ++ ·) (List.map_congr_left fun offset _ => ?_)
  rw [Function.comp_apply, Int.natCast_add, Int.add_assoc]

/-- Blocks of one size that follow each other make up one block. -/
theorem flatMap_readBytes (m : Memory) (size count : Nat) :
    ((List.range count).flatMap fun i => m.readBytes (size * i : Nat) size) =
      m.readBytes 0 (size * count : Nat) := by
  induction count with
  | zero => simp [readBytes]
  | succ count ih =>
    rw [List.range_succ, List.flatMap_append, ih, List.flatMap_singleton, Nat.mul_succ,
      readBytes_add, Int.zero_add]

/-- All of memory, read from its first cell on. -/
theorem readBytes_all (m : Memory) : m.readBytes 0 memorySize = m.bytes.toList := by
  apply List.ext_getElem
  · simp [readBytes]
  · intro i inside _
    have bound : i < memorySize := by simpa [readBytes] using inside
    have cell : Address.ofInt (0 + (i : Nat)) = ⟨i, bound⟩ := by
      rw [Int.zero_add]
      exact Address.ofInt_val ⟨i, bound⟩
    simp only [readBytes, List.getElem_map, List.getElem_range, read, cell, Fin.getElem_fin,
      Vector.getElem_toList]

/-- No line of a dump is broken, so they are the lines of its text. -/
theorem lines_dump (m : Memory) :
    lines (CommandLine.linesText m.dump).toList =
      (List.range 256).map fun i => (m.dumpLine (16 * i)).toList := by
  have whole : ∀ line ∈ m.dump, '\n' ∉ line.toList := by
    intro line member
    obtain ⟨i, inRange, rfl⟩ := List.mem_map.mp member
    have small : 16 * i < 0x1000 := by
      have inside := List.mem_range.mp inRange
      simp only [memorySize, dumpWidth] at inside
      omega
    simp only [dumpLine, String.toList_append, List.mem_append, not_or]
    exact ⟨⟨(isHex_hex3 small).notMem (by decide), by decide⟩,
      notMem_hexBytes (by decide) (by decide) _⟩
  rw [lines_linesText whole, dump, List.map_map]
  rfl

/-- The bytes that the lines of a dump show, one line after the other, are all of memory. -/
theorem dumpedBytes_lines (m : Memory) :
    ((lines (CommandLine.linesText m.dump).toList).flatMap fun line =>
      dumpedBytes (String.ofList line)) = m.bytes.toList := by
  have row : ∀ i ∈ List.range 256,
      dumpedBytes (String.ofList (m.dumpLine (16 * i)).toList) =
        m.readBytes (16 * i : Nat) (16 : Nat) := by
    intro i inRange
    have inside := List.mem_range.mp inRange
    exact (m.isDumpLine_dumpLine (by omega)).dumpedBytes_eq
  calc
    _ = (List.range 256).flatMap fun i =>
        dumpedBytes (String.ofList (m.dumpLine (16 * i)).toList) := by
      rw [lines_dump, List.flatMap_map]
    _ = (List.range 256).flatMap fun i => m.readBytes (16 * i : Nat) (16 : Nat) :=
      List.flatMap_congr row
    _ = m.readBytes 0 memorySize := m.flatMap_readBytes 16 256
    _ = m.bytes.toList := m.readBytes_all

/-- The text of a dump has 256 lines. The line at a place shows its address, which is sixteen times
the place, and the sixteen bytes from there on. The bytes that all lines show are those of memory,
so no other memory has this dump. -/
theorem dump_reads_back (m : Memory) :
    let shown := lines (CommandLine.linesText m.dump).toList
    shown.length = 256 ∧
    (∀ i : Fin 256, ∃ line, shown[i.val]? = some line ∧ m.IsDumpLine (16 * i.val) line) ∧
    (shown.flatMap fun line => dumpedBytes (String.ofList line)) = m.bytes.toList ∧
    ∀ other : Memory,
      CommandLine.linesText other.dump = CommandLine.linesText m.dump ↔ other = m := by
  intro shown
  have rows : shown = (List.range 256).map fun i => (m.dumpLine (16 * i)).toList := m.lines_dump
  refine ⟨?_, ?_, m.dumpedBytes_lines, fun other => ⟨?_, ?_⟩⟩
  · rw [rows, List.length_map, List.length_range]
  · intro i
    refine ⟨(m.dumpLine (16 * i.val)).toList, ?_, m.isDumpLine_dumpLine (by omega)⟩
    rw [rows, List.getElem?_map, List.getElem?_range i.isLt, Option.map_some]
  · intro same
    have bytes : other.bytes.toList = m.bytes.toList := by
      rw [← dumpedBytes_lines, ← dumpedBytes_lines, same]
    cases other
    cases m
    exact congrArg Memory.mk (Vector.toList_inj.mp bytes)
  · rintro rfl
    rfl

end Memory

end Chip8
