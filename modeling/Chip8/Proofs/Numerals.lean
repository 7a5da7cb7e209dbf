import Chip8.Text.Numeral
import Mathlib.Data.Nat.Digits.Defs

/-! # Numerals by their digits

A numeral filled up to a width is its last digit behind the numeral of the other digits, one place
narrower. So a field of up to four nibbles is shown by its nibbles, each as one digit. Numerals that
fit their column have its width, and they tell their numbers, filled with zeros or with blanks.
-/

namespace Chip8.Text

def hexDigit (n : Fin 16) : Char := n.val.digitChar.toUpper

theorem hexDigit_injective {x y : Fin 16} (same : hexDigit x = hexDigit y) : x = y := by
  revert x y
  decide

theorem digits_of_lt {base n : Nat} (small : n < base) :
    digits base n = [n.digitChar.toUpper] := by
  rw [digits, Nat.toDigits_of_lt_base small]
  rfl

theorem digits_of_le {base n : Nat} (proper : 1 < base) (large : base ≤ n) :
    digits base n = digits base (n / base) ++ [(n % base).digitChar.toUpper] := by
  rw [digits, Nat.toDigits_of_base_le proper large, List.map_append]
  rfl

theorem toList_zeroFilled (base width n : Nat) :
    (zeroFilled base width n).toList =
      List.replicate (width - (digits base n).length) '0' ++ digits base n := by
  have natural : ¬ (n : Int) < 0 := by omega
  simp only [zeroFilled, natural, ↓reduceIte, Int.natAbs_natCast, String.toList_ofList]

/-- The last digit of a filled numeral stands behind the numeral of the others. -/
theorem toList_zeroFilled_succ {base width : Nat} (proper : 1 < base) (wide : 0 < width) (n : Nat) :
    (zeroFilled base (width + 1) n).toList =
      (zeroFilled base width (n / base : Nat)).toList ++ [(n % base).digitChar.toUpper] := by
  rw [toList_zeroFilled, toList_zeroFilled]
  by_cases small : n < base
  · -- A number of one digit: what stands before it is the zero of the quotient, filled up.
    obtain ⟨rest, rfl⟩ : ∃ rest, width = rest + 1 := ⟨width - 1, by omega⟩
    have zero : (Nat.digitChar 0).toUpper = '0' := rfl
    rw [digits_of_lt small, Nat.div_eq_of_lt small, Nat.mod_eq_of_lt small, digits_of_lt (by omega),
      zero]
    simp [List.replicate_succ']
  · rw [digits_of_le proper (Nat.le_of_not_lt small)]
    simp only [List.length_append, List.length_singleton, Nat.add_sub_add_right, List.append_assoc]

/-- A digit is put behind a hexadecimal numeral. -/
theorem toList_zeroFilled_digit {width n : Nat} {z : Int} {d : Fin 16} (wide : 0 < width)
    (parts : z = 0x10 * n + d.val) :
    (zeroFilled 16 (width + 1) z).toList = (zeroFilled 16 width n).toList ++ [hexDigit d] := by
  obtain ⟨k, rfl⟩ := Int.eq_ofNat_of_zero_le (a := z) (by omega)
  have high : k / 16 = n := by omega
  have low : k % 16 = d.val := by omega
  rw [toList_zeroFilled_succ (by decide) wide, high, low, hexDigit]

@[simp] theorem toList_hex (x : Fin 16) : (hex x.val).toList = [hexDigit x] := by
  have natural : ¬ (x.val : Int) < 0 := by omega
  simp only [hex, numeral, natural, ↓reduceIte, Int.natAbs_natCast, String.toList_ofList,
    digits_of_lt x.isLt, hexDigit]

@[simp] theorem toList_hex2 (y n : Fin 16) :
    (hex2 (0x10 * y.val + n.val)).toList = [hexDigit y, hexDigit n] := by
  rw [hex2, toList_zeroFilled_digit (n := y.val) (d := n) (by decide) rfl, toList_zeroFilled,
    digits_of_lt y.isLt]
  rfl

@[simp] theorem toList_hex3 (x y n : Fin 16) :
    (hex3 (0x100 * x.val + 0x10 * y.val + n.val)).toList =
      [hexDigit x, hexDigit y, hexDigit n] := by
  have front : (zeroFilled 16 2 (0x10 * x.val + y.val : Nat)).toList = _ := toList_hex2 x y
  rw [hex3, toList_zeroFilled_digit (n := 0x10 * x.val + y.val) (d := n) (by decide) (by omega),
    front]
  rfl

@[simp] theorem toList_hex4 (o x y n : Fin 16) :
    (hex4 (0x1000 * o.val + 0x100 * x.val + 0x10 * y.val + n.val)).toList =
      [hexDigit o, hexDigit x, hexDigit y, hexDigit n] := by
  have front : (zeroFilled 16 3 (0x100 * o.val + 0x10 * x.val + y.val : Nat)).toList = _ :=
    toList_hex3 o x y
  rw [hex4, toList_zeroFilled_digit (n := 0x100 * o.val + 0x10 * x.val + y.val) (d := n)
    (by decide) (by omega), front]
  rfl

section Bytes

theorem blank_ne_hexDigit (d : Fin 16) : ' ' ≠ hexDigit d := by
  revert d
  decide

/-- A byte has two nibbles. -/
theorem exists_nibbles (b : UInt8) : ∃ y n : Fin 16, (b.toNat : Int) = 0x10 * y.val + n.val := by
  have bound := b.toNat_lt
  refine ⟨⟨b.toNat / 16, by omega⟩, ⟨b.toNat % 16, by omega⟩, ?_⟩
  dsimp only
  omega

theorem hex2_injective {b c : UInt8} (same : hex2 b.toNat = hex2 c.toNat) : b = c := by
  obtain ⟨y, n, partsB⟩ := exists_nibbles b
  obtain ⟨z, k, partsC⟩ := exists_nibbles c
  have digits := congrArg String.toList same
  simp only [partsB, partsC, toList_hex2, List.cons.injEq, and_true] at digits
  rw [← UInt8.toNat_inj]
  rw [hexDigit_injective digits.1, hexDigit_injective digits.2] at partsB
  omega

/-- Bytes shown one by one, with blanks between them. -/
theorem toList_hexBytes (bytes : List UInt8) :
    (hexBytes bytes).toList = [' '].intercalate (bytes.map fun b => (hex2 b.toNat).toList) := by
  rw [hexBytes, String.toList_intercalate, List.map_map]
  rfl

/-- No byte is shown with a blank, so the bytes are what stands between the blanks. -/
theorem splitOn_hexBytes {bytes : List UInt8} (some : bytes ≠ []) :
    (hexBytes bytes).toList.splitOn ' ' = bytes.map fun b => (hex2 b.toNat).toList := by
  have noBlank : ∀ shown ∈ bytes.map fun b => (hex2 b.toNat).toList, ' ' ∉ shown := by
    intro shown member
    obtain ⟨b, -, rfl⟩ := List.mem_map.mp member
    obtain ⟨y, n, parts⟩ := exists_nibbles b
    simp [parts, blank_ne_hexDigit]
  rw [toList_hexBytes, List.splitOn_intercalate ' ' noBlank (by simpa using some)]

/-- A byte string is told by its bytes as they are shown. -/
theorem hexBytes_injective {bytes other : List UInt8} (some : bytes ≠ []) (someOther : other ≠ [])
    (same : hexBytes bytes = hexBytes other) : bytes = other := by
  have pieces := splitOn_hexBytes some
  rw [same, splitOn_hexBytes someOther] at pieces
  exact (List.map_inj_right fun _ _ shown =>
    hex2_injective (String.toList_inj.mp shown)).mp pieces.symm

/-- Each byte behind the first one takes three characters. -/
theorem length_hexBytes (b : UInt8) (rest : List UInt8) :
    (hexBytes (b :: rest)).length = 3 * rest.length + 2 := by
  have two (b : UInt8) : (hex2 b.toNat).length = 2 := by
    obtain ⟨y, n, parts⟩ := exists_nibbles b
    rw [← String.length_toList, parts, toList_hex2]
    rfl
  induction rest generalizing b with
  | nil => exact two b
  | cons c rest ih =>
    have joined : hexBytes (b :: c :: rest) = hex2 b.toNat ++ " " ++ hexBytes (c :: rest) :=
      String.intercalate_cons_cons
    rw [joined, String.length_append, String.length_append, two, ih, List.length_cons]
    have blank : " ".length = 1 := rfl
    omega

end Bytes

section Addresses

/-- A number of twelve bits has three nibbles. -/
theorem exists_nibbles_address {z : Int} (low : 0 ≤ z) (high : z < 0x1000) :
    ∃ x y n : Fin 16, z = 0x100 * x.val + 0x10 * y.val + n.val := by
  refine ⟨⟨(z / 256).toNat, by omega⟩, ⟨(z / 16 % 16).toNat, by omega⟩,
    ⟨(z % 16).toNat, by omega⟩, ?_⟩
  dsimp only
  omega

theorem length_hex3 {z : Int} (low : 0 ≤ z) (high : z < 0x1000) : (hex3 z).length = 3 := by
  obtain ⟨x, y, n, rfl⟩ := exists_nibbles_address low high
  rw [← String.length_toList, toList_hex3]
  rfl

theorem hex3_injective {a b : Int} (lowA : 0 ≤ a) (highA : a < 0x1000) (lowB : 0 ≤ b)
    (highB : b < 0x1000) (same : hex3 a = hex3 b) : a = b := by
  obtain ⟨x, y, n, rfl⟩ := exists_nibbles_address lowA highA
  obtain ⟨u, v, k, rfl⟩ := exists_nibbles_address lowB highB
  have digits := congrArg String.toList same
  simp only [toList_hex3, List.cons.injEq, and_true] at digits
  rw [hexDigit_injective digits.1, hexDigit_injective digits.2.1, hexDigit_injective digits.2.2]

end Addresses

section Counters

theorem toUpper_of_isDigit {c : Char} (digit : c.isDigit = true) : c.toUpper = c := by
  have high : ¬ 'a'.val ≤ c.val := by
    simp only [Char.isDigit, Bool.and_eq_true, decide_eq_true_eq, ge_iff_le,
      UInt32.le_iff_toNat_le] at digit ⊢
    intro letter
    exact absurd (Nat.le_trans letter digit.2) (by decide)
  exact dif_neg fun letter => high letter.1

theorem digits_ten (n : Nat) : digits 10 n = Nat.toDigits 10 n := by
  refine (List.map_congr_left fun c member => ?_).trans (List.map_id _)
  exact toUpper_of_isDigit (Nat.isDigit_of_mem_toDigits (by decide) (by decide) member)

theorem toList_decimal (n : Nat) : (decimal n).toList = digits 10 n := by
  have natural : ¬ (n : Int) < 0 := by omega
  simp [decimal, numeral, natural]

theorem length_digits_le {n k : Nat} (positive : 0 < k) (small : n < 10 ^ k) :
    (digits 10 n).length ≤ k := by
  rw [digits, List.length_map]
  exact (Nat.length_toDigits_le_iff (by decide) positive).mpr small

/-- A numeral that fits its column fills it. -/
theorem length_alignRight_decimal {width n : Nat} (fits : (digits 10 n).length ≤ width) :
    (alignRight width (decimal n)).length = width := by
  rw [← toList_decimal, String.length_toList] at fits
  rw [alignRight, String.length_append, String.length_ofList, List.length_replicate]
  omega

/-- A number is told by its numeral in a column, whatever the width of the column. -/
theorem alignRight_decimal_injective {width a b : Nat}
    (same : alignRight width (decimal a) = alignRight width (decimal b)) : a = b := by
  have visible (n : Nat) :
      (alignRight width (decimal n)).toList.filter (· ≠ ' ') = Nat.toDigits 10 n := by
    rw [alignRight, String.toList_append, String.toList_ofList, toList_decimal, digits_ten,
      List.filter_append, List.filter_replicate, if_neg (by decide), List.nil_append]
    apply List.filter_eq_self.mpr
    intro c member
    have digit := Nat.isDigit_of_mem_toDigits (by decide) (by decide) member
    refine decide_eq_true fun blank => ?_
    subst blank
    exact absurd digit (by decide)
  have digits : Nat.toDigits 10 a = Nat.toDigits 10 b := by rw [← visible, ← visible, same]
  rw [← Nat.ofDigitChars_ten_toDigits (n := a), digits, Nat.ofDigitChars_ten_toDigits]

end Counters

end Chip8.Text
