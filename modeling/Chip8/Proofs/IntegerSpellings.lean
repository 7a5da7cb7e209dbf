import Chip8.Number.IntegerLiteral
import Chip8.Proofs.Numerals
import Mathlib.Data.List.TakeWhile
import Mathlib.Data.Nat.Digits.Defs

/-! # Spellings of integers

The texts that write an integer in a base: blanks, a sign, the mark of the base, digits with single
underscores between them, blanks. They are exactly the texts that are read as that integer.
-/

namespace Chip8.Number

open Text

/-- Digits of a base with their values; one underscore may stand between two digits. -/
inductive Grouped (base : Nat) : List Char → List Nat → Prop
  | last {c : Char} {d : Nat} : digitIn base c = some d → Grouped base [c] [d]
  | digit {c : Char} {d : Nat} {cs : List Char} {ds : List Nat} :
      digitIn base c = some d → Grouped base cs ds → Grouped base (c :: cs) (d :: ds)
  | underscore {c : Char} {d : Nat} {cs : List Char} {ds : List Nat} :
      digitIn base c = some d → Grouped base cs ds → Grouped base (c :: '_' :: cs) (d :: ds)

/-- What may stand before the digits of a base: nothing, or a zero and the mark of the base, and
after these an underscore. -/
inductive IsMark (base : Nat) : List Char → Prop
  | absent : IsMark base []
  | plain {x : Char} : baseMark? base = some x.toLower → IsMark base ['0', x]
  | separated {x : Char} : baseMark? base = some x.toLower → IsMark base ['0', x, '_']

/-- What may stand before an unsigned numeral, and whether it makes the number negative. -/
inductive IsSign : List Char → Bool → Prop
  | absent : IsSign [] false
  | plus : IsSign ['+'] false
  | minus : IsSign ['-'] true

structure Spelling (base : Nat) where
  before : List Char
  sign : List Char
  negative : Bool
  mark : List Char
  body : List Char
  digits : List Nat
  after : List Char
  blankBefore : ∀ c ∈ before, isPlainBlank c = true
  isSign : IsSign sign negative
  isMark : IsMark base mark
  grouped : Grouped base body digits
  notTooLong : base = 10 → digits.length ≤ maxDecimalDigits
  blankAfter : ∀ c ∈ after, isPlainBlank c = true

namespace Spelling

variable {base : Nat}

def text (s : Spelling base) : List Char :=
  s.before ++ (s.sign ++ (s.mark ++ (s.body ++ s.after)))

def value (s : Spelling base) : Int :=
  let magnitude : Nat := Nat.ofDigits base s.digits.reverse
  if s.negative then -magnitude else magnitude

end Spelling

/-- A text writes an integer in a base, digits of every script and wide blanks counted as basic
ones. -/
def Writes (base : Nat) (text : List Char) (z : Int) : Prop :=
  ∃ s : Spelling base, s.text = text.map basicChar ∧ s.value = z

variable {base d : Nat} {negative : Bool} {c x : Char} {cs body after mark sign : List Char}
  {ds : List Nat}

section Characters

theorem digitIn_range (digit : digitIn base c = some d) :
    (48 ≤ c.toNat ∧ c.toNat ≤ 57) ∨ (97 ≤ c.toNat ∧ c.toNat ≤ 122) ∨
      (65 ≤ c.toNat ∧ c.toNat ≤ 90) := by
  have le (a b : Char) : a ≤ b ↔ a.toNat ≤ b.toNat := UInt32.le_iff_toNat_le
  by_cases numeral : '0' ≤ c ∧ c ≤ '9'
  · exact .inl (by simpa [le] using numeral)
  by_cases small : 'a' ≤ c ∧ c ≤ 'z'
  · exact .inr (.inl (by simpa [le] using small))
  by_cases capital : 'A' ≤ c ∧ c ≤ 'Z'
  · exact .inr (.inr (by simpa [le] using capital))
  · simp [digitIn, numeral, small, capital] at digit

/-- A digit is none of the characters that stand around and between digits. -/
theorem ne_of_digitIn (digit : digitIn base c = some d) : c ≠ '_' ∧ c ≠ '+' ∧ c ≠ '-' := by
  have range := digitIn_range digit
  refine ⟨?_, ?_, ?_⟩ <;> rintro rfl <;> revert range <;> decide

theorem isPlainBlank_iff (c : Char) :
    isPlainBlank c = true ↔ (0x09 ≤ c.toNat ∧ c.toNat ≤ 0x0D) ∨ c.toNat = 0x20 := by
  simp [isPlainBlank]

theorem not_isPlainBlank_of_digitIn (digit : digitIn base c = some d) :
    isPlainBlank c = false := by
  have range := digitIn_range digit
  rw [← Bool.not_eq_true, isPlainBlank_iff]
  omega

theorem toNat_of_toLower (same : x.toLower = c) :
    x.toNat = c.toNat ∨ x.toNat + 32 = c.toNat := by
  subst same
  unfold Char.toLower
  split
  · next capital =>
    have small : x.val.toNat ≤ 90 := UInt32.le_iff_toNat_le.mp capital.2
    right
    change x.val.toNat + 32 = (x.val + 32).toNat
    rw [UInt32.toNat_add]
    change _ = (x.val.toNat + 32) % _
    omega
  · exact .inl rfl

/-- Bases with a mark, with the two characters that their mark can be. -/
theorem marks (marked : baseMark? base = some x.toLower) :
    (base = 2 ∧ (x = 'B' ∨ x = 'b')) ∨ (base = 8 ∧ (x = 'O' ∨ x = 'o')) ∨
      (base = 16 ∧ (x = 'X' ∨ x = 'x')) := by
  have either {upper lower : Char} (letter : x.toLower = lower)
      (pair : upper.toNat + 32 = lower.toNat) : x = upper ∨ x = lower := by
    obtain same | shifted := toNat_of_toLower letter
    · exact .inr (Char.toNat_inj.mp same)
    · exact .inl (Char.toNat_inj.mp (by omega))
  unfold baseMark? at marked
  split at marked
  · exact .inl ⟨rfl, either (Option.some.inj marked).symm rfl⟩
  · exact .inr (.inl ⟨rfl, either (Option.some.inj marked).symm rfl⟩)
  · exact .inr (.inr ⟨rfl, either (Option.some.inj marked).symm rfl⟩)
  · cases marked

/-- The mark of a base is none of the characters that follow a digit of it. -/
theorem not_marked_of_digitIn (digit : digitIn base c = some d) :
    baseMark? base ≠ some c.toLower := by
  intro marked
  obtain ⟨rfl, rfl | rfl⟩ | ⟨rfl, rfl | rfl⟩ | ⟨rfl, rfl | rfl⟩ := marks marked <;>
    revert digit <;> simp [digitIn]

theorem not_marked_of_isPlainBlank (blank : isPlainBlank c = true) :
    baseMark? base ≠ some c.toLower := by
  intro marked
  obtain ⟨-, rfl | rfl⟩ | ⟨-, rfl | rfl⟩ | ⟨-, rfl | rfl⟩ := marks marked <;>
    revert blank <;> decide

theorem digitIn_zero_of_marked (marked : baseMark? base = some x.toLower) :
    digitIn base '0' = some 0 := by
  obtain ⟨rfl, -⟩ | ⟨rfl, -⟩ | ⟨rfl, -⟩ := marks marked <;> decide

end Characters

section Digits

namespace Grouped

theorem exists_digit (grouped : Grouped base cs ds) :
    ∃ c d rest, cs = c :: rest ∧ digitIn base c = some d := by
  cases grouped with
  | last digit => exact ⟨_, _, _, rfl, digit⟩
  | digit digit _ => exact ⟨_, _, _, rfl, digit⟩
  | underscore digit _ => exact ⟨_, _, _, rfl, digit⟩

theorem ne_nil (grouped : Grouped base cs ds) : cs ≠ [] := by
  obtain ⟨c, d, rest, rfl, -⟩ := grouped.exists_digit
  exact List.cons_ne_nil c rest

theorem isPart (grouped : Grouped base cs ds) :
    ∀ c ∈ cs, (c = '_' || (digitIn base c).isSome) = true := by
  induction grouped with
  | last digit => simp [digit]
  | digit digit _ ih => simpa [digit] using ih
  | underscore digit _ ih => simpa [digit] using ih

theorem wellSeparated (grouped : Grouped base cs ds) : wellSeparated cs = true := by
  induction grouped with
  | last digit =>
    have proper := (ne_of_digitIn digit).1
    simp only [Number.wellSeparated]
  | digit digit rest ih =>
    have proper := (ne_of_digitIn digit).1
    obtain ⟨c', d', rest', rfl, next⟩ := rest.exists_digit
    have proper' := (ne_of_digitIn next).1
    simpa [Number.wellSeparated, proper, proper'] using ih
  | underscore digit _ ih =>
    have proper := (ne_of_digitIn digit).1
    simpa [Number.wellSeparated, proper] using ih

theorem digits_eq (grouped : Grouped base cs ds) :
    (cs.filter (· ≠ '_')).map (digitIn base) = ds.map some := by
  induction grouped with
  | last digit => simp [digit, (ne_of_digitIn digit).1]
  | digit digit _ ih => simpa [digit, (ne_of_digitIn digit).1] using ih
  | underscore digit _ ih => simpa [digit, (ne_of_digitIn digit).1] using ih

end Grouped

theorem digit_of_part (parts : ∀ c ∈ cs, (c = '_' || (digitIn base c).isSome) = true)
    (member : c ∈ cs) (proper : c ≠ '_') : ∃ d, digitIn base c = some d := by
  simpa [proper, Option.isSome_iff_exists] using parts c member

/-- Digits and single underscores between them are digits with their values. -/
theorem exists_grouped (parts : ∀ c ∈ cs, (c = '_' || (digitIn base c).isSome) = true)
    (separated : wellSeparated cs = true) : ∃ ds, Grouped base cs ds := by
  fun_induction wellSeparated cs with
  | case1 => cases separated
  | case2 => cases separated
  | case3 c proper =>
    obtain ⟨d, digit⟩ := digit_of_part parts List.mem_cons_self proper
    exact ⟨[d], .last digit⟩
  | case4 => cases separated
  | case5 c rest proper ih =>
    obtain ⟨d, digit⟩ := digit_of_part parts List.mem_cons_self proper
    obtain ⟨ds, grouped⟩ := ih (fun c member => parts c (by simp [member])) separated
    exact ⟨d :: ds, .underscore digit grouped⟩
  | case6 c rest _ _ proper _ ih =>
    obtain ⟨d, digit⟩ := digit_of_part parts List.mem_cons_self proper
    obtain ⟨ds, grouped⟩ := ih (fun c member => parts c (by simp [member])) separated
    exact ⟨d :: ds, .digit digit grouped⟩

theorem foldl_digits {digits : List Char} (read : digits.map (digitIn base) = ds.map some)
    (n : Nat) :
    digits.foldl (fun value c => value * base + (digitIn base c).getD 0) n =
      ds.foldl (fun value d => value * base + d) n := by
  induction digits generalizing ds n with
  | nil =>
    obtain rfl : ds = [] := by simpa using read.symm
    rfl
  | cons c digits ih =>
    cases ds with
    | nil => cases read
    | cons d ds =>
      obtain ⟨first, rest⟩ := List.cons.inj read
      simp only [List.foldl_cons, first, Option.getD_some]
      exact ih rest _

theorem valueOf_eq {digits : List Char} (read : digits.map (digitIn base) = ds.map some) :
    valueOf base digits = Nat.ofDigits base ds.reverse := by
  rw [valueOf, foldl_digits read, Nat.ofDigits_eq_foldr, List.foldr_reverse]
  simp only [Nat.cast_id, Nat.mul_comm, Nat.add_comm]

end Digits

section Parts

/-- The digits begin with a digit, behind a mark too. -/
theorem exists_digit (isMark : IsMark base mark) (grouped : Grouped base body ds)
    (after : List Char) :
    ∃ c d rest, mark ++ (body ++ after) = c :: rest ∧ digitIn base c = some d := by
  cases isMark with
  | absent =>
    obtain ⟨c, d, rest, rfl, digit⟩ := grouped.exists_digit
    exact ⟨c, d, rest ++ after, rfl, digit⟩
  | plain marked => exact ⟨_, _, _, rfl, digitIn_zero_of_marked marked⟩
  | separated marked => exact ⟨_, _, _, rfl, digitIn_zero_of_marked marked⟩

theorem splitSign_append (isSign : IsSign sign negative) (digit : digitIn base c = some d)
    (rest : List Char) : splitSign (sign ++ c :: rest) = (negative, c :: rest) := by
  obtain ⟨-, noPlus, noMinus⟩ := ne_of_digitIn digit
  cases isSign with
  | absent => simp [splitSign, noPlus, noMinus]
  | plus => rfl
  | minus => rfl

theorem exists_sign (cs : List Char) :
    ∃ sign, IsSign sign (splitSign cs).1 ∧ cs = sign ++ (splitSign cs).2 := by
  unfold splitSign
  split
  · exact ⟨_, .minus, rfl⟩
  · exact ⟨_, .plus, rfl⟩
  · exact ⟨_, .absent, rfl⟩

theorem dropWhile_sign (isSign : IsSign sign negative) (digit : digitIn base c = some d)
    (rest : List Char) :
    (sign ++ c :: rest).dropWhile isPlainBlank = sign ++ c :: rest := by
  cases isSign with
  | absent => simp [not_isPlainBlank_of_digitIn digit]
  | plus => rfl
  | minus => rfl

theorem dropBaseMark_of_unmarked (unmarked : baseMark? base ≠ some x.toLower) (rest : List Char) :
    dropBaseMark base (c :: x :: rest) = c :: x :: rest := by
  unfold dropBaseMark
  split
  · next same =>
    obtain ⟨rfl, rfl, rfl⟩ : c = '0' ∧ _ = x ∧ _ = rest := by simpa [eq_comm] using same
    rw [if_neg unmarked]
  · rfl

/-- The second of some digits, or what follows a single one, is no mark of their base. -/
theorem dropBaseMark_unmarked (grouped : Grouped base body ds)
    (blank : ∀ c ∈ after, isPlainBlank c = true) :
    dropBaseMark base (body ++ after) = body ++ after := by
  cases grouped with
  | last digit =>
    cases after with
    | nil => simp [dropBaseMark]
    | cons b rest =>
      exact dropBaseMark_of_unmarked
        (not_marked_of_isPlainBlank (blank b List.mem_cons_self)) rest
  | digit digit more =>
    obtain ⟨c', d', rest, rfl, next⟩ := more.exists_digit
    exact dropBaseMark_of_unmarked (not_marked_of_digitIn next) _
  | underscore digit more =>
    refine dropBaseMark_of_unmarked (fun marked => ?_) _
    have letters := marks marked
    revert letters
    simp

theorem dropBaseMark_append (isMark : IsMark base mark) (grouped : Grouped base body ds)
    (blank : ∀ c ∈ after, isPlainBlank c = true) :
    dropBaseMark base (mark ++ (body ++ after)) = body ++ after := by
  cases isMark with
  | absent => rw [List.nil_append, dropBaseMark_unmarked grouped blank]
  | plain marked =>
    obtain ⟨c, d, rest, same, digit⟩ := grouped.exists_digit
    have proper := (ne_of_digitIn digit).1
    simp [dropBaseMark, marked, same, proper]
  | separated marked => simp [dropBaseMark, marked]

theorem exists_mark (base : Nat) (cs : List Char) :
    ∃ mark, IsMark base mark ∧ cs = mark ++ dropBaseMark base cs := by
  unfold dropBaseMark
  split
  · split
    · next marked =>
      split
      · exact ⟨_, .separated marked, rfl⟩
      · exact ⟨_, .plain marked, rfl⟩
    · exact ⟨_, .absent, rfl⟩
  · exact ⟨_, .absent, rfl⟩

theorem takeWhile_body (grouped : Grouped base body ds)
    (blank : ∀ c ∈ after, isPlainBlank c = true) :
    (body ++ after).takeWhile (fun c => c = '_' || (digitIn base c).isSome) = body ∧
      (body ++ after).dropWhile (fun c => c = '_' || (digitIn base c).isSome) = after := by
  rw [List.takeWhile_append_of_pos grouped.isPart, List.dropWhile_append_of_pos grouped.isPart]
  cases after with
  | nil => simp
  | cons b rest =>
    have isBlank := blank b List.mem_cons_self
    have noPart : (b = '_' || (digitIn base b).isSome) = false := by
      have noDigit : digitIn base b = none := by
        cases digit : digitIn base b with
        | none => rfl
        | some d => simp [not_isPlainBlank_of_digitIn digit] at isBlank
      have noLine : b ≠ '_' := by
        rintro rfl
        revert isBlank
        decide
      simp [noDigit, noLine]
    simp [noPart]

end Parts

section Reading

variable {text : List Char} {z : Int}

theorem readInteger_of_writes (writes : Writes base text z) : readInteger base text = .ok z := by
  obtain ⟨s, same, rfl⟩ := writes
  obtain ⟨before, sign, negative, mark, body, digits, after, blankBefore, isSign, isMark, grouped,
    notTooLong, blankAfter⟩ := s
  simp only [Spelling.text, Spelling.value] at same notTooLong ⊢
  have opening :
      splitSign ((text.map basicChar).dropWhile isPlainBlank) =
        (negative, mark ++ (body ++ after)) := by
    obtain ⟨c, d, rest, first, digit⟩ := exists_digit isMark grouped after
    rw [← same, List.dropWhile_append_of_pos blankBefore, first, dropWhile_sign isSign digit,
      splitSign_append isSign digit]
  have number := takeWhile_body grouped blankAfter
  have count : (body.filter (· ≠ '_')).length = digits.length := by
    simpa using congrArg List.length grouped.digits_eq
  have short : ¬ (base = 10 ∧ maxDecimalDigits < (body.filter (· ≠ '_')).length) := by
    rintro ⟨ten, long⟩
    have bound := notTooLong ten
    omega
  have closing : after.all isPlainBlank = true := List.all_eq_true.mpr blankAfter
  simp only [readInteger, opening, dropBaseMark_append isMark grouped blankAfter, number.1,
    number.2, grouped.wellSeparated, Bool.not_true, Bool.false_eq_true, ↓reduceIte, short, closing,
    valueOf_eq grouped.digits_eq]

theorem writes_of_readInteger (read : readInteger base text = .ok z) : Writes base text z := by
  cases opening : splitSign ((text.map basicChar).dropWhile isPlainBlank) with
  | mk negative unsigned =>
  obtain ⟨sign, isSign, signed⟩ := exists_sign ((text.map basicChar).dropWhile isPlainBlank)
  obtain ⟨mark, isMark, marked⟩ := exists_mark base unsigned
  rw [opening] at isSign signed
  simp only [readInteger, opening] at read
  split at read
  · cases read
  · next separated =>
    split at read
    · cases read
    · next short =>
      split at read
      · cases read
      · next blankAfter =>
        obtain ⟨digits, grouped⟩ := exists_grouped
          (fun _ => List.mem_takeWhile_imp (p := fun c => c = '_' || (digitIn base c).isSome))
          (by simpa using separated)
        have count := congrArg List.length grouped.digits_eq
        simp only [List.length_map] at count
        have blank : ∀ c ∈ (dropBaseMark base unsigned).dropWhile
            (fun c => c = '_' || (digitIn base c).isSome), isPlainBlank c = true :=
          List.all_eq_true.mp (by simpa using blankAfter)
        refine ⟨{ before := (text.map basicChar).takeWhile isPlainBlank, isSign, isMark, grouped,
                  blankBefore := fun _ => List.mem_takeWhile_imp
                  blankAfter := blank
                  notTooLong := fun ten => ?_, .. }, ?_, ?_⟩
        · rw [← count]
          exact Nat.not_lt.mp fun long => short ⟨ten, long⟩
        · rw [Spelling.text, List.takeWhile_append_dropWhile, ← marked, ← signed,
            List.takeWhile_append_dropWhile]
        · rw [Spelling.value, ← valueOf_eq grouped.digits_eq]
          exact Except.ok.inj read

/-- A text is read as an integer exactly if it writes that integer. -/
theorem readInteger_eq_ok : readInteger base text = .ok z ↔ Writes base text z :=
  ⟨writes_of_readInteger, readInteger_of_writes⟩

end Reading

section Numerals

theorem Grouped.append {cs' : List Char} {ds' : List Nat} (grouped : Grouped base cs ds)
    (grouped' : Grouped base cs' ds') : Grouped base (cs ++ cs') (ds ++ ds') := by
  induction grouped with
  | last digit => exact .digit digit grouped'
  | digit digit _ ih => exact .digit digit ih
  | underscore digit _ ih => exact .underscore digit ih

theorem digitIn_ten {d : Nat} (small : d < 10) : digitIn 10 d.digitChar.toUpper = some d := by
  have all : ∀ d : Fin 10, digitIn 10 d.val.digitChar.toUpper = some d.val := by decide
  exact all ⟨d, small⟩

theorem digitIn_hexDigit (d : Fin 16) :
    digitIn 16 (hexDigit d) = some d.val ∧ digitIn 16 (hexDigit d).toLower = some d.val := by
  revert d
  decide

/-- The decimal digits of a number stand for it. -/
theorem exists_grouped_digits (n : Nat) :
    ∃ ds, Grouped 10 (digits 10 n) ds ∧ Nat.ofDigits 10 ds.reverse = n ∧
      ds.length = (digits 10 n).length := by
  induction n using Nat.strongRecOn with
  | ind n ih =>
    by_cases small : n < 10
    · rw [digits_of_lt small]
      exact ⟨[n], .last (digitIn_ten small), by simp, rfl⟩
    · obtain ⟨ds, grouped, value, count⟩ := ih (n / 10) (by omega)
      rw [digits_of_le (by decide) (Nat.le_of_not_lt small)]
      refine ⟨ds ++ [n % 10], grouped.append (.last (digitIn_ten (by omega))), ?_, by simp [count]⟩
      rw [List.reverse_append, List.reverse_singleton, List.singleton_append, Nat.ofDigits_cons,
        value]
      omega

theorem Grouped.map_basicChar (grouped : Grouped base cs ds) : cs.map basicChar = cs := by
  have basic : ∀ c ∈ cs, basicChar c = id c := by
    intro c member
    apply if_pos
    by_cases line : c = '_'
    · subst line
      decide
    · obtain ⟨d, digit⟩ := digit_of_part grouped.isPart member line
      have range := digitIn_range digit
      omega
  rw [List.map_congr_left basic, List.map_id]

/-- Digits alone write the number that they stand for. -/
theorem Grouped.writes (grouped : Grouped base cs ds)
    (notTooLong : base = 10 → ds.length ≤ maxDecimalDigits) :
    Writes base cs (Nat.ofDigits base ds.reverse : Nat) := by
  refine ⟨{ before := [], mark := [], after := [], isSign := .absent, isMark := .absent, grouped,
            notTooLong, blankBefore := by simp, blankAfter := by simp, .. }, ?_, rfl⟩
  rw [grouped.map_basicChar, Spelling.text]
  simp

/-- A natural number is written by its decimal digits, if a literal may have as many. -/
theorem writes_decimal {z : Int} (natural : 0 ≤ z) (small : z < 10 ^ maxDecimalDigits) :
    Writes 10 (decimal z).toList z := by
  obtain ⟨n, rfl⟩ := Int.eq_ofNat_of_zero_le natural
  have short : (digits 10 n).length ≤ maxDecimalDigits :=
    length_digits_le (by decide) (by exact_mod_cast small)
  obtain ⟨ds, grouped, value, count⟩ := exists_grouped_digits n
  have writes := grouped.writes fun _ => count ▸ short
  rwa [value, ← toList_decimal] at writes

/-- A number of one hexadecimal digit is written by that digit, in either case of letters. -/
theorem writes_hexDigit (d : Fin 16) :
    Writes 16 [hexDigit d] d.val ∧ Writes 16 [(hexDigit d).toLower] d.val := by
  obtain ⟨capital, small⟩ := digitIn_hexDigit d
  have one : Nat.ofDigits 16 [d.val].reverse = d.val := by simp
  have other : (16 : Nat) = 10 → [d.val].length ≤ maxDecimalDigits := by simp
  have writes := (Grouped.last capital).writes other
  have writes' := (Grouped.last small).writes other
  rw [one] at writes writes'
  exact ⟨writes, writes'⟩

end Numerals

end Chip8.Number
