import Chip8.Proofs.Faults
import Chip8.Proofs.Mnemonic
import Chip8.Proofs.Numerals

/-! # Names and words

The encodings of the machine as a table: how an operation is spelled and what its words look like.
A name is a spelling with the digits of the operands in its holes, and these are the digits in the
holes of the word. No text has two of the spellings, so a name tells the word; and no spelling
starts like data, so names and faults agree on the words that have no operation.
-/

namespace Chip8

open Text

namespace Template

/-- A template with its holes, the characters `#`, filled by digits from left to right. -/
def fill : List Char → List (Fin 16) → List Char
  | [], _ => []
  | c :: rest, [] => c :: fill rest []
  | c :: rest, d :: digits =>
    if c = '#' then hexDigit d :: fill rest digits else c :: fill rest (d :: digits)

/-- Two characters of templates that can stand for one character of a text. -/
def Meet (p q : Char) : Prop :=
  p = q ∨ (p = '#' ∧ ∃ d, hexDigit d = q) ∨ (q = '#' ∧ ∃ d, hexDigit d = p)

instance (p q : Char) : Decidable (Meet p q) := inferInstanceAs (Decidable (_ ∨ _))

variable {p q : List Char} {ds es : List (Fin 16)}

/-- Without digits the holes stay open. -/
@[simp] theorem fill_nil (p : List Char) : fill p [] = p := by
  induction p with
  | nil => rfl
  | cons c rest ih => rw [fill, ih]

/-- Digits pass over a part without holes. -/
theorem fill_append (fixed : '#' ∉ p) : fill (p ++ q) ds = p ++ fill q ds := by
  induction p with
  | nil => rfl
  | cons c rest ih =>
    rw [List.mem_cons, not_or] at fixed
    cases ds with
    | nil => rw [fill_nil, fill_nil]
    | cons d digits =>
      rw [List.cons_append, fill, if_neg (Ne.symm fixed.1), ih fixed.2, List.cons_append]

/-- The first character of a filled template is the one of the template, or a digit in a hole. -/
theorem fill_cons (c : Char) (rest : List Char) (ds : List (Fin 16)) :
    ∃ first es, fill (c :: rest) ds = first :: fill rest es ∧
      (first = c ∨ c = '#' ∧ ∃ d, hexDigit d = first) := by
  cases ds with
  | nil => exact ⟨c, [], rfl, .inl rfl⟩
  | cons d digits =>
    by_cases hole : c = '#'
    · exact ⟨hexDigit d, digits, if_pos hole, .inr ⟨hole, d, rfl⟩⟩
    · exact ⟨c, d :: digits, if_neg hole, .inl rfl⟩

/-- Templates of one text meet in every place. -/
theorem meet_of_fill (same : fill p ds = fill q es) : List.Forall₂ Meet p q := by
  induction p generalizing q ds es with
  | nil =>
    cases q with
    | nil => exact .nil
    | cons b rest =>
      obtain ⟨first, later, filled, -⟩ := fill_cons b rest es
      rw [filled, fill] at same
      cases same
  | cons a front ih =>
    obtain ⟨first, later, filled, fromA⟩ := fill_cons a front ds
    cases q with
    | nil =>
      rw [filled, fill] at same
      cases same
    | cons b rest =>
      obtain ⟨first', later', filled', fromB⟩ := fill_cons b rest es
      rw [filled, filled'] at same
      obtain ⟨rfl, tails⟩ := List.cons.inj same
      refine .cons ?_ (ih tails)
      rcases fromA with rfl | ⟨rfl, digit⟩
      · rcases fromB with rfl | ⟨rfl, digit⟩
        · exact .inl rfl
        · exact .inr (.inr ⟨rfl, digit⟩)
      · rcases fromB with rfl | ⟨rfl, -⟩
        · exact .inr (.inl ⟨rfl, digit⟩)
        · exact .inl rfl

/-- A text tells the digits in the holes of its template. -/
theorem eq_of_fill (countD : ds.length = p.count '#') (countE : es.length = p.count '#')
    (same : fill p ds = fill p es) : ds = es := by
  induction p generalizing ds es with
  | nil => rw [List.eq_nil_of_length_eq_zero countD, List.eq_nil_of_length_eq_zero countE]
  | cons c rest ih =>
    by_cases hole : c = '#'
    · subst hole
      rw [List.count_cons_self] at countD countE
      obtain ⟨d, ds, rfl⟩ := List.exists_cons_of_length_eq_add_one countD
      obtain ⟨e, es, rfl⟩ := List.exists_cons_of_length_eq_add_one countE
      simp only [fill, ↓reduceIte, List.cons.injEq] at same
      rw [hexDigit_injective same.1, ih (Nat.succ.inj countD) (Nat.succ.inj countE) same.2]
    · have skip (digits : List (Fin 16)) : fill (c :: rest) digits = c :: fill rest digits := by
        cases digits with
        | nil => rfl
        | cons d later => exact if_neg hole
      rw [List.count_cons_of_ne hole] at countD countE
      rw [skip, skip] at same
      exact ih countD countE (List.cons.inj same).2

/-- Ahead of its first hole a template stands for itself. -/
theorem take_fill {k : Nat} (fixed : '#' ∉ p.take k) : (fill p ds).take k = p.take k := by
  induction p generalizing k ds with
  | nil => rfl
  | cons c rest ih =>
    cases k with
    | zero => rfl
    | succ k =>
      rw [List.take_succ_cons, List.mem_cons, not_or] at fixed
      obtain ⟨first, later, filled, rfl | ⟨rfl, -⟩⟩ := fill_cons c rest ds
      · rw [filled, List.take_succ_cons, List.take_succ_cons, ih fixed.2]
      · exact absurd rfl fixed.1

end Template

open Template

/-- How an operation is spelled, and what its words look like in hexadecimal digits. -/
structure Encoding where
  spelling : String
  pattern : String
deriving DecidableEq

namespace Encoding

/-- The operations of the machine. -/
def operations : List Encoding :=
  [⟨"CLS", "00E0"⟩, ⟨"RET", "00EE"⟩, ⟨"SYS ###", "0###"⟩,
   ⟨"JP ###", "1###"⟩, ⟨"CALL ###", "2###"⟩, ⟨"JP V0, ###", "B###"⟩,
   ⟨"SE V#, ##", "3###"⟩, ⟨"SNE V#, ##", "4###"⟩, ⟨"SE V#, V#", "5##0"⟩, ⟨"SNE V#, V#", "9##0"⟩,
   ⟨"LD V#, ##", "6###"⟩, ⟨"ADD V#, ##", "7###"⟩,
   ⟨"LD V#, V#", "8##0"⟩, ⟨"OR V#, V#", "8##1"⟩, ⟨"AND V#, V#", "8##2"⟩, ⟨"XOR V#, V#", "8##3"⟩,
   ⟨"ADD V#, V#", "8##4"⟩, ⟨"SUB V#, V#", "8##5"⟩, ⟨"SHR V#, V#", "8##6"⟩,
   ⟨"SUBN V#, V#", "8##7"⟩, ⟨"SHL V#, V#", "8##E"⟩,
   ⟨"LD I, ###", "A###"⟩, ⟨"RND V#, ##", "C###"⟩, ⟨"DRW V#, V#, #", "D###"⟩,
   ⟨"SKP V#", "E#9E"⟩, ⟨"SKNP V#", "E#A1"⟩,
   ⟨"LD V#, DT", "F#07"⟩, ⟨"LD V#, K", "F#0A"⟩, ⟨"LD DT, V#", "F#15"⟩, ⟨"LD ST, V#", "F#18"⟩,
   ⟨"ADD I, V#", "F#1E"⟩, ⟨"LD F, V#", "F#29"⟩, ⟨"LD B, V#", "F#33"⟩, ⟨"LD [I], V#", "F#55"⟩,
   ⟨"LD V#, [I]", "F#65"⟩]

/-- The words that no operation has. -/
def data : Encoding := ⟨"DW ####", "####"⟩

/-- No two spellings meet in every place. -/
theorem eq_of_meet : ∀ e ∈ data :: operations, ∀ f ∈ data :: operations,
    List.Forall₂ Meet e.spelling.toList f.spelling.toList → e = f := by
  decide +kernel

/-- The spellings of operations begin with three letters that are not those of data. -/
theorem not_data : ∀ e ∈ operations,
    '#' ∉ e.spelling.toList.take 3 ∧ e.spelling.toList.take 3 ≠ "DW ".toList := by
  decide +kernel

/-- A name and a word of an encoding: the same digits fill its spelling to the name and its pattern
to the word. -/
def Covers (e : Encoding) (name : String) (word : Int) : Prop :=
  ∃ digits : List (Fin 16), digits.length = e.spelling.toList.count '#' ∧
    name.toList = fill e.spelling.toList digits ∧
    (hex4 (word % 65536)).toList = fill e.pattern.toList digits

variable {e f : Encoding} {name : String} {first second word : Int}

/-- A name is of one encoding. -/
theorem Covers.unique (coversE : e.Covers name first) (coversF : f.Covers name second)
    (memberE : e ∈ data :: operations) (memberF : f ∈ data :: operations) : e = f := by
  obtain ⟨ds, -, spelledE, -⟩ := coversE
  obtain ⟨es, -, spelledF, -⟩ := coversF
  exact eq_of_meet e memberE f memberF (meet_of_fill (spelledE.symm.trans spelledF))

/-- A name of an encoding is of one word. -/
theorem Covers.hex4_eq (coversE : e.Covers name first) (coversF : e.Covers name second) :
    hex4 (first % 65536) = hex4 (second % 65536) := by
  obtain ⟨ds, countD, spelledD, writtenD⟩ := coversE
  obtain ⟨es, countE, spelledE, writtenE⟩ := coversF
  have digits : ds = es := eq_of_fill countD countE (spelledD.symm.trans spelledE)
  exact String.toList_inj.mp (by rw [writtenD, writtenE, digits])

/-- A name of an operation does not start like data. -/
theorem Covers.not_startsLikeData (covers : e.Covers name word) (member : e ∈ operations) :
    ¬ "DW ".toList <+: name.toList := by
  intro starts
  obtain ⟨digits, -, spelled, -⟩ := covers
  obtain ⟨fixed, other⟩ := not_data e member
  rw [spelled, List.prefix_iff_eq_take] at starts
  exact other ((take_fill fixed).symm.trans starts.symm)

end Encoding

namespace Instruction

open Encoding

/-- A byte has one pair of nibbles. -/
theorem nibbles_of_byte {y n a b : Fin 16}
    (same : (0x10 * y.val + n.val : Int) = 0x10 * a.val + b.val) : y = a ∧ n = b := by
  omega

section Spelling

variable (before after : String) (x y n : Fin 16)

theorem toList_register : (before ++ registerName x.val ++ after).toList =
    before.toList ++ 'V' :: hexDigit x :: after.toList := by
  simp [registerName]

theorem toList_lastRegister : (before ++ registerName x.val).toList =
    before.toList ++ ['V', hexDigit x] := by
  simp [registerName]

theorem toList_registers : (before ++ registerName x.val ++ ", " ++ registerName y.val).toList =
    before.toList ++ ['V', hexDigit x, ',', ' ', 'V', hexDigit y] := by
  simp [registerName]

theorem toList_registersDigit :
    (before ++ registerName x.val ++ ", " ++ registerName y.val ++ ", " ++ hex n.val).toList =
      before.toList ++ ['V', hexDigit x, ',', ' ', 'V', hexDigit y, ',', ' ', hexDigit n] := by
  simp [registerName]

theorem toList_registerByte :
    (before ++ registerName x.val ++ ", " ++ hex2 (0x10 * y.val + n.val)).toList =
      before.toList ++ ['V', hexDigit x, ',', ' ', hexDigit y, hexDigit n] := by
  simp [registerName]

theorem toList_address :
    (before ++ hex3 (0x100 * x.val + 0x10 * y.val + n.val)).toList =
      before.toList ++ [hexDigit x, hexDigit y, hexDigit n] := by
  simp

end Spelling

section Covers

variable {word : Int} {o x y n : Fin 16}
  (parts : word % 65536 = 0x1000 * o.val + 0x100 * x.val + 0x10 * y.val + n.val)
include parts

/-- An encoding of the table covers a name and a word if its holes are filled by nibbles of the
word. -/
theorem covers_of_nibbles {name : String} (e : Encoding) (digits : List (Fin 16))
    (member : e ∈ Encoding.operations) (count : digits.length = e.spelling.toList.count '#')
    (spelled : name.toList = fill e.spelling.toList digits)
    (written : [hexDigit o, hexDigit x, hexDigit y, hexDigit n] = fill e.pattern.toList digits) :
    ∃ e ∈ Encoding.operations, e.Covers name word :=
  ⟨e, member, digits, count, spelled, by rw [parts, toList_hex4, written]⟩

/-- The encodings of family 8 are named after the last nibble of a word. -/
theorem covers_of_aluName {letters : String} (family : o = 8)
    (named : aluName n.val = some letters) :
    ∃ e ∈ Encoding.operations,
      e.Covers (letters ++ " " ++ registerName x.val ++ ", " ++ registerName y.val) word := by
  have entries : ∀ n : Fin 16, ∀ letters ∈ aluName n.val, '#' ∉ letters.toList ∧
      (⟨letters ++ " V#, V#", "8##" ++ hex n.val⟩ : Encoding) ∈ Encoding.operations := by
    decide +kernel
  obtain ⟨fixed, member⟩ := entries n letters named
  subst family
  refine covers_of_nibbles parts _ [x, y] member ?_ ?_ ?_
  · simp [List.count_eq_zero.mpr fixed]
  · rw [toList_registers, String.toList_append, String.toList_append, fill_append fixed,
      List.append_assoc]
    rfl
  · rw [String.toList_append, toList_hex]
    rfl

/-- The encodings of family F are named after the last byte of a word. -/
theorem covers_of_miscName {before after : String} (family : o = 0xF)
    (named : miscName (0x10 * y.val + n.val) = some (before, after)) :
    ∃ e ∈ Encoding.operations, e.Covers (before ++ registerName x.val ++ after) word := by
  have entries : ∀ y n : Fin 16, ∀ texts ∈ miscName (0x10 * y.val + n.val),
      '#' ∉ texts.1.toList ∧ '#' ∉ texts.2.toList ∧
      (⟨texts.1 ++ "V#" ++ texts.2, "F#" ++ hex2 (0x10 * y.val + n.val)⟩ : Encoding) ∈
        Encoding.operations := by
    decide +kernel
  obtain ⟨fixed, fixed', member⟩ := entries y n _ named
  subst family
  refine covers_of_nibbles parts _ [x] member ?_ ?_ ?_
  · simp [List.count_eq_zero.mpr fixed, List.count_eq_zero.mpr fixed']
  · have holes : fill ('V' :: '#' :: after.toList) [x] = 'V' :: hexDigit x :: after.toList := by
      simp [fill]
    rw [toList_register, String.toList_append, String.toList_append, List.append_assoc,
      fill_append fixed]
    exact congrArg (before.toList ++ ·) holes.symm
  · rw [String.toList_append, toList_hex2]
    rfl

/-- The encodings of family 0: two words of their own, and the ignored calls for all others. -/
theorem covers_of_firstFamily {name : String} (family : o = 0)
    (named : operationName ⟨o.val, x.val, y.val, n.val, 0x10 * y.val + n.val,
      0x100 * x.val + 0x10 * y.val + n.val, word % 65536⟩ = some name) :
    ∃ e ∈ Encoding.operations, e.Covers name word := by
  subst family
  simp only [operationName, Fin.val_zero, Nat.cast_zero, ↓reduceIte] at named
  split_ifs at named with clears returns
  · cases named
    obtain ⟨rfl, rfl, rfl⟩ : x = 0x0 ∧ y = 0xE ∧ n = 0x0 := by omega
    exact covers_of_nibbles parts ⟨"CLS", "00E0"⟩ [] (by decide +kernel) rfl rfl rfl
  · cases named
    obtain ⟨rfl, rfl, rfl⟩ : x = 0x0 ∧ y = 0xE ∧ n = 0xE := by omega
    exact covers_of_nibbles parts ⟨"RET", "00EE"⟩ [] (by decide +kernel) rfl rfl rfl
  · cases named
    exact covers_of_nibbles parts ⟨"SYS ###", "0###"⟩ [x, y, n] (by decide +kernel) rfl
      (toList_address ..) rfl

end Covers

/-- A name of an operation is spelled by the encoding that its word is written by. -/
theorem covers_of_operationName {word : Int} {name : String}
    (named : (ofWord word).operationName = some name) :
    ∃ e ∈ Encoding.operations, e.Covers name word := by
  obtain ⟨o, x, y, n, parts, fields⟩ := ofWord_nibbles word
  rw [fields] at named
  by_cases first : o = 0
  · exact covers_of_firstFamily parts first named
  -- The names of the other families are told by the first nibble alone.
  have noClear : ¬ word % 65536 = 0x00E0 := by omega
  have noReturn : ¬ word % 65536 = 0x00EE := by omega
  simp only [operationName, noClear, noReturn, ↓reduceIte] at named
  clear noClear noReturn
  obtain ⟨o, small⟩ := o
  interval_cases o
  all_goals
    simp only [Nat.cast_zero, Nat.cast_one, Nat.cast_ofNat, Int.reduceEq, ↓reduceIte] at named
  · exact absurd rfl first
  · cases named
    exact covers_of_nibbles (o := 0x1) parts ⟨"JP ###", "1###"⟩ [x, y, n] (by decide +kernel)
      rfl (toList_address ..) rfl
  · cases named
    exact covers_of_nibbles (o := 0x2) parts ⟨"CALL ###", "2###"⟩ [x, y, n] (by decide +kernel)
      rfl (toList_address ..) rfl
  · cases named
    exact covers_of_nibbles (o := 0x3) parts ⟨"SE V#, ##", "3###"⟩ [x, y, n] (by decide +kernel)
      rfl (toList_registerByte ..) rfl
  · cases named
    exact covers_of_nibbles (o := 0x4) parts ⟨"SNE V#, ##", "4###"⟩ [x, y, n] (by decide +kernel)
      rfl (toList_registerByte ..) rfl
  · split_ifs at named with last
    cases named
    obtain rfl : n = 0x0 := by omega
    exact covers_of_nibbles (o := 0x5) parts ⟨"SE V#, V#", "5##0"⟩ [x, y] (by decide +kernel)
      rfl (toList_registers ..) rfl
  · cases named
    exact covers_of_nibbles (o := 0x6) parts ⟨"LD V#, ##", "6###"⟩ [x, y, n] (by decide +kernel)
      rfl (toList_registerByte ..) rfl
  · cases named
    exact covers_of_nibbles (o := 0x7) parts ⟨"ADD V#, ##", "7###"⟩ [x, y, n] (by decide +kernel)
      rfl (toList_registerByte ..) rfl
  · obtain ⟨letters, found, rfl⟩ := Option.map_eq_some_iff.mp named
    exact covers_of_aluName (o := 0x8) parts rfl found
  · split_ifs at named with last
    cases named
    obtain rfl : n = 0x0 := by omega
    exact covers_of_nibbles (o := 0x9) parts ⟨"SNE V#, V#", "9##0"⟩ [x, y] (by decide +kernel)
      rfl (toList_registers ..) rfl
  · cases named
    exact covers_of_nibbles (o := 0xA) parts ⟨"LD I, ###", "A###"⟩ [x, y, n] (by decide +kernel)
      rfl (toList_address ..) rfl
  · cases named
    exact covers_of_nibbles (o := 0xB) parts ⟨"JP V0, ###", "B###"⟩ [x, y, n] (by decide +kernel)
      rfl (toList_address ..) rfl
  · cases named
    exact covers_of_nibbles (o := 0xC) parts ⟨"RND V#, ##", "C###"⟩ [x, y, n] (by decide +kernel)
      rfl (toList_registerByte ..) rfl
  · cases named
    exact covers_of_nibbles (o := 0xD) parts ⟨"DRW V#, V#, #", "D###"⟩ [x, y, n] (by decide +kernel)
      rfl (toList_registersDigit ..) rfl
  · split_ifs at named with down up
    · cases named
      obtain ⟨rfl, rfl⟩ : y = 0x9 ∧ n = 0xE := nibbles_of_byte down
      exact covers_of_nibbles (o := 0xE) parts ⟨"SKP V#", "E#9E"⟩ [x] (by decide +kernel)
        rfl (toList_lastRegister ..) rfl
    · cases named
      obtain ⟨rfl, rfl⟩ : y = 0xA ∧ n = 0x1 := nibbles_of_byte up
      exact covers_of_nibbles (o := 0xE) parts ⟨"SKNP V#", "E#A1"⟩ [x] (by decide +kernel)
        rfl (toList_lastRegister ..) rfl
  · obtain ⟨⟨before, after⟩, found, rfl⟩ := Option.map_eq_some_iff.mp named
    exact covers_of_miscName (o := 0xF) parts rfl found

/-- A word without an operation is spelled as data. -/
theorem covers_of_undefined {word : Int} (undefined : (ofWord word).operation? = none) :
    Encoding.data.Covers (ofWord word).mnemonic word := by
  obtain ⟨o, x, y, n, parts, -⟩ := ofWord_nibbles word
  refine ⟨[o, x, y, n], rfl, ?_, ?_⟩
  · rw [mnemonic_of_undefined undefined, parts, String.toList_append, toList_hex4]
    rfl
  · rw [parts, toList_hex4]
    rfl

/-- A word with an operation is spelled by an encoding of the table. -/
theorem covers_of_defined {word : Int} (defined : (ofWord word).operation? ≠ none) :
    ∃ e ∈ Encoding.operations, e.Covers (ofWord word).mnemonic word := by
  rw [ne_eq, ← operationName_eq_none_iff] at defined
  obtain ⟨name, named⟩ := Option.ne_none_iff_exists'.mp defined
  rw [mnemonic, named]
  exact covers_of_operationName named

/-- Every word is spelled by an encoding. -/
theorem exists_covers (word : Int) :
    ∃ e ∈ Encoding.data :: Encoding.operations, e.Covers (ofWord word).mnemonic word := by
  by_cases undefined : (ofWord word).operation? = none
  · exact ⟨_, List.mem_cons_self, covers_of_undefined undefined⟩
  · obtain ⟨e, member, covers⟩ := covers_of_defined undefined
    exact ⟨e, List.mem_cons_of_mem _ member, covers⟩

/-- A name starts like data exactly if its word has no operation. -/
theorem startsLikeData_iff (word : Int) :
    "DW ".toList <+: (ofWord word).mnemonic.toList ↔ (ofWord word).operation? = none := by
  constructor
  · intro starts
    by_contra defined
    obtain ⟨e, member, covers⟩ := covers_of_defined defined
    exact covers.not_startsLikeData member starts
  · intro undefined
    rw [mnemonic_of_undefined undefined, String.toList_append]
    exact List.prefix_append _ _

/-- Words of sixteen bits are told by their four digits. -/
theorem eq_of_hex4_eq {first second : Int}
    (same : hex4 (first % 65536) = hex4 (second % 65536)) : first % 65536 = second % 65536 := by
  obtain ⟨o, x, y, n, parts, -⟩ := ofWord_nibbles first
  obtain ⟨p, a, b, c, parts', -⟩ := ofWord_nibbles second
  have digits := congrArg String.toList same
  simp only [parts, parts', toList_hex4, List.cons.injEq, and_true] at digits
  obtain ⟨sameO, sameX, sameY, sameN⟩ := digits
  rw [parts, parts', hexDigit_injective sameO, hexDigit_injective sameX, hexDigit_injective sameY,
    hexDigit_injective sameN]

/-- Two words have one name exactly if they agree in their low sixteen bits. -/
theorem mnemonic_eq_iff (first second : Int) :
    (ofWord first).mnemonic = (ofWord second).mnemonic ↔ first % 65536 = second % 65536 := by
  constructor
  · intro same
    obtain ⟨e, memberE, coversE⟩ := exists_covers first
    obtain ⟨f, memberF, coversF⟩ := exists_covers second
    rw [← same] at coversF
    obtain rfl := coversE.unique coversF memberE memberF
    exact eq_of_hex4_eq (coversE.hex4_eq coversF)
  · intro same
    rw [← ofWord_emod first, same, ofWord_emod]

end Instruction

namespace Machine

variable {s : Settings} {d : Dialect} {m : Machine} {actions : List Action}

/-- An unknown word is one without an operation, and its fault shows it and where it was fetched. -/
theorem WellFormed.unknownOpcode_iff (ok : m.WellFormed) (word w pc : Int) :
    (m.exec d (.ofWord word)).answer = .error (.fault (.unknownOpcode w pc)) ↔
      (Instruction.ofWord word).operation? = none ∧ w = word % 65536 ∧ pc = m.fetchPc := by
  constructor
  · intro raised
    rw [ok.answer_exec word] at raised
    split_ifs at raised with full empty undefined
    all_goals cases raised
    exact ⟨undefined, rfl, rfl⟩
  · rintro ⟨undefined, rfl, rfl⟩
    rw [exec_of_undefined undefined]
    rfl

/-- On every machine that a host can bring about, a name starts like data exactly if its word
faults as unknown, and the fault shows the word and where it was fetched. Names tell words apart. -/
theorem names_of_run (run : Run s (initial s) actions m) :
    (∀ word : Int,
      ("DW ".toList <+: (Instruction.ofWord word).mnemonic.toList ↔
        ∃ w pc, (m.exec s.dialect (.ofWord word)).answer =
          .error (.fault (.unknownOpcode w pc))) ∧
      ∀ w pc, (m.exec s.dialect (.ofWord word)).answer = .error (.fault (.unknownOpcode w pc)) →
        w = word % 65536 ∧ pc = m.fetchPc) ∧
    ∀ first second : Int,
      (Instruction.ofWord first).mnemonic = (Instruction.ofWord second).mnemonic ↔
        first % 65536 = second % 65536 := by
  have ok : m.WellFormed := run.wellFormed (wellFormed_initial s)
  refine ⟨fun word => ⟨?_, ?_⟩, Instruction.mnemonic_eq_iff⟩
  · rw [Instruction.startsLikeData_iff]
    constructor
    · intro undefined
      exact ⟨_, _, (ok.unknownOpcode_iff word _ _).mpr ⟨undefined, rfl, rfl⟩⟩
    · rintro ⟨w, pc, raised⟩
      exact ((ok.unknownOpcode_iff word w pc).mp raised).1
  · intro w pc raised
    exact ((ok.unknownOpcode_iff word w pc).mp raised).2

/-- A program whose first word, `SE` of two registers but for its last digit, has no operation. -/
theorem names_of_run_undefined :
    let actions := [Action.load [0x51, 0x23]]
    let m := (initial {}).after {} actions
    Run {} (initial {}) actions m ∧
      (Instruction.ofWord 0x5123).mnemonic = "DW 5123" ∧
      ∃ w pc, (m.exec {} (.ofWord 0x5123)).answer = .error (.fault (.unknownOpcode w pc)) ∧
        w = 0x5123 ∧ pc = m.fetchPc := by
  intro actions m
  have run : Run {} (initial {}) actions m := Run.of_after (initial {}) actions
  obtain ⟨words, -⟩ := names_of_run run
  obtain ⟨starts, shown⟩ := words 0x5123
  have spelled : (Instruction.ofWord 0x5123).mnemonic = "DW 5123" := by decide +kernel
  obtain ⟨w, pc, raised⟩ := starts.mp (by rw [spelled]; decide)
  exact ⟨run, spelled, w, pc, raised, shown w pc raised⟩

end Machine

end Chip8
