/-! # Code points

Escapes can name the halves of a pair of code points that only together stand for a character. No
string holds such a half, so texts that may have some are lists of code points.
-/

namespace Chip8.Text

/-- A character, or one of the halves of pairs. -/
inductive CodePoint where
  | char (c : Char)
  /-- The half with this number among the 2048 halves. -/
  | half (number : Fin 2048)
deriving DecidableEq, Repr

namespace CodePoint

abbrev firstHalf : Nat := 0xD800

def code : CodePoint → Nat
  | char c => c.toNat
  | half number => firstHalf + number

/-- The code point with a number; there are none from 0x110000 on. -/
def ofNat? (n : Nat) : Option CodePoint :=
  if n < firstHalf then some (char (Char.ofNat n))
  else if h : n - firstHalf < 2048 then some (half ⟨n - firstHalf, h⟩)
  else if n < 0x110000 then some (char (Char.ofNat n))
  else none

/-- The character that a reader without halves sees: the replacement character for a half. -/
def visible : CodePoint → Char
  | char c => c
  | half _ => '\uFFFD'

/-- The character that a code point is, if it is one. -/
def char? : CodePoint → Option Char
  | char c => some c
  | half _ => none

end CodePoint

/-- A text that may have halves of pairs. -/
abbrev CodeText := List CodePoint

def codes (cs : List Char) : CodeText := cs.map .char

def codesOf (s : String) : CodeText := codes s.toList

/-- The characters of a text without halves; `none` if it has some. -/
def chars? (text : CodeText) : Option (List Char) := text.mapM CodePoint.char?

theorem codesOf_append (s t : String) : codesOf (s ++ t) = codesOf s ++ codesOf t := by
  rw [codesOf, String.toList_append, codes, List.map_append]
  rfl

theorem chars?_codes (cs : List Char) : chars? (codes cs) = some cs := by
  unfold chars? codes
  induction cs with
  | nil => rfl
  | cons c cs ih => simp [List.mapM_cons, CodePoint.char?, ih]

/-- A text without halves is that of its characters. -/
theorem codes_of_chars? {text : CodeText} {cs : List Char} (whole : chars? text = some cs) :
    codes cs = text := by
  induction text generalizing cs with
  | nil =>
    obtain rfl := Option.some.inj whole
    rfl
  | cons p text ih =>
    simp only [chars?, List.mapM_cons] at whole
    obtain ⟨c, isChar, rest⟩ := Option.bind_eq_some_iff.mp whole
    obtain ⟨cs', isRest, made⟩ := Option.bind_eq_some_iff.mp rest
    obtain rfl := Option.some.inj made
    cases p with
    | half number => cases isChar
    | char c' =>
      obtain rfl := Option.some.inj isChar
      exact congrArg (CodePoint.char c' :: ·) (ih isRest)

/-- Whether a text comes before another one: the first difference decides, and a text before its
continuations. -/
def textBefore : CodeText → CodeText → Bool
  | _, [] => false
  | [], _ :: _ => true
  | p :: ps, q :: qs => if p = q then textBefore ps qs else p.code < q.code

end Chip8.Text
