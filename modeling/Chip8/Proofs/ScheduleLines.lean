import Chip8.Schedule.File
import Mathlib.Data.List.TakeWhile

/-! # Lines of a schedule

What a schedule says, it says in its entries: the lines that are neither blank nor begin with a
number sign, without the white space at their ends. Where a line is empty it makes no difference, so
a text can be cut at every character that ends a line, and a line end of two characters needs no
care.
-/

namespace Chip8

namespace Text

section Words

variable {c : Char} {blanks word before core after : List Char}

/-- Words end at white space. -/
theorem words_append_blank (blank : isBlank c = true) (cs ds : List Char) :
    words (cs ++ c :: ds) = words cs ++ words ds := by
  rw [words, List.splitOnP_append_cons cs ds blank, List.filter_append]
  rfl

theorem words_nil : words [] = [] := by simp [words]

theorem words_blanks_append (blank : ∀ c ∈ blanks, isBlank c = true) (cs : List Char) :
    words (blanks ++ cs) = words cs := by
  induction blanks with
  | nil => rfl
  | cons c blanks ih =>
    obtain ⟨first, rest⟩ := List.forall_mem_cons.mp blank
    have cut := words_append_blank first [] (blanks ++ cs)
    rw [words_nil, List.nil_append, List.nil_append] at cut
    rw [List.cons_append, cut, ih rest]

/-- A text without white space is one word. -/
theorem words_of_solid (nonempty : word ≠ []) (solid : ∀ c ∈ word, isBlank c = false) :
    words word = [word] := by
  rw [words, List.splitOnP_eq_singleton solid]
  simp [nonempty]

/-- A word and a gap before further words. -/
theorem words_cons {gap : List Char} (nonempty : word ≠ [])
    (solid : ∀ c ∈ word, isBlank c = false) (wide : gap ≠ [])
    (blank : ∀ c ∈ gap, isBlank c = true) (cs : List Char) :
    words (word ++ (gap ++ cs)) = word :: words cs := by
  cases gap with
  | nil => exact absurd rfl wide
  | cons c gap =>
    obtain ⟨first, rest⟩ := List.forall_mem_cons.mp blank
    rw [List.cons_append, words_append_blank first, words_of_solid nonempty solid,
      words_blanks_append rest]
    rfl

/-- White space before a text that does not begin with any is dropped. -/
theorem dropWhile_blanks (blank : ∀ c ∈ before, isBlank c = true)
    (firm : ∀ c ∈ core.head?, isBlank c = false) : (before ++ core).dropWhile isBlank = core := by
  rw [List.dropWhile_append_of_pos blank]
  cases core with
  | nil => rfl
  | cons c core => simp [firm c rfl]

/-- White space around a text that neither begins nor ends with any is stripped off. -/
theorem strip_surrounded (blankBefore : ∀ c ∈ before, isBlank c = true)
    (blankAfter : ∀ c ∈ after, isBlank c = true) (nonempty : core ≠ [])
    (firm : ∀ c ∈ core.head?, isBlank c = false) (firm' : ∀ c ∈ core.getLast?, isBlank c = false) :
    strip (before ++ (core ++ after)) = core := by
  have front : (before ++ (core ++ after)).dropWhile isBlank = core ++ after := by
    apply dropWhile_blanks blankBefore
    obtain ⟨c, rest, rfl⟩ := List.exists_cons_of_ne_nil nonempty
    exact firm
  have back : (core ++ after).reverse.dropWhile isBlank = core.reverse := by
    rw [List.reverse_append]
    exact dropWhile_blanks (by simpa using blankAfter) (by simpa using firm')
  rw [strip, trimWith, front, back, List.reverse_reverse]

/-- A text behind white space begins with its first character that is none. -/
theorem head?_strip (blank : ∀ c ∈ before, isBlank c = true) (firm : isBlank c = false)
    (rest : List Char) : (strip (before ++ c :: rest)).head? = some c := by
  have front : (before ++ c :: rest).dropWhile isBlank = c :: rest :=
    dropWhile_blanks blank (by simpa using firm)
  rw [strip, trimWith, front, List.reverse_cons, List.dropWhile_append]
  split <;> simp [firm]

theorem strip_blanks (blank : ∀ c ∈ blanks, isBlank c = true) : strip blanks = [] := by
  have front : blanks.dropWhile isBlank = [] := List.dropWhile_eq_nil_iff.mpr blank
  rw [strip, trimWith, front]
  rfl

end Words

end Text

namespace Schedule

open Text

def isLineEnd (c : Char) : Bool := c = '\n' || c = '\r'

/-- The lines that are not skipped, without white space at their ends. -/
def entriesIn (lines : List (List Char)) : List (List Char) :=
  (lines.map strip).filter fun line => !isSkipped line

def entries (text : List Char) : List (List Char) := entriesIn (text.splitOnP isLineEnd)

section Entries

variable {c : Char} {start line : List Char}

theorem entriesIn_append (xs ys : List (List Char)) :
    entriesIn (xs ++ ys) = entriesIn xs ++ entriesIn ys := by
  simp [entriesIn]

/-- A skipped line is no entry. -/
theorem entriesIn_skipped (skipped : isSkipped (strip line) = true) : entriesIn [line] = [] := by
  simp [entriesIn, skipped]

theorem entriesIn_unskipped (kept : isSkipped (strip line) = false) :
    entriesIn [line] = [strip line] := by
  simp [entriesIn, kept]

theorem entriesIn_empty : entriesIn [[]] = [] := entriesIn_skipped rfl

/-- Empty lines at the end do not count. -/
theorem entriesIn_lines (text : List Char) :
    entriesIn (lines text) = entriesIn (text.splitOnP (· = '\n')) := by
  simp only [lines]
  split
  · next blank =>
    obtain ⟨parts, whole⟩ := List.getLast?_eq_some_iff.mp blank
    rw [whole, entriesIn_append, entriesIn_empty]
    simp
  · rfl

theorem entries_nil : entries [] = [] := by simp [entries, entriesIn_empty]

/-- A character that ends a line parts the entries. -/
theorem entries_append (ends : isLineEnd c = true) (a b : List Char) :
    entries (a ++ c :: b) = entries a ++ entries b := by
  rw [entries, List.splitOnP_append_cons a b ends, entriesIn_append]
  rfl

/-- A text without line ends is one line. -/
theorem entries_line (whole : ∀ c ∈ line, isLineEnd c = false) :
    entries line = entriesIn [line] := by
  rw [entries, List.splitOnP_eq_singleton whole]

theorem splitOnP_feed_of_whole (whole : ∀ c ∈ start, isLineEnd c = false) :
    start.splitOnP (· = '\n') = [start] :=
  List.splitOnP_eq_singleton fun c member => by
    have other := whole c member
    simp only [isLineEnd, Bool.or_eq_false_iff] at other
    exact other.1

/-- A line feed ends the line that was begun. -/
theorem entriesIn_feed (whole : ∀ c ∈ start, isLineEnd c = false) (rest : List Char) :
    entriesIn ((start ++ '\n' :: rest).splitOnP (· = '\n')) =
      entries start ++ entriesIn (rest.splitOnP (· = '\n')) := by
  rw [List.splitOnP_append_cons start rest (by simp), entriesIn_append,
    splitOnP_feed_of_whole whole, entries_line whole]

/-- Line ends of every kind end lines; `start` is what was read of a line so far. -/
theorem entriesIn_unifyLineEnds (text : List Char) (whole : ∀ c ∈ start, isLineEnd c = false) :
    entriesIn ((start ++ unifyLineEnds text).splitOnP (· = '\n')) = entries (start ++ text) := by
  fun_induction unifyLineEnds text generalizing start with
  | case1 rest ih =>
    -- Between the return and the feed there is an empty line more.
    have feed : entries ('\n' :: rest) = entries rest := by
      rw [← List.nil_append ('\n' :: rest), entries_append rfl, entries_nil, List.nil_append]
    rw [entriesIn_feed whole, entries_append rfl, feed]
    exact congrArg (entries start ++ ·) (@ih [] (by simp))
  | case2 rest _ ih =>
    rw [entriesIn_feed whole, entries_append rfl]
    exact congrArg (entries start ++ ·) (@ih [] (by simp))
  | case3 c rest _ noReturn ih =>
    by_cases feed : c = '\n'
    · rw [feed, entriesIn_feed whole, entries_append rfl]
      exact congrArg (entries start ++ ·) (@ih [] (by simp))
    · have inner : isLineEnd c = false := by
        simp only [isLineEnd, feed, decide_false, Bool.false_or, decide_eq_false_iff_not]
        exact noReturn
      have longer : ∀ d ∈ start ++ [c], isLineEnd d = false :=
        List.forall_mem_append.mpr ⟨whole, by simpa using inner⟩
      simpa using ih longer
  | case4 => rw [List.append_nil, splitOnP_feed_of_whole whole, entries_line whole]

/-- The entries of a text are those of its lines. -/
theorem entriesIn_lines_unifyLineEnds (text : List Char) :
    entriesIn (lines (unifyLineEnds text)) = entries text := by
  rw [entriesIn_lines]
  exact @entriesIn_unifyLineEnds [] text (by simp)

end Entries

end Schedule

end Chip8
