import Chip8.Proofs.ScheduleReading

/-! # Writing a schedule

The same events can be written in many ways: keys and levels in either case of letters, more or
fewer blanks and tabs, three kinds of line ends, blank lines and remarks in between. All these texts
are read as the events that were written.
-/

namespace Chip8.Schedule

open Text Number

/-- A blank or a tab, as they part the fields of a line. -/
def isGap (c : Char) : Bool := c = ' ' || c = '\t'

/-- The fields of an event: the decimal frame, the hexadecimal key in either case of letters and the
level in any, with gaps between them. -/
inductive Spells (e : KeyEvent) : List Char → Prop
  | intro {gap key gap' level : List Char} :
      gap ≠ [] → (∀ c ∈ gap, isGap c = true) →
      (key = (hex e.key).toList ∨ key = (hex e.key).toList.map Char.toLower) →
      gap' ≠ [] → (∀ c ∈ gap', isGap c = true) →
      level.map Char.toLower = (levelName e.pressed).toList →
      Spells e ((decimal e.frame).toList ++ (gap ++ (key ++ (gap' ++ level))))

/-- A line about no event, or about one. -/
inductive LineOf : List KeyEvent → List Char → Prop
  /-- White space only. -/
  | blank {line : List Char} :
      (∀ c ∈ line, isBlank c = true ∧ isLineEnd c = false) → LineOf [] line
  /-- A number sign and any remark, after white space. -/
  | remark {before rest : List Char} :
      (∀ c ∈ before, isBlank c = true ∧ isLineEnd c = false) →
      (∀ c ∈ rest, isLineEnd c = false) → LineOf [] (before ++ ('#' :: rest))
  | event {e : KeyEvent} {before fields after : List Char} :
      (∀ c ∈ before, isGap c = true) → Spells e fields → (∀ c ∈ after, isGap c = true) →
      LineOf [e] (before ++ (fields ++ after))

inductive IsEnding : List Char → Prop
  | lineFeed : IsEnding ['\n']
  | carriageReturn : IsEnding ['\r']
  | both : IsEnding ['\r', '\n']

/-- A text that says line by line what some events are. The last line need not be ended. -/
inductive FileOf : List KeyEvent → List Char → Prop
  | nil : FileOf [] []
  | last {events : List KeyEvent} {line : List Char} : LineOf events line → FileOf events line
  | line {events more : List KeyEvent} {line ending rest : List Char} :
      LineOf events line → IsEnding ending → FileOf more rest →
      FileOf (events ++ more) (line ++ (ending ++ rest))

/-- An event that can be written: its frame has no more digits than a numeral may have, and there
is such a key. -/
structure IsWritable (e : KeyEvent) : Prop where
  natural : 0 ≤ e.frame
  small : e.frame < 10 ^ maxDecimalDigits
  low : 0 ≤ e.key
  high : e.key ≤ 15

section Characters

variable {base : Nat} {c : Char} {cs : List Char} {ds : List Nat}

/-- The characters of the basic set that are seen. -/
def IsVisible (c : Char) : Prop := 0x21 ≤ c.toNat ∧ c.toNat ≤ 0x7E

theorem IsVisible.not_blank (visible : IsVisible c) : isBlank c = false := by
  obtain ⟨low, high⟩ := visible
  simp [isBlank, isPlainBlank, isWideBlank]
  omega

theorem not_isLineEnd_of_isGap (gap : isGap c = true) : isLineEnd c = false := by
  have either : c = ' ' ∨ c = '\t' := by simpa [isGap] using gap
  rcases either with rfl | rfl <;> decide

theorem isBlank_of_isGap (gap : isGap c = true) : isBlank c = true := by
  have either : c = ' ' ∨ c = '\t' := by simpa [isGap] using gap
  rcases either with rfl | rfl <;> decide

theorem isBlank_of_isLineEnd (ends : isLineEnd c = true) : isBlank c = true := by
  have either : c = '\n' ∨ c = '\r' := by simpa [isLineEnd] using ends
  rcases either with rfl | rfl <;> decide

theorem IsVisible.not_lineEnd (visible : IsVisible c) : isLineEnd c = false := by
  rw [← Bool.not_eq_true]
  intro ends
  have blank := isBlank_of_isLineEnd ends
  rw [visible.not_blank] at blank
  cases blank

theorem isVisible_of_grouped (grouped : Grouped base cs ds) : ∀ c ∈ cs, IsVisible c := by
  intro c member
  by_cases line : c = '_'
  · subst line
    unfold IsVisible
    decide
  · obtain ⟨d, digit⟩ := digit_of_part grouped.isPart member line
    have range := digitIn_range digit
    unfold IsVisible
    omega

theorem isVisible_of_level {pressed : Bool}
    (level : cs.map Char.toLower = (levelName pressed).toList) : ∀ c ∈ cs, IsVisible c := by
  have letters : ∀ d ∈ (levelName pressed).toList, 0x41 ≤ d.toNat - 32 ∧ d.toNat ≤ 0x7E := by
    cases pressed <;> simp [levelName]
  intro c member
  have range := letters c.toLower (level ▸ List.mem_map_of_mem member)
  rcases toNat_of_toLower (x := c) rfl with same | shifted
  · unfold IsVisible
    omega
  · unfold IsVisible
    omega

end Characters

section Fields

variable {e : KeyEvent} {fields key level : List Char}

/-- A decimal frame consists of digits. -/
theorem exists_grouped_decimal {frame : Int} (natural : 0 ≤ frame) :
    ∃ ds, Grouped 10 (decimal frame).toList ds := by
  obtain ⟨n, rfl⟩ := Int.eq_ofNat_of_zero_le natural
  obtain ⟨ds, grouped, -⟩ := exists_grouped_digits n
  exact ⟨ds, toList_decimal n ▸ grouped⟩

/-- A key in either case of letters is one digit and writes the key. -/
theorem key_of_spelled {z : Int} (low : 0 ≤ z) (high : z ≤ 15)
    (spelled : key = (hex z).toList ∨ key = (hex z).toList.map Char.toLower) :
    Writes 16 key z ∧ ∃ ds, Grouped 16 key ds := by
  obtain ⟨n, rfl⟩ := Int.eq_ofNat_of_zero_le low
  have digit : (hex n).toList = [hexDigit ⟨n, by omega⟩] := toList_hex ⟨n, by omega⟩
  rw [digit] at spelled
  have writes := writes_hexDigit ⟨n, by omega⟩
  have digits := digitIn_hexDigit ⟨n, by omega⟩
  rcases spelled with rfl | rfl
  · exact ⟨writes.1, _, .last digits.1⟩
  · exact ⟨writes.2, _, .last digits.2⟩

theorem solid_of_visible {cs : List Char} (visible : ∀ c ∈ cs, IsVisible c) :
    ∀ c ∈ cs, isBlank c = false :=
  fun c member => (visible c member).not_blank

theorem level_ne_nil {pressed : Bool}
    (spelled : level.map Char.toLower = (levelName pressed).toList) : level ≠ [] := by
  rintro rfl
  cases pressed <;> simp [levelName] at spelled

/-- The fields of an event describe it. -/
theorem Spells.describes (spells : Spells e fields) (writable : IsWritable e) :
    Describes fields e := by
  obtain ⟨natural, small, low, high⟩ := writable
  cases spells with
  | @intro gap key gap' level wide blank keySpelled wide' blank' levelSpelled =>
  obtain ⟨ds, frame⟩ := exists_grouped_decimal natural
  obtain ⟨writes, ds', digits⟩ := key_of_spelled low high keySpelled
  have parts : words ((decimal e.frame).toList ++ (gap ++ (key ++ (gap' ++ level)))) =
      [(decimal e.frame).toList, key, level] := by
    rw [words_cons frame.ne_nil (solid_of_visible (isVisible_of_grouped frame)) wide
        (fun c member => isBlank_of_isGap (blank c member)),
      words_cons digits.ne_nil (solid_of_visible (isVisible_of_grouped digits)) wide'
        (fun c member => isBlank_of_isGap (blank' c member)),
      words_of_solid (level_ne_nil levelSpelled)
        (solid_of_visible (isVisible_of_level levelSpelled))]
  exact .intro parts (names_iff.mpr levelSpelled) (writes_decimal natural small) writes natural low
    high

/-- The fields of an event begin with a digit. -/
theorem Spells.head (spells : Spells e fields) (writable : IsWritable e) :
    ∃ c rest, fields = c :: rest ∧ IsVisible c ∧ c ≠ '#' := by
  rcases spells with ⟨-, -, -, -, -, -⟩
  obtain ⟨ds, frame⟩ := exists_grouped_decimal writable.natural
  have visible := isVisible_of_grouped frame
  obtain ⟨c, d, rest, begins, digit⟩ := frame.exists_digit
  rw [begins] at visible ⊢
  refine ⟨c, _, rfl, visible c List.mem_cons_self, ?_⟩
  rintro rfl
  cases digit

/-- They end with a letter. -/
theorem Spells.last (spells : Spells e fields) : ∀ c ∈ fields.getLast?, IsVisible c := by
  cases spells with
  | @intro gap key gap' level _ _ _ _ _ spelled =>
  have visible := isVisible_of_level spelled
  obtain ⟨front, d, rfl⟩ := (List.eq_nil_or_concat' level).resolve_left (level_ne_nil spelled)
  have ends : (decimal e.frame).toList ++ (gap ++ (key ++ (gap' ++ (front ++ [d])))) =
      ((decimal e.frame).toList ++ (gap ++ (key ++ (gap' ++ front)))) ++ [d] := by
    simp
  intro c last
  rw [ends, List.getLast?_concat] at last
  obtain rfl := Option.some.inj last
  exact visible d (by simp)

theorem Spells.whole (spells : Spells e fields) (writable : IsWritable e) :
    ∀ c ∈ fields, isLineEnd c = false := by
  rcases spells with ⟨-, blank, spelled, -, blank', level⟩
  obtain ⟨ds, frame⟩ := exists_grouped_decimal writable.natural
  obtain ⟨-, ds', digits⟩ := key_of_spelled writable.low writable.high spelled
  simp only [List.mem_append]
  rintro c (member | member | member | member | member)
  · exact (isVisible_of_grouped frame c member).not_lineEnd
  · exact not_isLineEnd_of_isGap (blank c member)
  · exact (isVisible_of_grouped digits c member).not_lineEnd
  · exact not_isLineEnd_of_isGap (blank' c member)
  · exact (isVisible_of_level level c member).not_lineEnd

end Fields

section Lines

variable {tree : FileTree} {path : String} {events : List KeyEvent} {line ending text : List Char}

theorem LineOf.whole (lineOf : LineOf events line) (writable : ∀ e ∈ events, IsWritable e) :
    ∀ c ∈ line, isLineEnd c = false := by
  cases lineOf with
  | blank blank => exact fun c member => (blank c member).2
  | remark blank rest =>
    simp only [List.mem_append, List.mem_cons]
    rintro c (member | rfl | member)
    · exact (blank c member).2
    · decide
    · exact rest c member
  | event before spells after =>
    simp only [List.mem_append]
    rintro c (member | member | member)
    · exact not_isLineEnd_of_isGap (before c member)
    · exact spells.whole (writable _ (by simp)) c member
    · exact not_isLineEnd_of_isGap (after c member)

/-- The entries of a line describe the events that the line says. -/
theorem LineOf.describes (lineOf : LineOf events line) (writable : ∀ e ∈ events, IsWritable e) :
    List.Forall₂ Describes (entries line) events := by
  rw [entries_line (lineOf.whole writable)]
  cases lineOf with
  | blank blank =>
    have empty : strip line = [] := strip_blanks fun c member => (blank c member).1
    rw [entriesIn_skipped (by rw [empty]; rfl)]
    exact .nil
  | @remark before rest blank _ =>
    have sign : (strip (before ++ '#' :: rest)).head? = some '#' :=
      head?_strip (fun c member => (blank c member).1) (by decide) rest
    rw [entriesIn_skipped (by simp [isSkipped, sign])]
    exact .nil
  | @event e before fields after blank spells blank' =>
    have isWritable : IsWritable e := writable e (by simp)
    obtain ⟨c, rest, begins, visible, noSign⟩ := spells.head isWritable
    have stripped : strip (before ++ (fields ++ after)) = fields := by
      apply strip_surrounded
      · exact fun c member => isBlank_of_isGap (blank c member)
      · exact fun c member => isBlank_of_isGap (blank' c member)
      · rw [begins]
        exact List.cons_ne_nil c rest
      · rw [begins]
        simpa using visible.not_blank
      · exact fun c last => (spells.last c last).not_blank
    have kept : isSkipped fields = false := by simp [isSkipped, begins, noSign]
    rw [entriesIn_unskipped (by rw [stripped, kept]), stripped]
    exact .cons (spells.describes isWritable) .nil

theorem entries_ended (ends : IsEnding ending) (line rest : List Char) :
    entries (line ++ (ending ++ rest)) = entries line ++ entries rest := by
  cases ends with
  | lineFeed => exact entries_append rfl line rest
  | carriageReturn => exact entries_append rfl line rest
  | both =>
    have feed : entries ('\n' :: rest) = entries [] ++ entries rest := entries_append rfl [] rest
    rw [entries_nil, List.nil_append] at feed
    rw [← feed]
    exact entries_append rfl line ('\n' :: rest)

theorem FileOf.describes (fileOf : FileOf events text) (writable : ∀ e ∈ events, IsWritable e) :
    List.Forall₂ Describes (entries text) events := by
  induction fileOf with
  | nil =>
    rw [entries_nil]
    exact .nil
  | last lineOf => exact lineOf.describes writable
  | line lineOf ends _ ih =>
    obtain ⟨here, later⟩ := List.forall_mem_append.mp writable
    rw [entries_ended ends]
    exact List.rel_append (lineOf.describes here) (ih later)

/-- Whatever way events are written, they are read as they are: every frame below the longest
numeral, every key, any letter case, any gaps, any line ends, any blank lines and remarks. -/
theorem ofFile_of_fileOf (fileOf : FileOf events text) (writable : ∀ e ∈ events, IsWritable e)
    (holds : tree.Holds path text) : ofFile tree path = .ok events := by
  rw [ofFile_of_holds holds, mapM_judge_eq_ok]
  exact fileOf.describes writable

/-- Two events with a remark and a blank line between them, and three kinds of line ends. -/
theorem ofFile_of_fileOf_spellings :
    let text := " 3\tf  DOWN\r# keys\r\n\n10 A uP".toList
    let tree : FileTree := [("keys.txt", .file (encoded text))]
    let events : List KeyEvent := [⟨3, 15, true⟩, ⟨10, 10, false⟩]
    FileOf events text ∧ (∀ e ∈ events, IsWritable e) ∧ tree.Holds "keys.txt" text ∧
      ofFile tree "keys.txt" = .ok events := by
  intro text tree events
  have tab : ∀ c ∈ ['\t'], isGap c = true := by simp [isGap]
  have one : ∀ c ∈ [' '], isGap c = true := by simp [isGap]
  have two : ∀ c ∈ [' ', ' '], isGap c = true := by simp [isGap]
  have none : ∀ c ∈ ([] : List Char), isGap c = true := by simp
  have first : LineOf [⟨3, 15, true⟩] " 3\tf  DOWN".toList :=
    @LineOf.event _ [' '] _ [] one
      (@Spells.intro _ ['\t'] ['f'] [' ', ' '] "DOWN".toList (by decide) tab
        (.inr (by decide)) (by decide) two (by decide)) none
  have second : LineOf [⟨10, 10, false⟩] "10 A uP".toList :=
    @LineOf.event _ [] _ [] none
      (@Spells.intro _ [' '] ['A'] [' '] "uP".toList (by decide) one
        (.inl (by decide)) (by decide) one (by decide)) none
  have remark : LineOf [] "# keys".toList :=
    @LineOf.remark [] " keys".toList (by simp) (by simp [isLineEnd])
  have blank : LineOf [] [] := .blank (by simp)
  have fileOf : FileOf events text :=
    .line first .carriageReturn (.line remark .both (.line blank .lineFeed (.last second)))
  have writable : ∀ e ∈ events, IsWritable e := by
    have large : 10 ^ 2 ≤ 10 ^ maxDecimalDigits := Nat.pow_le_pow_right (by decide) (by decide)
    have small {z : Int} (short : z < 10 ^ 2) : z < 10 ^ maxDecimalDigits :=
      Int.lt_of_lt_of_le short (by exact_mod_cast large)
    exact List.forall_mem_cons.mpr ⟨⟨by decide, small (by decide), by decide, by decide⟩,
      List.forall_mem_singleton.mpr ⟨by decide, small (by decide), by decide, by decide⟩⟩
  have holds : tree.Holds "keys.txt" text := by
    unfold FileTree.Holds
    decide +kernel
  exact ⟨fileOf, writable, holds, ofFile_of_fileOf fileOf writable holds⟩

end Lines

end Chip8.Schedule
