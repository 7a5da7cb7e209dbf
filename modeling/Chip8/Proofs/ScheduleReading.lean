import Chip8.Proofs.FrameSplit
import Chip8.Proofs.IntegerSpellings
import Chip8.Proofs.LetterCases
import Chip8.Proofs.ScheduleLines
import Chip8.Proofs.TextFiles
import Mathlib.Data.List.Forall2

/-! # Reading a schedule

A schedule is accepted if each of its entries describes an event, and it consists of these events in
their order. Otherwise it is refused for the first entry that describes none, and for the first test
that this entry fails. So a schedule can be cut between two lines and its parts be read separately.
-/

namespace Chip8.Schedule

open Text Number

/-- A word names a level of a key, in any case of letters. -/
def Names (word : List Char) (pressed : Bool) : Prop :=
  lowerCase (codes word) = codes (levelName pressed).toList

/-- A line describes an event by three words: the frame, the key and the level. -/
inductive Describes (line : List Char) : KeyEvent → Prop
  | intro {frame key level : List Char} {e : KeyEvent} :
      words line = [frame, key, level] → Names level e.pressed → Writes 10 frame e.frame →
      Writes 16 key e.key → 0 ≤ e.frame → 0 ≤ e.key → e.key ≤ 15 → Describes line e

/-- The first test that a line fails. Only a line that passes it is put to the next one. -/
inductive Flawed (line : List Char) : LineFlaw → Prop
  | words : (words line).length ≠ 3 → Flawed line .shape
  | level {frame key level : List Char} :
      Text.words line = [frame, key, level] → (∀ pressed, ¬ Names level pressed) →
      Flawed line .shape
  | frame {frame key level : List Char} {pressed : Bool} :
      Text.words line = [frame, key, level] → Names level pressed → (∀ z, ¬ Writes 10 frame z) →
      Flawed line .number
  | key {frame key level : List Char} {pressed : Bool} :
      Text.words line = [frame, key, level] → Names level pressed → (∀ z, ¬ Writes 16 key z) →
      Flawed line .number
  | range {frame key level : List Char} {pressed : Bool} {y z : Int} :
      Text.words line = [frame, key, level] → Names level pressed → Writes 10 frame y →
      Writes 16 key z → ¬ (0 ≤ y ∧ 0 ≤ z ∧ z ≤ 15) → Flawed line .range

section Line

variable {line word text : List Char} {pressed : Bool} {base : Nat} {e : KeyEvent} {flaw : LineFlaw}

theorem names_iff : Names word pressed ↔ word.map Char.toLower = (levelName pressed).toList := by
  apply lowerCase_eq_codes_iff
  cases pressed <;> simp [levelName, IsOwn]

theorem levelOf?_eq_some : levelOf? word = some pressed ↔ Names word pressed := by
  rw [names_iff]
  simp only [levelOf?]
  by_cases down : word.map Char.toLower = "down".toList
  · rw [down]
    revert pressed
    decide
  · rw [if_neg down]
    cases pressed with
    | true => simpa [levelName] using down
    | false => simp [levelName]

theorem levelOf?_eq_none : levelOf? word = none ↔ ∀ pressed, ¬ Names word pressed := by
  simp [← levelOf?_eq_some, Option.eq_none_iff_forall_ne_some]

/-- A text that writes no integer is not read as one. -/
theorem exists_problem (unwritten : ∀ z, ¬ Writes base text z) :
    ∃ problem, readInteger base text = .error problem := by
  cases read : readInteger base text with
  | error problem => exact ⟨problem, rfl⟩
  | ok z => exact absurd (writes_of_readInteger read) (unwritten z)

theorem unwritten_of_problem {problem : IntegerProblem}
    (failed : readInteger base text = .error problem) (z : Int) : ¬ Writes base text z := by
  intro writes
  rw [readInteger_of_writes writes] at failed
  cases failed

theorem readLine_of_describes (describes : Describes line e) : readLine line = .ok e := by
  rcases describes with ⟨parts, named, frame, key, natural, low, high⟩
  simp only [readLine, parts, levelOf?_eq_some.mpr named, readInteger_of_writes frame,
    readInteger_of_writes key]
  rw [if_neg (by omega)]

theorem readLine_of_flawed (flawed : Flawed line flaw) : readLine line = .error flaw := by
  cases flawed with
  | words other =>
    unfold readLine
    split
    · next parts => simp [parts] at other
    · rfl
  | level parts unnamed => simp only [readLine, parts, levelOf?_eq_none.mpr unnamed]
  | frame parts named unwritten =>
    obtain ⟨problem, failed⟩ := exists_problem unwritten
    simp only [readLine, parts, levelOf?_eq_some.mpr named, failed]
  | @key frame _ _ _ parts named unwritten =>
    obtain ⟨problem, failed⟩ := exists_problem unwritten
    simp only [readLine, parts, levelOf?_eq_some.mpr named, failed]
    cases readInteger 10 frame <;> rfl
  | range parts named frame key outside =>
    simp only [readLine, parts, levelOf?_eq_some.mpr named, readInteger_of_writes frame,
      readInteger_of_writes key]
    rw [if_pos (by omega)]

theorem Describes.unique {e' : KeyEvent} (describes : Describes line e)
    (describes' : Describes line e') : e = e' := by
  have read := readLine_of_describes describes
  rw [readLine_of_describes describes'] at read
  exact (Except.ok.inj read).symm

theorem Flawed.unique {flaw' : LineFlaw} (flawed : Flawed line flaw) (flawed' : Flawed line flaw') :
    flaw = flaw' := by
  have read := readLine_of_flawed flawed
  rw [readLine_of_flawed flawed'] at read
  exact (Except.error.inj read).symm

theorem Describes.not_flawed (describes : Describes line e) : ¬ Flawed line flaw := by
  intro flawed
  have read := readLine_of_describes describes
  rw [readLine_of_flawed flawed] at read
  cases read

/-- A line describes an event or has a flaw. -/
theorem describes_or_flawed (line : List Char) :
    (∃ e, Describes line e) ∨ ∃ flaw, Flawed line flaw := by
  by_cases count : (words line).length = 3
  · obtain ⟨frame, key, level, parts⟩ := List.length_eq_three.mp count
    cases named : levelOf? level with
    | none => exact .inr ⟨_, .level parts (levelOf?_eq_none.mp named)⟩
    | some pressed =>
      rw [levelOf?_eq_some] at named
      cases readFrame : readInteger 10 frame with
      | error problem => exact .inr ⟨_, .frame parts named (unwritten_of_problem readFrame)⟩
      | ok y =>
        cases readKey : readInteger 16 key with
        | error problem => exact .inr ⟨_, .key parts named (unwritten_of_problem readKey)⟩
        | ok z =>
          rw [readInteger_eq_ok] at readFrame readKey
          by_cases inRange : 0 ≤ y ∧ 0 ≤ z ∧ z ≤ 15
          · exact .inl ⟨⟨y, z, pressed⟩, .intro parts named readFrame readKey inRange.1 inRange.2.1
              inRange.2.2⟩
          · exact .inr ⟨_, .range parts named readFrame readKey inRange⟩
  · exact .inr ⟨_, .words count⟩

end Line

section Entries

def judge (line : List Char) : Except ScheduleProblem KeyEvent :=
  (readLine line).mapError fun flaw => .badLine flaw (String.ofList line)

/-- A line is the first among some that describes no event, with the first test that it fails. -/
def IsFirstFlaw (lines : List (List Char)) (line : List Char) (flaw : LineFlaw) : Prop :=
  ∃ before after, lines = before ++ line :: after ∧ (∀ earlier ∈ before, ∃ e, Describes earlier e) ∧
    Flawed line flaw

variable {line : List Char} {e : KeyEvent} {flaw : LineFlaw} {problem : ScheduleProblem}
  {events : List KeyEvent}

theorem judge_of_describes (describes : Describes line e) : judge line = .ok e := by
  rw [judge, readLine_of_describes describes]
  rfl

theorem judge_of_flawed (flawed : Flawed line flaw) :
    judge line = .error (.badLine flaw (String.ofList line)) := by
  rw [judge, readLine_of_flawed flawed]
  rfl

/-- Only the entries among some lines are judged. -/
theorem readLines_eq (lines : List (List Char)) :
    readLines lines = (entriesIn lines).mapM judge := by
  induction lines with
  | nil => rfl
  | cons line rest ih =>
    rw [← List.singleton_append, entriesIn_append]
    simp only [List.singleton_append, readLines]
    split
    · next skipped => rw [entriesIn_skipped skipped, List.nil_append, ih]
    · next kept =>
      rw [entriesIn_unskipped (by simpa using kept), List.singleton_append, List.mapM_cons, judge,
        ih]
      cases readLine (strip line) with
      | error flaw => rfl
      | ok e => cases (entriesIn rest).mapM judge <;> rfl

theorem mapM_judge_of_describes (describes : Describes line e) (rest : List (List Char)) :
    (line :: rest).mapM judge = (rest.mapM judge).map (e :: ·) := by
  rw [List.mapM_cons, judge_of_describes describes]
  cases rest.mapM judge <;> rfl

theorem mapM_judge_of_flawed (flawed : Flawed line flaw) (rest : List (List Char)) :
    (line :: rest).mapM judge = .error (.badLine flaw (String.ofList line)) := by
  rw [List.mapM_cons, judge_of_flawed flawed]
  rfl

/-- The events of some entries are those that they describe. -/
theorem mapM_judge_eq_ok (lines : List (List Char)) :
    lines.mapM judge = .ok events ↔ List.Forall₂ Describes lines events := by
  induction lines generalizing events with
  | nil => simp [pure, Except.pure, eq_comm]
  | cons line rest ih =>
    rw [List.forall₂_cons_left_iff]
    rcases describes_or_flawed line with ⟨e, describes⟩ | ⟨flaw, flawed⟩
    · rw [mapM_judge_of_describes describes]
      constructor
      · intro read
        cases others : rest.mapM judge with
        | error problem =>
          rw [others] at read
          cases read
        | ok later =>
          rw [others] at read
          exact ⟨e, later, describes, ih.mp others, (Except.ok.inj read).symm⟩
      · rintro ⟨e', later, describes', others, rfl⟩
        rw [describes.unique describes', ih.mpr others]
        rfl
    · rw [mapM_judge_of_flawed flawed]
      constructor
      · intro read
        cases read
      · rintro ⟨e, _, describes, -⟩
        exact absurd flawed describes.not_flawed

theorem isFirstFlaw_of_describes (describes : Describes line e) (rest : List (List Char))
    (bad : List Char) : IsFirstFlaw (line :: rest) bad flaw ↔ IsFirstFlaw rest bad flaw := by
  constructor
  · rintro ⟨before, after, parted, earlier, flawed⟩
    cases before with
    | nil =>
      obtain ⟨rfl, -⟩ := List.cons.inj parted
      exact absurd flawed describes.not_flawed
    | cons first before =>
      exact ⟨before, after, (List.cons.inj parted).2, (List.forall_mem_cons.mp earlier).2, flawed⟩
  · rintro ⟨before, after, rfl, earlier, flawed⟩
    exact ⟨line :: before, after, rfl, List.forall_mem_cons.mpr ⟨⟨e, describes⟩, earlier⟩, flawed⟩

theorem isFirstFlaw_of_flawed (flawed : Flawed line flaw) (rest : List (List Char))
    (bad : List Char) {flaw' : LineFlaw} :
    IsFirstFlaw (line :: rest) bad flaw' ↔ bad = line ∧ flaw' = flaw := by
  constructor
  · rintro ⟨before, after, parted, earlier, flawed'⟩
    cases before with
    | nil =>
      obtain ⟨rfl, -⟩ := List.cons.inj parted
      exact ⟨rfl, flawed'.unique flawed⟩
    | cons first before =>
      obtain ⟨rfl, -⟩ := List.cons.inj parted
      obtain ⟨e, describes⟩ := (List.forall_mem_cons.mp earlier).1
      exact absurd flawed describes.not_flawed
  · rintro ⟨rfl, rfl⟩
    exact ⟨[], rest, rfl, by simp, flawed⟩

/-- Some entries are refused for the first that describes no event. -/
theorem mapM_judge_eq_error (lines : List (List Char)) :
    lines.mapM judge = .error problem ↔
      ∃ line flaw, IsFirstFlaw lines line flaw ∧ problem = .badLine flaw (String.ofList line) := by
  induction lines with
  | nil => simp [IsFirstFlaw, pure, Except.pure]
  | cons line rest ih =>
    rcases describes_or_flawed line with ⟨e, describes⟩ | ⟨flaw, flawed⟩
    · simp only [mapM_judge_of_describes describes, isFirstFlaw_of_describes describes, ← ih]
      cases rest.mapM judge <;> simp [Except.map]
    · simp only [mapM_judge_of_flawed flawed, isFirstFlaw_of_flawed flawed, Except.error.injEq]
      constructor
      · rintro rfl
        exact ⟨line, flaw, ⟨rfl, rfl⟩, rfl⟩
      · rintro ⟨_, _, ⟨rfl, rfl⟩, rfl⟩
        rfl

/-- Some entries are accepted if each describes an event. -/
theorem exists_mapM_judge (lines : List (List Char)) :
    (∃ events, lines.mapM judge = .ok events) ↔ ∀ line ∈ lines, ∃ e, Describes line e := by
  simp only [mapM_judge_eq_ok]
  induction lines with
  | nil => simp
  | cons line rest ih =>
    rw [List.forall_mem_cons, ← ih]
    constructor
    · rintro ⟨_, _ | ⟨describes, others⟩⟩
      exact ⟨⟨_, describes⟩, _, others⟩
    · rintro ⟨⟨e, describes⟩, events, others⟩
      exact ⟨e :: events, .cons describes others⟩

end Entries

section Files

variable {tree : FileTree} {path : String} {text : List Char} {events : List KeyEvent}

theorem ofFile_of_holds (holds : tree.Holds path text) :
    ofFile tree path = (entries text).mapM judge := by
  have read : ofFile tree path = ofBytes (encoded text) := by rw [ofFile, holds]
  rw [read, ofBytes, readText_encoded, ← entriesIn_lines_unifyLineEnds, ← readLines_eq]
  rfl

theorem inRange_of_describes {lines : List (List Char)}
    (describes : List.Forall₂ Describes lines events) :
    ∀ e ∈ events, 0 ≤ e.frame ∧ 0 ≤ e.key ∧ e.key ≤ 15 := by
  induction describes with
  | nil => simp
  | cons first _ ih =>
    rcases first with ⟨-, -, -, -, natural, low, high⟩
    exact List.forall_mem_cons.mpr ⟨⟨natural, low, high⟩, ih⟩

/-- A paced run breaks off for its pauses only, if runs of frames take every event. -/
theorem runPaced_error {s : Settings} {m : Machine} {count : Int} {reason : Refusal}
    (takes : ∀ count, ∃ report, (m.runFrames s count events).answer = .ok report)
    (failed : (m.runPaced s count events).answer = .error reason) : reason = .pauseTooLong := by
  unfold Machine.runPaced at failed
  split at failed
  · obtain ⟨report, reported⟩ := takes (min count 1)
    dsimp only at failed
    split at failed
    · exact (Except.error.inj failed).symm
    · rw [reported] at failed
      cases failed
  · obtain ⟨report, reported⟩ := takes count
    rw [reported] at failed
    cases failed

/-- How the text of a file is read as a schedule. -/
structure IsReadAs (tree : FileTree) (path : String) (text : List Char) : Prop where
  /-- It is accepted exactly if each of its entries describes an event. -/
  accepted : (∃ events, ofFile tree path = .ok events) ↔
    ∀ line ∈ entries text, ∃ e, Describes line e
  /-- Its events are those of its entries, one for one and in their order. -/
  events : ∀ events, ofFile tree path = .ok events ↔ List.Forall₂ Describes (entries text) events
  /-- It is refused for the first entry without an event and the first test that this one fails. -/
  refused : ∀ problem, ofFile tree path = .error problem ↔
    ∃ line flaw, IsFirstFlaw (entries text) line flaw ∧
      problem = .badLine flaw (String.ofList line)
  /-- The message names this test and quotes the line. -/
  message : ∀ problem, ofFile tree path = .error problem →
    ∃ line flaw, IsFirstFlaw (entries text) line flaw ∧
      problem.message = "Bad schedule line" ++ flaw.remark ++ ": " ++ quoted (String.ofList line)
  /-- No frame is negative, and there are such keys. -/
  inRange : ∀ events, ofFile tree path = .ok events →
    ∀ e ∈ events, 0 ≤ e.frame ∧ 0 ≤ e.key ∧ e.key ≤ 15
  /-- A run of frames takes every event, whatever the machine has been through. If it is paced, it
  can break off for a pause, but for no event. -/
  runs : ∀ events, ofFile tree path = .ok events →
    ∀ (s : Settings) (actions : List Action) (m : Machine),
      Machine.Run s (Machine.initial s) actions m → ∀ count,
        (∃ report, (m.runFrames s count events).answer = .ok report) ∧
          ∀ reason, (m.runPaced s count events).answer = .error reason → reason = .pauseTooLong
  /-- Where a line ends, it can be cut into two texts: their events follow one another, and the
  first of them that is refused decides. -/
  parts : ∀ a b, text = a ++ '\n' :: b → ∀ before after, tree.Holds before a → tree.Holds after b →
    ofFile tree path = do
      let first ← ofFile tree before
      let second ← ofFile tree after
      return first ++ second

/-- For every text in a file. -/
theorem isReadAs_of_holds (holds : tree.Holds path text) : IsReadAs tree path text where
  accepted := by rw [ofFile_of_holds holds, exists_mapM_judge]
  events events := by rw [ofFile_of_holds holds, mapM_judge_eq_ok]
  refused problem := by rw [ofFile_of_holds holds, mapM_judge_eq_error]
  message problem failed := by
    rw [ofFile_of_holds holds, mapM_judge_eq_error] at failed
    obtain ⟨line, flaw, first, rfl⟩ := failed
    exact ⟨line, flaw, first, rfl⟩
  inRange events read := by
    rw [ofFile_of_holds holds, mapM_judge_eq_ok] at read
    exact inRange_of_describes read
  runs events read s actions m run count := by
    rw [ofFile_of_holds holds, mapM_judge_eq_ok] at read
    have ok : m.WellFormed := Machine.wellFormed_of_run run
    have keys : ∀ e ∈ events, 0 ≤ e.key ∧ e.key < 16 := by
      intro e member
      have range := inRange_of_describes read e member
      omega
    have takes : ∀ count, ∃ report, (m.runFrames s count events).answer = .ok report :=
      fun count => ok.runFrames_reports count keys
    exact ⟨takes count, fun reason failed => runPaced_error takes failed⟩
  parts a b joined before after holdsBefore holdsAfter := by
    rw [ofFile_of_holds holds, ofFile_of_holds holdsBefore, ofFile_of_holds holdsAfter, joined,
      entries_append rfl, List.mapM_append]

/-- Two events with their numbers and levels in several spellings, in one file and in one each. -/
theorem isReadAs_of_holds_halves :
    let a := "0 a DOWN".toList
    let b := "# up\r\n 1_0\t0XF Up".toList
    let tree : FileTree :=
      [("both", .file (encoded (a ++ '\n' :: b))), ("a", .file (encoded a)),
        ("b", .file (encoded b))]
    (tree.Holds "both" (a ++ '\n' :: b) ∧ tree.Holds "a" a ∧ tree.Holds "b" b) ∧
      IsReadAs tree "both" (a ++ '\n' :: b) ∧
      ofFile tree "both" = .ok [⟨0, 10, true⟩, ⟨10, 15, false⟩] := by
  intro a b tree
  have both : tree.Holds "both" (a ++ '\n' :: b) := by
    unfold FileTree.Holds
    decide +kernel
  refine ⟨⟨both, ?_, ?_⟩, isReadAs_of_holds both, by decide +kernel⟩
  · unfold FileTree.Holds
    decide +kernel
  · unfold FileTree.Holds
    decide +kernel

end Files

end Chip8.Schedule
