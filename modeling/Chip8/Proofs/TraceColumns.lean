import Chip8.Proofs.TraceLines
import Chip8.Proofs.WordNames

/-! # The columns of a trace line

A trace line is a row of columns, each behind its caption, and the name of the instruction at the
end. In every machine that a host can bring about the numbers stay in their bounds, so each column
has one width. Then a line falls into its columns in one way, each column tells what it shows, and
the name tells the word: a line tells the moment that it was written at.
-/

namespace Chip8

open Text

namespace Moment

def captions : List String :=
  ["STATE: ", " STEP: ", " PC: ", " I: ", " SP: ", " DT: ", " ST: ", " V: "]

def widths : List Nat := [12, 10, 3, 3, 2, 3, 3, 47]

/-- What a moment shows stays in the bounds of a well-formed machine. -/
structure WellFormed (t : Moment) : Prop where
  pc : IsAddress t.pc
  index : IsAddress t.index
  sp : t.sp ≤ stackDepth
  delay : IsByte t.delay
  sound : IsByte t.sound

theorem captions_columns (t : Moment) : t.columns.map Column.caption = captions := by
  simp only [columns, List.map_cons, List.map_nil, captions]

/-- Two rows of columns with equal captions and widths differ in a column if they differ at all. -/
theorem eq_of_row_eq {cs ds : List Column} {rest rest' : String}
    (captions : cs.map Column.caption = ds.map Column.caption)
    (widths : cs.map (·.shown.length) = ds.map (·.shown.length))
    (same : row cs ++ rest = row ds ++ rest') : cs = ds ∧ rest = rest' := by
  induction cs generalizing ds with
  | nil =>
    obtain rfl := List.map_eq_nil_iff.mp captions.symm
    simpa [row] using same
  | cons c cs ih =>
    cases ds with
    | nil => cases captions
    | cons d ds =>
      obtain ⟨caption, captions⟩ := List.cons.inj captions
      obtain ⟨width, widths⟩ := List.cons.inj widths
      have opened (c : Column) (cs : List Column) (rest : String) : (row (c :: cs) ++ rest).toList =
          c.caption.toList ++ (c.shown.toList ++ (row cs ++ rest).toList) := by
        simp only [row, List.map_cons, String.join_cons, String.toList_append, List.append_assoc]
      -- The captions are equal texts and what they caption has equal lengths, so the first column
      -- comes off both rows.
      have lists := congrArg String.toList same
      rw [opened, opened, caption, List.append_cancel_left_eq] at lists
      obtain ⟨shown, behind⟩ := List.append_inj lists width
      obtain ⟨rfl, tails⟩ := ih captions widths (String.toList_inj.mp behind)
      cases c
      cases d
      obtain rfl := caption
      obtain rfl := String.toList_inj.mp shown
      exact ⟨rfl, tails⟩

section Columns

variable {t t' : Moment}

theorem length_label (mode : Mode) : (alignLeft 12 mode.label).length = 12 := by
  cases mode <;> decide +kernel

theorem length_stage (stage : Stage) : (alignLeft 10 stage.name).length = 10 := by
  cases stage <;> decide +kernel

theorem label_injective {mode mode' : Mode}
    (same : alignLeft 12 mode.label = alignLeft 12 mode'.label) : mode = mode' := by
  revert same
  cases mode <;> cases mode' <;> decide +kernel

theorem stage_injective {stage stage' : Stage}
    (same : alignLeft 10 stage.name = alignLeft 10 stage'.name) : stage = stage' := by
  revert same
  cases stage <;> cases stage' <;> decide +kernel

/-- A counter is shown in three characters. -/
theorem length_counter {z : Int} (byte : IsByte z) : (alignRight 3 (decimal z)).length = 3 := by
  obtain ⟨b, rfl⟩ := byte.exists_toNat
  have small : b.toNat < 10 ^ 3 := Nat.lt_trans b.toNat_lt (by decide)
  exact length_alignRight_decimal (length_digits_le (by decide) small)

theorem counter_injective {y z : Int} (byte : IsByte y) (byte' : IsByte z)
    (same : alignRight 3 (decimal y) = alignRight 3 (decimal z)) : y = z := by
  obtain ⟨b, rfl⟩ := byte.exists_toNat
  obtain ⟨c, rfl⟩ := byte'.exists_toNat
  rw [alignRight_decimal_injective same]

theorem length_stackPointer {n : Nat} (inside : n ≤ stackDepth) :
    (alignRight 2 (decimal n)).length = 2 := by
  have small : n < 10 ^ 2 := Nat.lt_of_le_of_lt inside (by decide)
  exact length_alignRight_decimal (length_digits_le (by decide) small)

theorem length_registers (v : Vector UInt8 16) : (hexBytes v.toList).length = 47 := by
  have count : v.toList.length = 16 := Vector.length_toList
  obtain ⟨b, rest, opened⟩ := List.exists_cons_of_length_eq_add_one count
  rw [opened, List.length_cons] at count
  rw [opened, length_hexBytes]
  omega

theorem registers_injective {v w : Vector UInt8 16} (same : hexBytes v.toList = hexBytes w.toList) :
    v = w := by
  have some (v : Vector UInt8 16) : v.toList ≠ [] :=
    List.ne_nil_of_length_pos (by rw [Vector.length_toList]; decide)
  exact Vector.toList_inj.mp (hexBytes_injective (some v) (some w) same)

/-- In bounds, every column has its width. -/
theorem WellFormed.widths (ok : t.WellFormed) : t.columns.map (·.shown.length) = Moment.widths := by
  simp only [columns, List.map_cons, List.map_nil, length_label, length_stage,
    length_hex3 ok.pc.1 ok.pc.2, length_hex3 ok.index.1 ok.index.2, length_stackPointer ok.sp,
    length_counter ok.delay, length_counter ok.sound, length_registers, Moment.widths]

/-- In bounds, a trace line of a decoded word tells its moment. -/
theorem WellFormed.eq_of_text_eq (ok : t.WellFormed) (ok' : t'.WellFormed) {word word' : Int}
    (decoded : t.instruction = .ofWord word) (decoded' : t'.instruction = .ofWord word')
    (same : t.text = t'.text) : t = t' := by
  rw [text_eq_row, text_eq_row, String.append_assoc, String.append_assoc] at same
  obtain ⟨columns, behind⟩ := eq_of_row_eq
    (t.captions_columns.trans t'.captions_columns.symm) (ok.widths.trans ok'.widths.symm) same
  have names : t.instruction.mnemonic = t'.instruction.mnemonic := by
    have lists := congrArg String.toList behind
    rw [String.toList_append, String.toList_append, List.append_cancel_left_eq] at lists
    exact String.toList_inj.mp lists
  have words : t.instruction = t'.instruction := by
    -- A name tells the low sixteen bits only, but decoding looks at nothing else.
    rw [decoded, decoded', Instruction.mnemonic_eq_iff] at names
    rw [decoded, decoded', ← Instruction.ofWord_emod word, names, Instruction.ofWord_emod]
  simp only [Moment.columns, List.cons.injEq, Column.mk.injEq, true_and, and_true] at columns
  obtain ⟨mode, stage, pc, index, sp, delay, sound, registers⟩ := columns
  cases t
  cases t'
  obtain rfl := label_injective mode
  obtain rfl := stage_injective stage
  obtain rfl := hex3_injective ok.pc.1 ok.pc.2 ok'.pc.1 ok'.pc.2 pc
  obtain rfl := hex3_injective ok.index.1 ok.index.2 ok'.index.1 ok'.index.2 index
  obtain rfl := alignRight_decimal_injective sp
  obtain rfl := counter_injective ok.delay ok'.delay delay
  obtain rfl := counter_injective ok.sound ok'.sound sound
  obtain rfl := registers_injective registers
  obtain rfl := words
  rfl

end Columns

end Moment

namespace Machine

variable {s s' : Settings} {m m' : Machine} {tape tape' : List Turn} {t t' : Turn} {e e' : LogEntry}
  {stage stage' : Stage} {now now' : Machine}

/-- An entry that a turn logs is the trace line of a moment: of the machine before the turn, or of
the one after it, with the word ahead of the turn. -/
inductive Traces (s : Settings) (t : Turn) (e : LogEntry) : Stage → Machine → Prop
  | fetch : e ∈ (t.outcome s).log →
      e = .trace (.of t.machine .fetch t.machine.nextInstruction) → Traces s t e .fetch t.machine
  | execution : e ∈ (t.outcome s).log →
      e = .trace (.of (t.after s) .execution t.machine.nextInstruction) →
        Traces s t e .execution (t.after s)

theorem WellFormed.moment (ok : m.WellFormed) (stage : Stage) (i : Instruction) :
    (Moment.of m stage i).WellFormed :=
  ⟨ok.registers.pc, ok.registers.index, ok.registers.sp, ok.timers.delay, ok.timers.sound⟩

/-- A course that begins with a well-formed machine ends with one. -/
theorem Course.wellFormed (course : Course s m tape m') (ok : m.WellFormed) : m'.WellFormed :=
  @Course.keeps s m m' tape [] (fun _ m => m.WellFormed) course
    (fun _ t _ ok => ok.perform t.action) (fun _ _ _ stream ok => ok.withRandom stream) ok

theorem Traces.eq_trace (traced : Traces s t e stage now) :
    e = .trace (.of now stage t.machine.nextInstruction) := by
  cases traced with
  | fetch _ shown => exact shown
  | execution _ shown => exact shown

theorem Traces.wellFormed (traced : Traces s t e stage now) (ok : t.machine.WellFormed) :
    now.WellFormed := by
  cases traced with
  | fetch => exact ok
  | execution => exact ok.perform t.action

/-- A lenient log has no trace entries of steps. -/
theorem tracesIn_step_of_lenient (lenient : s.lenientLog = true) (m : Machine) :
    tracesIn (m.step s).log = [] := by
  have same : s.lenient = s := by rw [Settings.lenient, ← lenient]
  have quiet : (m.step s).log = untraced (m.step s).log := by
    conv_lhs => rw [← same, step_lenient]
    rfl
  rw [quiet, tracesIn, untraced, List.filter_filter]
  apply List.filter_eq_nil_iff.mpr
  intro e _
  simp

theorem outcome_of_step (isStep : t.action = .step) :
    t.outcome s = (t.machine.step s).map .event := by
  rw [Turn.outcome, isStep]
  rfl

/-- A trace line is logged by a step of a running machine and shows the machine before it or after
it. -/
theorem traces_of_isTraceLine (member : t ∈ parts s tape) (logged : e ∈ (t.outcome s).log)
    (line : e.isTraceLine = true) :
    (t.action = .step ∧ t.machine.mode = .running) ∧ ∃ stage now, Traces s t e stage now := by
  have entry : e ∈ tracesIn (t.outcome s).log :=
    List.mem_filter.mpr ⟨logged, e.isTraceLine_eq_isTrace.symm.trans line⟩
  have steps : t.action = .step ∧ t.machine.mode = .running := by
    by_contra idle
    rw [tracesIn_of_idle (isAtomic_of_mem_parts member) fun isStep running =>
      idle ⟨isStep, running⟩] at entry
    exact List.not_mem_nil entry
  refine ⟨steps, ?_⟩
  obtain ⟨isStep, running⟩ := steps
  have stepped : t.outcome s = (t.machine.step s).map .event := outcome_of_step isStep
  have entries : e ∈ tracesIn (t.machine.step s).log := by
    rw [stepped] at entry
    exact entry
  cases lenient : s.lenientLog with
  | true =>
    rw [tracesIn_step_of_lenient lenient] at entries
    exact absurd entries List.not_mem_nil
  | false =>
    have after : t.after s = (t.machine.step s).machine := by
      rw [Turn.after, stepped]
      rfl
    rw [tracesIn_step lenient running, ← after, List.mem_cons] at entries
    rcases entries with shown | behind
    · exact ⟨_, _, .fetch logged shown⟩
    · split at behind
      · exact ⟨_, _, .execution logged (List.mem_singleton.mp behind)⟩
      · exact absurd behind List.not_mem_nil

/-- A running step logs its trace lines unless the log is lenient. -/
theorem traces_of_step (tracing : s.lenientLog = false) (isStep : t.action = .step)
    (running : t.machine.mode = .running) :
    (∃ e, Traces s t e .fetch t.machine) ∧
      ∀ reply, (t.outcome s).answer = .ok reply → ∃ e, Traces s t e .execution (t.after s) := by
  have stepped : t.outcome s = (t.machine.step s).map .event := outcome_of_step isStep
  have entries := tracesIn_step tracing running
  have logged {e : LogEntry} (entry : e ∈ tracesIn (t.machine.step s).log) :
      e ∈ (t.outcome s).log := by
    rw [stepped]
    exact List.mem_of_mem_filter entry
  refine ⟨⟨_, .fetch (logged ?_) rfl⟩, ?_⟩
  · rw [entries]
    exact List.mem_cons_self ..
  · intro reply answered
    refine ⟨_, .execution (logged ?_) rfl⟩
    cases answer : (t.machine.step s).answer with
    | ok event =>
      rw [entries, answer, Turn.after, stepped]
      exact List.mem_cons_of_mem _ (List.mem_singleton_self _)
    | error reason =>
      rw [stepped, Outcome.map, answer] at answered
      cases answered

/-- Equal trace lines of two well-formed machines are of one moment and one word. -/
theorem Traces.agree (traced : Traces s t e stage now) (traced' : Traces s' t' e' stage' now')
    (ok : t.machine.WellFormed) (ok' : t'.machine.WellFormed) (same : e.text = e'.text) :
    Moment.of now stage t.machine.nextInstruction =
        Moment.of now' stage' t'.machine.nextInstruction ∧
      t.machine.memory.readWord t.machine.registers.pc =
        t'.machine.memory.readWord t'.machine.registers.pc := by
  obtain rfl := traced.eq_trace
  obtain rfl := traced'.eq_trace
  have moments := ((traced.wellFormed ok).moment stage _).eq_of_text_eq
    ((traced'.wellFormed ok').moment stage' _) (nextInstruction_eq _) (nextInstruction_eq _) same
  refine ⟨moments, ?_⟩
  have words : t.machine.memory.readWord t.machine.registers.pc % 65536 =
      t'.machine.memory.readWord t'.machine.registers.pc % 65536 :=
    congrArg (fun moment => moment.instruction.raw) moments
  rwa [Memory.readWord_emod, Memory.readWord_emod] at words

/-- Trace lines can be read back. After whatever a host does, a line written for the machine would
have every column in its width. A running step that is not lenient writes its lines, other turns
write none, and two lines of equal text, whichever hosts they are from, were written at moments that
agree in the mode, the stage, the registers, the timers and the word of the instruction. -/
theorem traceLines_tell_moments (course : Course s (initial s) tape m)
    (course' : Course s' (initial s') tape' m') :
    (∀ stage i, let moment := Moment.of m stage i
      moment.text = Moment.row moment.columns ++ "\tINSTR: " ++ i.mnemonic ∧
        moment.columns.map Column.caption = Moment.captions ∧
        moment.columns.map (·.shown.length) = Moment.widths) ∧
    (∀ t ∈ parts s tape,
      (s.lenientLog = false → t.action = .step → t.machine.mode = .running →
        (∃ e, Traces s t e .fetch t.machine) ∧
        ∀ reply, (t.outcome s).answer = .ok reply → ∃ e, Traces s t e .execution (t.after s)) ∧
      ∀ e ∈ (t.outcome s).log, e.isTraceLine = true →
        (t.action = .step ∧ t.machine.mode = .running) ∧
        ∃ stage now, Traces s t e stage now) ∧
    ∀ t ∈ parts s tape, ∀ t' ∈ parts s' tape', ∀ e e' stage stage' now now',
      Traces s t e stage now → Traces s' t' e' stage' now' → e.text = e'.text →
        (now.mode = now'.mode ∧ stage = stage') ∧
        (now.registers.pc = now'.registers.pc ∧ now.registers.index = now'.registers.index ∧
          now.registers.sp = now'.registers.sp ∧ now.registers.v = now'.registers.v) ∧
        (now.timers.delay = now'.timers.delay ∧ now.timers.sound = now'.timers.sound) ∧
        t.machine.memory.readWord t.machine.registers.pc =
          t'.machine.memory.readWord t'.machine.registers.pc := by
  refine ⟨?_, ?_, ?_⟩
  · intro stage i moment
    have ok : m.WellFormed := course.wellFormed (wellFormed_initial s)
    exact ⟨moment.text_eq_row, moment.captions_columns, (ok.moment stage i).widths⟩
  · intro t member
    exact ⟨traces_of_step, fun e logged line => traces_of_isTraceLine member logged line⟩
  · intro t member t' member' e e' stage stage' now now' traced traced' same
    have ok : t.machine.WellFormed := course.in_parts.wellFormed_turn (wellFormed_initial s) member
    have ok' : t'.machine.WellFormed :=
      course'.in_parts.wellFormed_turn (wellFormed_initial s') member'
    obtain ⟨moments, word⟩ := traced.agree traced' ok ok' same
    simp only [Moment.of, Moment.mk.injEq] at moments
    obtain ⟨mode, stages, pc, index, sp, delay, sound, registers, -⟩ := moments
    exact ⟨⟨mode, stages⟩, ⟨pc, index, sp, registers⟩, ⟨delay, sound⟩, word⟩

/-- Two hosts with other random bytes to come fetch the same word: their lines are equal. -/
theorem traceLines_tell_moments_seeds :
    let s : Settings := { seed := some 1 }
    let s' : Settings := { seed := some 2 }
    let actions := [Action.load [0xC3, 0x0F], .step]
    let t : Turn := ⟨((initial s).perform s (.load [0xC3, 0x0F])).machine, .step⟩
    let t' : Turn := ⟨((initial s').perform s' (.load [0xC3, 0x0F])).machine, .step⟩
    t ∈ parts s ((initial s).tape s actions) ∧ t' ∈ parts s' ((initial s').tape s' actions) ∧
      ∃ e e', Traces s t e .fetch t.machine ∧ Traces s' t' e' .fetch t'.machine ∧
        e.text = e'.text ∧
        t.machine.registers.v = t'.machine.registers.v ∧
        t.machine.memory.readWord t.machine.registers.pc =
          t'.machine.memory.readWord t'.machine.registers.pc := by
  intro s s' actions t t'
  have member : t ∈ parts s ((initial s).tape s actions) :=
    List.mem_cons_of_mem _ (List.mem_singleton_self _)
  have member' : t' ∈ parts s' ((initial s').tape s' actions) :=
    List.mem_cons_of_mem _ (List.mem_singleton_self _)
  obtain ⟨-, lines, agree⟩ := traceLines_tell_moments
    (Course.of_tape s (initial s) actions) (Course.of_tape s' (initial s') actions)
  obtain ⟨⟨e, traced⟩, -⟩ := (lines t member).1 rfl rfl rfl
  obtain ⟨⟨e', traced'⟩, -⟩ := traces_of_step (s := s') (t := t') rfl rfl rfl
  have loaded (s : Settings) : ((initial s).perform s (.load [0xC3, 0x0F])).machine =
      { initial s with memory := Memory.initial.placeProgram [0xC3, 0x0F] (by decide) } := by
    rw [perform, load_of_fits s (initial s) (by decide)]
    rfl
  have same : e.text = e'.text := by
    rw [traced.eq_trace, traced'.eq_trace, show t.machine = _ from loaded s,
      show t'.machine = _ from loaded s']
    simp only [Moment.of, nextInstruction_eq, initial]
  obtain ⟨-, ⟨-, -, -, registers⟩, -, word⟩ :=
    agree t member t' member' e e' _ _ _ _ traced traced' same
  exact ⟨member, member', e, e', traced, traced', same, registers, word⟩

end Machine

end Chip8
