import Chip8.Proofs.Effects
import Chip8.Proofs.Pacing

/-! # The cadence of the timers

A timer is a record of the past: it shows the value stored last less the ticks since then. In a run
of frames each tick stands behind a burst that went through, so the ticks count the frames, however
many steps a frame has and whatever the machine does in it.
-/

namespace Chip8

inductive Timer where
  | delay
  | sound
deriving DecidableEq, Repr

namespace Timer

/-- The number that a counter shows. -/
def value : Timer → Timers → Int
  | delay, t => t.delay
  | sound, t => t.sound

def storeWord : Timer → Fin 16 → Int
  | delay, x => 0xF015 + 0x100 * x.val
  | sound, x => 0xF018 + 0x100 * x.val

/-- The operation that stores register `x` in a counter. -/
def store : Timer → Fin 16 → Operation
  | delay, x => .setDelay x.val
  | sound, x => .setSound x.val

/-- What a counter goes by: the value stored last, zero at first, and the ticks since then. -/
structure Record where
  value : Nat := 0
  ticks : Nat := 0

def stored? (s : Settings) (timer : Timer) (t : Turn) : Option UInt8 :=
  (List.finRange 16).findSome? fun x =>
    if t.word? s = some (timer.storeWord x) then some (t.machine.registers.v.get x) else none

/-- The record after one more turn. -/
def note (s : Settings) (timer : Timer) (r : Record) (t : Turn) : Record :=
  match timer.stored? s t with
  | some b => ⟨b.toNat, 0⟩
  | none => if t.action = .tick then { r with ticks := r.ticks + 1 } else r

def record (s : Settings) (timer : Timer) (tape : List Turn) : Record :=
  tape.foldl (timer.note s) {}

def Record.due (r : Record) : Int := max 0 (r.value - r.ticks)

variable {s : Settings} {timer : Timer} {t : Turn}

theorem record_concat (s : Settings) (timer : Timer) (tape : List Turn) (t : Turn) :
    timer.record s (tape ++ [t]) = timer.note s (timer.record s tape) t :=
  List.foldl_append

theorem storeWord_inj {x y : Fin 16} (same : timer.storeWord x = timer.storeWord y) : x = y := by
  cases timer <;> simp only [storeWord] at same <;> omega

theorem stored?_eq_some {x : Fin 16} (stores : t.word? s = some (timer.storeWord x)) :
    timer.stored? s t = some (t.machine.registers.v.get x) := by
  cases found : timer.stored? s t with
  | none =>
    have missed := List.findSome?_eq_none_iff.mp found x (List.mem_finRange x)
    rw [if_pos stores] at missed
    cases missed
  | some b =>
    obtain ⟨y, -, hit⟩ := List.exists_of_findSome?_eq_some found
    split at hit
    · next same =>
      rw [storeWord_inj (Option.some.inj (stores.symm.trans same)), hit]
    · cases hit

theorem stored?_eq_none (noStore : ∀ x, t.word? s ≠ some (timer.storeWord x)) :
    timer.stored? s t = none := by
  apply List.findSome?_eq_none_iff.mpr
  intro x _
  exact if_neg (noStore x)

/-- The words that store a register in a counter. -/
theorem operation?_eq_store_iff (timer : Timer) (word : Int) (x : Fin 16) :
    (Instruction.ofWord word).operation? = some (timer.store x) ↔
      word % 65536 = timer.storeWord x := by
  constructor
  · intro asked
    cases timer <;> exact (Instruction.word_of_operation? asked (by simp [store])).symm
  · intro same
    cases timer
    · exact Instruction.operation?_misc 0x15 (by omega) (by omega)
        (by simp only [storeWord] at same; omega)
    · exact Instruction.operation?_misc 0x18 (by omega) (by omega)
        (by simp only [storeWord] at same; omega)

/-- A tick lowers a counter by one, down to zero. -/
theorem value_tick (timer : Timer) (t : Timers) :
    timer.value t.tick = Timers.countDown (timer.value t) := by
  cases timer <;> rfl

theorem countDown_due (r : Record) :
    Timers.countDown r.due = ({ r with ticks := r.ticks + 1 } : Record).due := by
  simp only [Record.due, Timers.countDown]
  omega

theorem due_of_stored (b : UInt8) : (⟨b.toNat, 0⟩ : Record).due = b.toNat := by
  simp only [Record.due]
  omega

/-- A store sets the counter to the register. -/
theorem value_run_store (d : Dialect) (m : Machine) (timer : Timer) (x : Fin 16) :
    timer.value (m.run d (timer.store x)).machine.timers = (m.registers.v.get x).toNat := by
  cases timer <;>
    simp only [store, Machine.run, Registers.slot_val, Outcome.lookup_ok, Outcome.machine_done,
      value, Registers.get]

/-- Only a store changes a counter. -/
theorem value_run {d : Dialect} {m : Machine} {operation : Operation}
    (encodable : operation.Encodable) (noStore : ∀ x, operation ≠ timer.store x) :
    timer.value (m.run d operation).machine.timers = timer.value m.timers := by
  by_cases delays : ∃ x : Fin 16, operation = .setDelay x.val
  · obtain ⟨x, rfl⟩ := delays
    cases timer with
    | delay => exact absurd rfl (noStore x)
    | sound =>
      simp only [Machine.run, Registers.slot_val, Outcome.lookup_ok, Outcome.machine_done, value]
  by_cases sounds : ∃ x : Fin 16, operation = .setSound x.val
  · obtain ⟨x, rfl⟩ := sounds
    cases timer with
    | delay =>
      simp only [Machine.run, Registers.slot_val, Outcome.lookup_ok, Outcome.machine_done, value]
    | sound => exact absurd rfl (noStore x)
  rw [Machine.run_timers encodable (fun x same => delays ⟨x, same⟩) fun x same => sounds ⟨x, same⟩]

/-- The counter goes by its record. -/
theorem value_after (timer : Timer) (elementary : t.action.IsElementary) {past : List Turn}
    (before : timer.value t.machine.timers = (timer.record s past).due) :
    timer.value (t.after s).timers = (timer.record s (past ++ [t])).due := by
  rw [record_concat, note]
  cases Turn.effect s elementary.isAtomic with
  | executes word operation executed _ noTick asked run =>
    have encodable := Instruction.operation?_encodable asked
    by_cases stores : ∃ x, operation = timer.store x
    · obtain ⟨x, rfl⟩ := stores
      have word : word = timer.storeWord x :=
        (Turn.word?_emod executed).symm.trans ((operation?_eq_store_iff timer word x).mp asked)
      rw [stored?_eq_some (executed.trans (congrArg some word)), run, value_run_store,
        due_of_stored, Turn.v_ready]
    · have quiet : timer.stored? s t = none := by
        apply stored?_eq_none
        intro x same
        obtain rfl := Option.some.inj (executed.symm.trans same)
        have again := (operation?_eq_store_iff timer _ x).mpr (Turn.word?_emod executed)
        exact stores ⟨x, Option.some.inj (asked.symm.trans again)⟩
      rw [quiet, run, value_run encodable fun x same => stores ⟨x, same⟩, Turn.timers_ready,
        if_neg noTick]
      exact before
  | restarts memory _ restarted _ =>
    rw [Turn.restarts_of_elementary elementary] at restarted
    cases restarted
  | ticks idle _ isTick ticked =>
    rw [stored?_eq_none (by simp [idle]), ticked, if_pos isTick, ← countDown_due, ← before]
    exact value_tick timer _
  | looks idle _ isLook looked =>
    rw [stored?_eq_none (by simp [idle]), looked, if_neg (by simp [isLook])]
    exact before
  | rests idle _ noTick _ _ timers =>
    rw [stored?_eq_none (by simp [idle]), timers, if_neg noTick]
    exact before

/-- Reading the delay counter loads the number that it shows. -/
theorem delay_of_read {x : Fin 16} (ok : t.machine.WellFormed)
    (reads : t.word? s = some (0xF007 + 0x100 * x.val : Int)) :
    (((t.after s).registers.v.get x).toNat : Int) = t.machine.timers.delay := by
  obtain ⟨operation, asked, run⟩ := Turn.after_of_word reads
  have read : (Instruction.ofWord (0xF007 + 0x100 * x.val)).operation? =
      some (.readDelay x.val) :=
    Instruction.operation?_misc 0x07 (by omega) (by omega)
      (by have := Turn.word?_emod reads; omega)
  obtain rfl := Option.some.inj (asked.symm.trans read)
  obtain ⟨b, shown⟩ := ok.timers.delay.exists_toNat
  rw [run]
  simp only [Machine.run, Turn.timers_ready, shown, assignment_val, Outcome.lookup_ok,
    Outcome.machine_done, Machine.v_setRegister]

end Timer

namespace Machine

variable {s : Settings} {m start : Machine}

theorem Restarted.timers (restarted : Restarted s m) : m.timers = .initial := by
  obtain ⟨program, fits, stream, rfl⟩ := restarted.exists_program
  rfl

theorem Restarted.wellFormed (restarted : Restarted s m) : m.WellFormed := by
  obtain ⟨program, fits, stream, rfl⟩ := restarted.exists_program
  exact { wellFormed_initial s with memory := Memory.hasFont_initial.placeProgram fits }

/-- Both counters go by their records, on a machine that is well formed. -/
structure InCadence (s : Settings) (past : List Turn) (m : Machine) : Prop where
  ok : m.WellFormed
  shows : ∀ timer : Timer, timer.value m.timers = (timer.record s past).due

theorem Restarted.inCadence (restarted : Restarted s start) : InCadence s [] start := by
  refine ⟨restarted.wellFormed, ?_⟩
  intro timer
  rw [restarted.timers]
  cases timer <;> rfl

theorem InCadence.turn {past : List Turn} {t : Turn} (before : InCadence s past t.machine)
    (elementary : t.action.IsElementary) : InCadence s (past ++ [t]) (t.after s) :=
  ⟨before.ok.perform t.action, fun timer => timer.value_after elementary (before.shows timer)⟩

/-- In a run of frames of a machine that was just given a program, before and after each turn and
at the end, each counter shows the value stored last less the ticks since, zero at least, and each
read of the delay loads that number. A tick stands at the end of each whole frame and nowhere
else: a frame that a fault stops has none. -/
theorem timerCadence_of_restarted (restarted : Restarted s start) (count : Int)
    {schedule : List KeyEvent} (keys : ∀ e ∈ schedule, 0 ≤ e.key ∧ e.key < 16) :
    let ended := start.runFrames s count schedule
    let events := inFrameOrder schedule
    let performed := start.performed s (framePlan s count schedule)
    let tape := start.tape s performed
    ∃ report rest, ended.answer = .ok report ∧ ended.machine = start.after s performed ∧
      performed = wholeFrames s events 0 report.completed ++ rest ∧
      (∀ a ∈ rest, a ∈ frameBody s events report.completed) ∧
      (∀ timer : Timer,
        (∀ past t future, tape = past ++ t :: future →
          timer.value t.machine.timers = (timer.record s past).due ∧
          timer.value (t.after s).timers = (timer.record s (past ++ [t])).due) ∧
        timer.value ended.machine.timers = (timer.record s tape).due) ∧
      ∀ past t future, tape = past ++ t :: future →
        ∀ x : Fin 16, t.word? s = some (0xF007 + 0x100 * x.val : Int) →
          (((t.after s).registers.v.get x).toNat : Int) = (Timer.delay.record s past).due := by
  intro ended events performed tape
  have ok : start.WellFormed := restarted.wellFormed
  obtain ⟨report, reported⟩ := ok.runFrames_reports (s := s) count keys
  obtain ⟨completed, rest, plan, within, reports⟩ := runFrames_performs s start count schedule
  obtain ⟨rfl, -⟩ := reports report reported
  have machine : ended.machine = start.after s performed :=
    (runFrames_enacts s start count schedule).machine
  have course : Course s start tape (start.after s performed) := .of_tape s start performed
  have cadence : ∀ past, ∀ t ∈ tape, InCadence s past t.machine →
      InCadence s (past ++ [t]) (t.after s) :=
    fun past t member before => before.turn (isElementary_of_mem_tape member)
  have blind : s.seed = none → ∀ past m stream, InCadence s past m →
      InCadence s past { m with random := stream } :=
    fun _ past m stream before => ⟨before.ok.withRandom stream, before.shows⟩
  have atEnd := course.keeps (InCadence s) cadence blind restarted.inCadence
  have throughout (past t future) (parted : tape = past ++ t :: future) :=
    course.keeps_throughout (InCadence s) cadence blind restarted.inCadence parted
  refine ⟨report, rest, reported, machine, plan, within, ?_, ?_⟩
  · intro timer
    refine ⟨?_, ?_⟩
    · intro past t future parted
      obtain ⟨before, behind⟩ := throughout past t future parted
      exact ⟨before.shows timer, behind.shows timer⟩
    · rw [machine]
      exact atEnd.shows timer
  · intro past t future parted x reads
    obtain ⟨before, -⟩ := throughout past t future parted
    rw [Timer.delay_of_read before.ok reads]
    exact before.shows .delay

/-- A program that stores 5 in the delay counter, completes a frame and reads the counter in the
next one. -/
theorem timerCadence_of_restarted_read :
    let s : Settings := { cyclesPerFrame := 2 }
    let start := ((initial s).load s [0x60, 0x05, 0xF0, 0x15, 0xF1, 0x07]).machine
    let schedule := [⟨1, 3, true⟩]
    let beginning := [.step, .step, .tick, .takeDirty, .setKey 3 true]
    let storing : Turn := ⟨start.after s [.step], .step⟩
    let reading : Turn := ⟨start.after s beginning, .step⟩
    Restarted s start ∧ (∀ e ∈ schedule, 0 ≤ e.key ∧ e.key < 16) ∧
      storing.word? s = some (Timer.delay.storeWord 0) ∧
      storing.machine.registers.v.get 0 = 5 ∧
      reading.word? s = some (0xF007 + 0x100 * (1 : Fin 16).val : Int) ∧
      (Timer.delay.record s (start.tape s beginning)).due = 4 ∧
      ∃ report, (start.runFrames s 2 schedule).answer = .ok report ∧
        ((reading.after s).registers.v.get 1).toNat = (4 : Int) := by
  intro s start schedule beginning storing reading
  have restarted : Restarted s start :=
    .load (initial s) [0x60, 0x05, 0xF0, 0x15, 0xF1, 0x07] _ rfl
  have keys : ∀ e ∈ schedule, 0 ≤ e.key ∧ e.key < 16 := by decide
  have placed : start.memory = Memory.initial.placeProgram
      [0x60, 0x05, 0xF0, 0x15, 0xF1, 0x07] (by decide) := rfl
  have words : start.memory.readWord 0x200 = 0x6005 ∧ start.memory.readWord 0x202 = 0xF015 ∧
      start.memory.readWord 0x204 = 0xF107 := by
    simp [placed, Memory.readWord, Memory.placeProgram, Memory.read_place, Address.ofInt,
      programStart]
  obtain ⟨word, word', word''⟩ := words
  let m₁ := start.fetched.setRegister 0 5
  let m₂ : Machine := { m₁.fetched with timers := ⟨5, 0⟩ }
  let m₃ := (m₂.tick.takeDirty.setKey 3 true).machine
  have first : (start.step s).answer = .ok .continued ∧ (start.step s).machine = m₁ := by
    apply step_of_operation _ (.setByte 0 5) rfl _ rfl rfl
    rw [show start.registers.pc = 0x200 from rfl, word]
    rfl
  have second : (m₁.step s).answer = .ok .continued ∧ (m₁.step s).machine = m₂ := by
    apply step_of_operation _ (.setDelay 0) rfl _ rfl rfl
    rw [show m₁.registers.pc = 0x202 from rfl, show m₁.memory = start.memory from rfl, word']
    rfl
  have begun : start.after s [.step] = m₁ := first.2
  have ended : start.after s beginning = m₃ := by
    simp only [beginning, after_cons, after_nil, perform, Outcome.map, first, second,
      Outcome.machine_done, m₃]
  have clear : start.obstacle s beginning = none := by
    simp only [beginning, obstacle, perform, Outcome.map, first, second, Except.map,
      Outcome.answer_done, Outcome.machine_done]
    rfl
  have stores : storing.word? s = some 0xF015 := by
    have executed : m₁.executedBy s .step = [⟨0x202, 0xF015⟩] := by
      rw [executedBy_step rfl second.1, show m₁.registers.pc = 0x202 from rfl,
        show m₁.memory = start.memory from rfl, word']
    simp only [storing, Turn.word?, begun, executed, List.head?_cons, Option.map_some]
  have reads : reading.word? s = some 0xF107 := by
    have next : m₃.memory.readWord m₃.registers.pc = 0xF107 := by
      rw [show m₃.registers.pc = 0x204 from rfl, show m₃.memory = start.memory from rfl, word'']
    have ok : m₃.WellFormed :=
      ended ▸ (Run.of_after (s := s) start beginning).wellFormed restarted.wellFormed
    simp only [reading, Turn.word?, ended, ok.executedBy_of_readDelay (s := s) (x := 1) rfl next,
      List.head?_cons, Option.map_some, next]
  have plan : framePlan s 2 schedule = beginning ++ [.step, .step, .tick, .takeDirty] := by
    rw [framePlan, show inFrameOrder schedule = schedule from List.mergeSort_singleton _]
    rfl
  obtain ⟨report, _, reported, _, _, _, shows, loads⟩ :=
    timerCadence_of_restarted restarted 2 keys
  have opens (m : Machine) (rest : List Action) :
      ∃ future, m.tape s (m.performed s (.step :: rest)) = ⟨m, .step⟩ :: future := ⟨_, rfl⟩
  obtain ⟨future, next⟩ := opens (start.after s beginning) [.step, .tick, .takeDirty]
  have parted : start.tape s (start.performed s (framePlan s 2 schedule)) =
      start.tape s beginning ++ reading :: future := by
    rw [plan, (performed_append_of_clear clear _).1, tape_append, next]
  have due : (Timer.delay.record s (start.tape s beginning)).due = 4 := by
    rw [← ((shows .delay).1 _ reading future parted).1]
    simp only [reading, ended]
    rfl
  exact ⟨restarted, keys, stores, by rw [show storing.machine = m₁ from begun]; rfl, reads, due,
    report, reported, (loads _ reading future parted 1 reads).trans due⟩

end Machine

end Chip8
