import Chip8.Proofs.FrameActions

/-! # What the order of a schedule means

A run of frames does not see in which order a schedule gives events of different frames or of
different keys: events go into their frames first, and in a frame each key only sees its own.
Every event of a frame that is reached is applied, once and before the burst of its frame, so that
a key ends on the level of its last event.
-/

namespace Chip8

def KeyEvent.MovesBefore (key : Fin 16) (frame : Int) (e : KeyEvent) : Prop :=
  e.key = key.val ∧ e.frame < frame

/-- The event of a schedule that moves a key last before a frame: no such event that stands before
it has a later frame, and every one that stands behind it has an earlier frame. -/
def IsLastMove (key : Fin 16) (frame : Int) (schedule : List KeyEvent) (e : KeyEvent) : Prop :=
  e.MovesBefore key frame ∧ ∃ before after, schedule = before ++ e :: after ∧
    (∀ other ∈ before, other.MovesBefore key frame → other.frame ≤ e.frame) ∧
    ∀ other ∈ after, other.MovesBefore key frame → other.frame < e.frame

section Order

variable {key : Fin 16} {schedule schedule' : List KeyEvent}

/-- The events of each key come in one order, whatever order the schedule gives the keys. -/
theorem eventsOf_inFrameOrder
    (same : ∀ frame,
      eventsOf key (eventsAt frame schedule) = eventsOf key (eventsAt frame schedule')) :
    eventsOf key (inFrameOrder schedule) = eventsOf key (inFrameOrder schedule') := by
  rw [eventsOf, ← inFrameOrder_filter, eventsOf, ← inFrameOrder_filter]
  apply (frameOrdered_inFrameOrder _).eq_of_eventsAt (frameOrdered_inFrameOrder _)
  intro frame
  have atFrame := same frame
  simp only [eventsOf, eventsAt] at atFrame
  rw [eventsAt_inFrameOrder, eventsAt_inFrameOrder, eventsAt, List.filter_comm, atFrame, eventsAt,
    List.filter_comm]

theorem mem_eventsOf_startedBefore {frame : Nat} (later : 0 < frame) {e : KeyEvent} :
    e ∈ eventsOf key (startedBefore frame (inFrameOrder schedule)) ↔
      e ∈ schedule ∧ e.MovesBefore key frame := by
  have before : e.start < frame ↔ e.frame < frame := by
    unfold KeyEvent.start
    omega
  rw [mem_eventsOf, startedBefore, List.mem_filter, mem_inFrameOrder, decide_eq_true_eq, before,
    KeyEvent.MovesBefore, and_assoc, and_comm (a := e.frame < frame)]

/-- The last of the events of a key that apply before a frame is the one that moves it last. -/
theorem isLastMove_of_concat {frame : Nat} (later : 0 < frame) {earlier : List KeyEvent}
    {e : KeyEvent}
    (parts : eventsOf key (startedBefore frame (inFrameOrder schedule)) = earlier ++ [e]) :
    IsLastMove key frame schedule e := by
  have moves (other : KeyEvent) : other ∈ earlier ++ [e] ↔
      other ∈ schedule ∧ other.MovesBefore key frame := by
    rw [← parts, mem_eventsOf_startedBefore later]
  have ordered : FrameOrdered (earlier ++ [e]) := by
    rw [← parts]
    exact ((frameOrdered_inFrameOrder schedule).filter _).filter _
  have latest (other : KeyEvent) (member : other ∈ earlier ++ [e]) : other.frame ≤ e.frame := by
    obtain inEarlier | isLast := List.mem_append.mp member
    · exact (List.pairwise_append.mp ordered).2.2 other inEarlier e (List.mem_singleton_self e)
    · exact Int.le_of_eq (congrArg KeyEvent.frame (List.mem_singleton.mp isLast))
  have isMove : e.MovesBefore key frame := ((moves e).mp (by simp)).2
  -- Within the frame of the event, the order is the one of the schedule.
  have atFrame : eventsOf key (eventsAt e.frame schedule) = eventsAt e.frame earlier ++ [e] := by
    have all : eventsAt e.frame (startedBefore frame (inFrameOrder schedule)) =
        eventsAt e.frame schedule := by
      rw [← eventsAt_inFrameOrder e.frame schedule, startedBefore, eventsAt, List.filter_comm]
      apply List.filter_eq_self.mpr
      intro other member
      have sameFrame := (mem_eventsAt.mp member).2
      have beforeFrame := isMove.2
      rw [decide_eq_true_eq, KeyEvent.start]
      omega
    rw [← all, eventsOf, eventsAt, List.filter_comm, ← eventsOf, parts, List.filter_append,
      ← eventsAt, List.filter_cons_of_pos (by simp), List.filter_nil]
  rw [eventsOf, eventsAt, List.filter_filter] at atFrame
  obtain ⟨before, tail, rfl, selectedBefore, selectedTail⟩ := List.filter_eq_append_iff.mp atFrame
  obtain ⟨between, after, rfl, _, _, selectedAfter⟩ := List.filter_eq_cons_iff.mp selectedTail
  refine ⟨isMove, before ++ between, after, by simp, ?_, ?_⟩
  · intro other member move
    have scheduled : other ∈ before ++ (between ++ e :: after) := by
      rw [← List.append_assoc]
      exact List.mem_append_left _ member
    exact latest other ((moves other).mpr ⟨scheduled, move⟩)
  · intro other member move
    have scheduled : other ∈ before ++ (between ++ e :: after) :=
      List.mem_append_right _ (List.mem_append_right _ (List.mem_cons_of_mem _ member))
    have atMost := latest other ((moves other).mpr ⟨scheduled, move⟩)
    have apart : ¬ other.frame = e.frame := by
      intro sameFrame
      have := List.filter_eq_nil_iff.mp selectedAfter other member
      simp [move.1, sameFrame] at this
    omega

end Order

namespace Machine

variable {s : Settings} {m : Machine} {events events' schedule schedule' : List KeyEvent}

/-- Events that are the same for each key have the same effect. -/
theorem applyEvents_agree (frame : Nat) (keys : ∀ e ∈ events, 0 ≤ e.key ∧ e.key < 16)
    (keys' : ∀ e ∈ events', 0 ≤ e.key ∧ e.key < 16)
    (same : ∀ key, eventsOf key events = eventsOf key events') (log log' : Array LogEntry) :
    (m.applyEvents frame events log).Agree Eq (m.applyEvents frame events' log') := by
  constructor
  · rw [answer_applyEvents frame log keys, answer_applyEvents frame log' keys']
  · have keypads : (m.applyEvents frame events log).machine.keypad =
        (m.applyEvents frame events' log').machine.keypad := by
      apply Keypad.ext_keyState
      intro key
      rw [applyEvents_keyState frame keys, applyEvents_keyState frame keys', same]
    rw [applyEvents_machine frame keys, applyEvents_machine frame keys', keypads]

/-- Frames do the same under events that are the same for each key. -/
theorem framesFrom_agree (count frame renders : Nat) (ordered : FrameOrdered events)
    (ordered' : FrameOrdered events') (keys : ∀ e ∈ events, 0 ≤ e.key ∧ e.key < 16)
    (keys' : ∀ e ∈ events', 0 ≤ e.key ∧ e.key < 16)
    (same : ∀ key, eventsOf key events = eventsOf key events') (log log' : Array LogEntry) :
    (m.framesFrom s count frame renders events log).Agree Eq
      (m.framesFrom s count frame renders events' log') := by
  induction count generalizing frame renders events events' m log log' with
  | zero => exact Outcome.agree_done rfl _ _ _
  | succ count ih =>
    have sameDue (key : Fin 16) :
        eventsOf key (dueBy frame events) = eventsOf key (dueBy frame events') := by
      rw [dueBy, eventsOf_filter, same, ← eventsOf_filter, dueBy]
    have sameLater (key : Fin 16) : eventsOf key (upcoming ((frame : Int) + 1) events) =
        eventsOf key (upcoming ((frame : Int) + 1) events') := by
      rw [upcoming, eventsOf_filter, same, ← eventsOf_filter, upcoming]
    have dueKeys : ∀ e ∈ dueBy frame events, 0 ≤ e.key ∧ e.key < 16 :=
      fun e member => keys e (List.mem_of_mem_filter member)
    have dueKeys' : ∀ e ∈ dueBy frame events', 0 ≤ e.key ∧ e.key < 16 :=
      fun e member => keys' e (List.mem_of_mem_filter member)
    obtain ⟨keyAnswer, keyed⟩ := applyEvents_agree (m := m) frame dueKeys dueKeys' sameDue #[] #[]
    simp only [framesFrom, ordered.span, ordered'.span, ← keyAnswer, ← keyed]
    cases (m.applyEvents frame (dueBy frame events) #[]).answer with
    | error reason => exact Outcome.agree_refused rfl _ _ _
    | ok moved =>
      generalize (m.applyEvents frame (dueBy frame events) #[]).machine.burst s _ #[] = run
      cases run.answer with
      | error reason =>
        cases reason with
        | fault fault => exact Outcome.agree_done rfl _ _ _
        | _ => exact Outcome.agree_refused rfl _ _ _
      | ok played =>
        exact ih (frame + 1) _ (ordered.upcoming _) (ordered'.upcoming _)
          (fun e member => keys e (mem_upcoming.mp member).1)
          (fun e member => keys' e (mem_upcoming.mp member).1) sameLater _ _

/-- The level that the events of a key before a frame lead to is the one of the last of them. -/
theorem level_of_lastMove {frame : Nat} (later : 0 < frame) (key : Fin 16) (level : Bool) :
    let reached := levelBy level (eventsOf key (startedBefore frame (inFrameOrder schedule)))
    (∃ e, IsLastMove key frame schedule e ∧ reached = e.pressed) ∨
      ((∀ e ∈ schedule, ¬ e.MovesBefore key frame) ∧ reached = level) := by
  intro reached
  obtain none | ⟨earlier, last, parts⟩ :=
    List.eq_nil_or_concat (eventsOf key (startedBefore frame (inFrameOrder schedule)))
  · right
    refine ⟨?_, by simp only [reached, none]; rfl⟩
    intro e member move
    have moves := (mem_eventsOf_startedBefore later).mpr ⟨member, move⟩
    rw [none] at moves
    exact List.not_mem_nil moves
  · left
    rw [List.concat_eq_append] at parts
    refine ⟨last, isLastMove_of_concat later parts, ?_⟩
    simp only [reached, parts]
    exact levelBy_concat level earlier last

/-- On every machine that a host can bring about, two schedules that give each key the same events
in each frame lead to the same report and to the same machine. If there is a frame to run, the
machine at the end is that of the reported actions: the events of the reported frames, those from
before the first frame in the first one, each once and before the burst of its frame. When no fault
stops the run, each key ends on the level of its last event before the end, and keeps its level if
there is none. -/
theorem scheduleOrder_of_run {actions : List Action} (run : Run s (initial s) actions m)
    (count : Int) (keys : ∀ e ∈ schedule, 0 ≤ e.key ∧ e.key < 16)
    (keys' : ∀ e ∈ schedule', 0 ≤ e.key ∧ e.key < 16)
    (same : ∀ frame, ∀ key : Fin 16,
      eventsOf key (eventsAt frame schedule) = eventsOf key (eventsAt frame schedule')) :
    let played := m.runFrames s count schedule
    let played' := m.runFrames s count schedule'
    ∃ report, played.answer = .ok report ∧ played'.answer = .ok report ∧
      played'.machine = played.machine ∧
      (0 < count →
        played.machine = m.after s (report.actions s schedule) ∧
        keyMoves played.log =
          ((inFrameOrder schedule).filter fun e => decide (e.frame < (report.frames : Int))).map
            (fun e => (e.start, e)) ∧
        (report.fault = none → ∀ key : Fin 16,
          (∃ e, IsLastMove key count schedule e ∧ played.machine.keypad.down.get key = e.pressed) ∨
          ((∀ e ∈ schedule, ¬ e.MovesBefore key count) ∧
            played.machine.keypad.down.get key = m.keypad.down.get key))) := by
  intro played played'
  have ok : m.WellFormed := run.wellFormed (wellFormed_initial s)
  have ordered := frameOrdered_inFrameOrder schedule
  have orderedKeys : ∀ e ∈ inFrameOrder schedule, 0 ≤ e.key ∧ e.key < 16 :=
    fun e member => keys e (mem_inFrameOrder.mp member)
  obtain ⟨sameAnswer, sameMachine⟩ := framesFrom_agree (s := s) (m := m) count.toNat 0 0 ordered
    (frameOrdered_inFrameOrder schedule') orderedKeys
    (fun e member => keys' e (mem_inFrameOrder.mp member))
    (fun key => eventsOf_inFrameOrder fun frame => same frame key) #[] #[]
  obtain ⟨report, accounts, reached⟩ := ok.framesFrom_accounts (s := s) count.toNat 0 0 ordered
    (fun e _ => Nat.zero_le e.start) orderedKeys #[]
  refine ⟨report, accounts.answer, sameAnswer ▸ accounts.answer, sameMachine.symm, ?_⟩
  intro positive
  have some : 0 < report.frames := reached (by omega)
  refine ⟨accounts.plays.1, ?_, ?_⟩
  · have started : startedBefore report.frames (inFrameOrder schedule) =
        (inFrameOrder schedule).filter fun e => decide (e.frame < (report.frames : Int)) := by
      apply List.filter_congr
      intro e _
      rw [decide_eq_decide, KeyEvent.start]
      omega
    rw [← started]
    exact accounts.moves
  · intro finished key
    have all : (report.frames : Int) = count := by
      have counted := frames_of_finished count.toNat 0 0 (inFrameOrder schedule) #[]
        accounts.answer finished
      omega
    have level : played.machine.keypad.down.get key = _ := accounts.levels key
    rw [level, ← all]
    exact level_of_lastMove some key (m.keypad.down.get key)

/-- Two keys that go down early and up later, told in two orders. -/
theorem scheduleOrder_of_run_interleaved :
    let m := (initial {}).after {} [.load [0x12, 0x00]]
    let schedule := [⟨0, 3, true⟩, ⟨-2, 5, true⟩, ⟨0, 3, false⟩, ⟨7, 5, false⟩]
    let schedule' := [⟨7, 5, false⟩, ⟨0, 3, true⟩, ⟨0, 3, false⟩, ⟨-2, 5, true⟩]
    Run {} (initial {}) [.load [0x12, 0x00]] m ∧
      (∀ e ∈ schedule, 0 ≤ e.key ∧ e.key < 16) ∧ (∀ e ∈ schedule', 0 ≤ e.key ∧ e.key < 16) ∧
      (∀ frame, ∀ key : Fin 16,
        eventsOf key (eventsAt frame schedule) = eventsOf key (eventsAt frame schedule')) ∧
      (m.runFrames {} 3 schedule').machine = (m.runFrames {} 3 schedule).machine := by
  intro m schedule schedule'
  have run : Run {} (initial {}) [.load [0x12, 0x00]] m := Run.of_after (initial {}) _
  have keys : ∀ e ∈ schedule, 0 ≤ e.key ∧ e.key < 16 := by decide
  have keys' : ∀ e ∈ schedule', 0 ≤ e.key ∧ e.key < 16 := by decide
  have same : ∀ frame, ∀ key : Fin 16,
      eventsOf key (eventsAt frame schedule) = eventsOf key (eventsAt frame schedule') := by
    intro frame key
    simp only [schedule, schedule', eventsOf, eventsAt, List.filter_cons]
    grind
  obtain ⟨_, _, _, sameMachine, _⟩ := scheduleOrder_of_run run 3 keys keys' same
  exact ⟨run, keys, keys', same, sameMachine⟩

end Machine

end Chip8
