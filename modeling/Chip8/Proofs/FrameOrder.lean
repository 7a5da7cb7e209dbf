import Mathlib.Data.List.Basic
import Mathlib.Data.List.TakeDrop
import Chip8.Schedule

/-! # The frame order of a schedule

Events in frame order keep, within each frame, the order that the schedule gives them. These two
facts determine the order, so it does not matter whether events are selected before or after they
are put in order, and moving all events by the same number of frames moves the order with them.
-/

namespace Chip8

/-- Events by frame, no frame before an earlier one. -/
abbrev FrameOrdered (events : List KeyEvent) : Prop :=
  events.Pairwise fun a b => a.frame ≤ b.frame

def eventsAt (frame : Int) (events : List KeyEvent) : List KeyEvent :=
  events.filter fun e => decide (e.frame = frame)

def dueBy (frame : Int) (events : List KeyEvent) : List KeyEvent :=
  events.filter fun e => decide (e.frame ≤ frame)

/-- The events of a frame and of those after it. -/
def upcoming (frame : Int) (events : List KeyEvent) : List KeyEvent :=
  events.filter fun e => decide (frame ≤ e.frame)

def KeyEvent.countedFrom (e : KeyEvent) (frame : Int) : KeyEvent :=
  { e with frame := e.frame - frame }

/-- What a schedule still has to say from a frame on, counted from that frame. -/
def eventsFrom (frame : Int) (events : List KeyEvent) : List KeyEvent :=
  (upcoming frame events).map (·.countedFrom frame)

variable {events : List KeyEvent}

theorem mem_eventsAt {frame : Int} {e : KeyEvent} :
    e ∈ eventsAt frame events ↔ e ∈ events ∧ e.frame = frame := by
  simp [eventsAt]

theorem mem_upcoming {frame : Int} {e : KeyEvent} :
    e ∈ upcoming frame events ↔ e ∈ events ∧ frame ≤ e.frame := by
  simp [upcoming]

theorem upcoming_eq_self {frame : Int} (all : ∀ e ∈ events, frame ≤ e.frame) :
    upcoming frame events = events :=
  List.filter_eq_self.mpr (by simpa using all)

theorem upcoming_upcoming {frame later : Int} (events : List KeyEvent) (order : frame ≤ later) :
    upcoming later (upcoming frame events) = upcoming later events := by
  rw [upcoming, upcoming, List.filter_filter, upcoming]
  apply List.filter_congr
  intro e _
  rw [← Bool.decide_and, decide_eq_decide]
  omega

theorem perm_inFrameOrder (events : List KeyEvent) : (inFrameOrder events).Perm events :=
  List.mergeSort_perm _ _

theorem mem_inFrameOrder {e : KeyEvent} : e ∈ inFrameOrder events ↔ e ∈ events :=
  (perm_inFrameOrder events).mem_iff

section Order

private theorem frameLe_trans (a b c : KeyEvent) (first : decide (a.frame ≤ b.frame))
    (second : decide (b.frame ≤ c.frame)) : decide (a.frame ≤ c.frame) :=
  decide_eq_true (Int.le_trans (of_decide_eq_true first) (of_decide_eq_true second))

private theorem frameLe_total (a b : KeyEvent) :
    decide (a.frame ≤ b.frame) || decide (b.frame ≤ a.frame) := by
  simpa using Int.le_total a.frame b.frame

theorem frameOrdered_inFrameOrder (events : List KeyEvent) : FrameOrdered (inFrameOrder events) :=
  (List.pairwise_mergeSort frameLe_trans frameLe_total events).imp of_decide_eq_true

/-- The events of one frame stay in the order of the schedule. -/
theorem eventsAt_inFrameOrder (frame : Int) (events : List KeyEvent) :
    eventsAt frame (inFrameOrder events) = eventsAt frame events := by
  have oneFrame : (eventsAt frame events).Pairwise fun a b => decide (a.frame ≤ b.frame) := by
    apply List.pairwise_of_forall_mem_list
    intro a inA b inB
    simp [(mem_eventsAt.mp inA).2, (mem_eventsAt.mp inB).2]
  have kept : (eventsAt frame events).Sublist (inFrameOrder events) :=
    List.sublist_mergeSort frameLe_trans frameLe_total oneFrame List.filter_sublist
  have selected : (eventsAt frame events).Sublist (eventsAt frame (inFrameOrder events)) := by
    have twice := kept.filter fun e => decide (e.frame = frame)
    simpa only [eventsAt, List.filter_filter, Bool.and_self] using twice
  exact (selected.eq_of_length ((perm_inFrameOrder events).filter _).length_eq.symm).symm

end Order

/-- No event comes before the first one. -/
theorem FrameOrdered.head_le {first e : KeyEvent} (ordered : FrameOrdered (first :: events))
    (member : e ∈ first :: events) : first.frame ≤ e.frame := by
  cases member with
  | head => exact Int.le_refl _
  | tail _ later => exact List.rel_of_pairwise_cons ordered later

/-- Schedules that agree on each frame have the same events. -/
theorem mem_iff_of_eventsAt {events' : List KeyEvent}
    (same : ∀ frame, eventsAt frame events = eventsAt frame events') (e : KeyEvent) :
    e ∈ events ↔ e ∈ events' := by
  have atFrame : e ∈ eventsAt e.frame events ↔ e ∈ eventsAt e.frame events' := by
    rw [same]
  simpa [mem_eventsAt] using atFrame

/-- A list in frame order is determined by the events of each frame. -/
theorem FrameOrdered.eq_of_eventsAt {events' : List KeyEvent} (ordered : FrameOrdered events)
    (ordered' : FrameOrdered events')
    (same : ∀ frame, eventsAt frame events = eventsAt frame events') : events = events' := by
  induction events generalizing events' with
  | nil =>
    cases events' with
    | nil => rfl
    | cons e' rest' => simpa using mem_iff_of_eventsAt same e'
  | cons e rest ih =>
    cases events' with
    | nil => simpa using mem_iff_of_eventsAt same e
    | cons e' rest' =>
      have frames : e.frame = e'.frame := Int.le_antisymm
        (ordered.head_le ((mem_iff_of_eventsAt same e').mpr (List.mem_cons_self ..)))
        (ordered'.head_le ((mem_iff_of_eventsAt same e).mp (List.mem_cons_self ..)))
      have heads := same e.frame
      simp only [eventsAt, List.filter_cons, frames, decide_true, if_true] at heads
      obtain ⟨rfl, _⟩ := List.cons.inj heads
      congr 1
      apply ih ordered.of_cons ordered'.of_cons
      intro frame
      have both := same frame
      simp only [eventsAt, List.filter_cons] at both ⊢
      split at both
      · exact (List.cons.inj both).2
      · exact both

/-- Selecting events keeps them in order. -/
theorem inFrameOrder_filter (selected : KeyEvent → Bool) (events : List KeyEvent) :
    inFrameOrder (events.filter selected) = (inFrameOrder events).filter selected := by
  apply (frameOrdered_inFrameOrder _).eq_of_eventsAt ((frameOrdered_inFrameOrder _).filter _)
  intro frame
  rw [eventsAt_inFrameOrder]
  have atFrame := congrArg (List.filter selected) (eventsAt_inFrameOrder frame events)
  simpa only [eventsAt, List.filter_comm selected] using atFrame.symm

/-- Counting all events from one frame leaves them in order. -/
theorem inFrameOrder_countedFrom (frame : Int) (events : List KeyEvent) :
    inFrameOrder (events.map (·.countedFrom frame)) =
      (inFrameOrder events).map (·.countedFrom frame) := by
  symm
  apply List.map_mergeSort
  intro a _ b _
  simp [KeyEvent.countedFrom]

/-- Counted from a frame, events are due as many frames earlier. -/
theorem span_countedFrom (n frame : Nat) (events : List KeyEvent) :
    (events.map (·.countedFrom n)).span (fun e => decide (e.frame ≤ (frame : Int))) =
      let parts := events.span fun e => decide (e.frame ≤ ((n + frame : Nat) : Int))
      (parts.1.map (·.countedFrom n), parts.2.map (·.countedFrom n)) := by
  have shifted (e : KeyEvent) : decide ((e.countedFrom n).frame ≤ (frame : Int)) =
      decide (e.frame ≤ ((n + frame : Nat) : Int)) := by
    have counted : (e.countedFrom n).frame = e.frame - n := rfl
    rw [counted, decide_eq_decide]
    omega
  simp only [List.span_eq_takeWhile_dropWhile, List.takeWhile_map, List.dropWhile_map,
    Function.comp_def, shifted]

theorem inFrameOrder_eventsFrom (frame : Int) (events : List KeyEvent) :
    inFrameOrder (eventsFrom frame events) = eventsFrom frame (inFrameOrder events) := by
  rw [eventsFrom, inFrameOrder_countedFrom, upcoming, inFrameOrder_filter, ← upcoming, eventsFrom]

theorem FrameOrdered.upcoming (ordered : FrameOrdered events) (frame : Int) :
    FrameOrdered (upcoming frame events) :=
  ordered.filter _

/-- In frame order the events that are due come first, and the others follow. -/
theorem FrameOrdered.span (ordered : FrameOrdered events) (frame : Int) :
    events.span (fun e => decide (e.frame ≤ frame)) =
      (dueBy frame events, Chip8.upcoming (frame + 1) events) := by
  rw [List.span_eq_takeWhile_dropWhile, dueBy, Chip8.upcoming]
  induction events with
  | nil => rfl
  | cons e rest ih =>
    obtain ⟨dueRest, laterRest⟩ := Prod.mk.inj (ih ordered.of_cons)
    by_cases due : e.frame ≤ frame
    · have passed : ¬ frame + 1 ≤ e.frame := by omega
      simp only [List.takeWhile_cons, List.dropWhile_cons, List.filter_cons, due, passed,
        decide_true, decide_false, Bool.false_eq_true, if_true, if_false, dueRest, laterRest]
    · have ahead : ∀ a ∈ e :: rest, decide (frame + 1 ≤ a.frame) := by
        intro a member
        have := ordered.head_le member
        rw [decide_eq_true_eq]
        omega
      have noneDue : ∀ a ∈ e :: rest, ¬ decide (a.frame ≤ frame) := by
        intro a member
        have := ordered.head_le member
        rw [decide_eq_true_eq]
        omega
      rw [List.filter_eq_nil_iff.mpr noneDue, List.filter_eq_self.mpr ahead]
      simp only [List.takeWhile_cons, List.dropWhile_cons, due, decide_false, Bool.false_eq_true,
        if_false]

end Chip8
