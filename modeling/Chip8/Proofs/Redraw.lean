import Chip8.Proofs.Effects

/-! # No redraw is lost

The redraw flag guards the frame: whatever changes the frame sets it, and only a look at it clears
it. So while it is clear the frame is the one that the host saw when it last looked, and a host that
copies the frame whenever a look tells it to has the frame of each look. A run of frames looks once
in each frame, behind the tick, and reports how many of these looks found the flag set.
-/

namespace Chip8

abbrev Frame := Vector Bool (screenWidth * screenHeight)

/-- The frame at the last look at the redraw flag, if there was one. -/
def lastSeen (tape : List Turn) : Option Frame :=
  tape.foldl (fun seen t => if t.looks then some t.machine.screen.pixels else seen) none

/-- The copy of a host that copies the frame whenever it is told that it was drawn on. -/
def hostCopy (s : Settings) (tape : List Turn) : Option Frame :=
  tape.foldl
    (fun copy t =>
      if (t.outcome s).answer = .ok (.dirty true) then some (t.after s).screen.pixels else copy)
    none

variable {s : Settings} {m m' : Machine} {tape : List Turn} {t : Turn}

theorem lastSeen_concat (tape : List Turn) (t : Turn) :
    lastSeen (tape ++ [t]) = if t.looks then some t.machine.screen.pixels else lastSeen tape :=
  List.foldl_append

theorem hostCopy_concat (s : Settings) (tape : List Turn) (t : Turn) :
    hostCopy s (tape ++ [t]) =
      if (t.outcome s).answer = .ok (.dirty true) then some (t.after s).screen.pixels
      else hostCopy s tape :=
  List.foldl_append

namespace Turn

theorem looks_iff : t.looks = true ↔ t.action = .takeDirty := by
  unfold looks
  split <;> simp_all

/-- A look tells whether the flag was set, clears it and leaves the frame alone. -/
theorem outcome_of_look (look : t.action = .takeDirty) :
    t.outcome s = .done (.dirty t.machine.isDirty) t.machine.takeDirty := by
  rw [outcome, look]
  rfl

/-- A turn after which the flag is clear, other than a look at it, has not touched the screen. -/
theorem screen_of_clean (atomic : t.action.IsAtomic) (noLook : t.action ≠ .takeDirty)
    (clean : (t.after s).isDirty = false) : (t.after s).screen = t.machine.screen := by
  cases effect s atomic with
  | executes word operation _ _ _ asked run =>
    rw [run] at clean ⊢
    have kept := Machine.run_screen (d := s.dialect) (m := t.ready)
      (Instruction.operation?_encodable asked)
    by_cases clears : operation = .clearScreen
    · rw [clears] at clean
      cases clean
    by_cases draws : ∃ x y rows : Fin 16, operation = .draw x.val y.val rows.val
    · obtain ⟨x, y, rows, rfl⟩ := draws
      simp only [Machine.run, Registers.slot_val, Outcome.lookup_ok] at clean
      cases clean
    · rw [kept clears fun x y rows same => draws ⟨x, y, rows, same⟩, screen_ready]
  | restarts memory _ _ first =>
    rw [first] at clean
    cases clean
  | ticks _ _ _ ticked =>
    rw [ticked]
    rfl
  | looks _ _ isLook _ => exact absurd isLook noLook
  | rests _ _ _ _ screen => exact screen

end Turn

namespace Machine

/-- A clear flag means that the frame is the one last seen. -/
def FrameSeen (past : List Turn) (m : Machine) : Prop :=
  m.isDirty = false → ∀ seen, lastSeen past = some seen → m.screen.pixels = seen

/-- A clear flag means that the frame is the one that the host copied. -/
def FrameCopied (s : Settings) (past : List Turn) (m : Machine) : Prop :=
  m.isDirty = false → hostCopy s past = some m.screen.pixels

/-- Up to the first look the flag is set. -/
def Unseen (past : List Turn) (m : Machine) : Prop :=
  (∀ t ∈ past, t.action ≠ .takeDirty) → m.isDirty = true

variable {past future : List Turn}

theorem FrameSeen.turn (before : FrameSeen past t.machine) (atomic : t.action.IsAtomic) :
    FrameSeen (past ++ [t]) (t.after s) := by
  intro clean seen
  rw [lastSeen_concat]
  by_cases look : t.action = .takeDirty
  · rw [if_pos (Turn.looks_iff.mpr look), Turn.after, Turn.outcome_of_look look]
    exact Option.some.inj
  · rw [if_neg (mt Turn.looks_iff.mp look)]
    intro isSeen
    have screen := Turn.screen_of_clean atomic look clean
    rw [screen]
    exact before ((congrArg Screen.dirty screen).symm.trans clean) seen isSeen

theorem FrameCopied.turn (before : FrameCopied s past t.machine) (atomic : t.action.IsAtomic) :
    FrameCopied s (past ++ [t]) (t.after s) := by
  intro clean
  rw [hostCopy_concat]
  by_cases look : t.action = .takeDirty
  · rw [Turn.after, Turn.outcome_of_look look]
    cases dirty : t.machine.isDirty with
    | true => exact if_pos rfl
    | false => exact (if_neg (by simp)).trans (before dirty)
  · have screen := Turn.screen_of_clean atomic look clean
    split
    · rfl
    · rw [screen]
      exact before ((congrArg Screen.dirty screen).symm.trans clean)

theorem Unseen.turn (before : Unseen past t.machine) (atomic : t.action.IsAtomic) :
    Unseen (past ++ [t]) (t.after s) := by
  intro noLook
  have dirty := before fun u member => noLook u (List.mem_append_left _ member)
  cases clean : (t.after s).isDirty with
  | true => rfl
  | false =>
    have screen := Turn.screen_of_clean atomic (noLook t (by simp)) clean
    rw [← clean, isDirty, screen]
    exact dirty

/-- At every moment of a course, also within its runs of frames, the redraw flag is set if a pixel
differs from what it was at the last look. -/
theorem Course.dirty_of_changed (course : Course s m tape m')
    (parted : parts s tape = past ++ t :: future) {seen : Frame}
    (isSeen : lastSeen (past ++ [t]) = some seen) {p : Pixel}
    (changed : (t.after s).screen.pixels.get p ≠ seen.get p) : (t.after s).isDirty = true := by
  have guarded := (course.in_parts.keeps_throughout FrameSeen
    (fun _ _ member before => before.turn (isAtomic_of_mem_parts member))
    (fun _ _ _ _ before => before) (fun _ _ isSeen => by cases isSeen) parted).2
  cases clean : (t.after s).isDirty with
  | true => rfl
  | false => exact absurd (congrArg (·.get p) (guarded clean seen isSeen)) changed

/-- On a machine that was just switched on, a host that follows the flag has the frame of each of
its looks, and its first look finds the flag set. -/
theorem Course.hostCopy_eq (course : Course s (initial s) tape m')
    (atomic : ∀ t ∈ tape, t.action.IsAtomic) (parted : tape = past ++ t :: future)
    (look : t.action = .takeDirty) :
    hostCopy s (past ++ [t]) = some (t.after s).screen.pixels ∧
      ((∀ u ∈ past, u.action ≠ .takeDirty) → (t.outcome s).answer = .ok (.dirty true)) := by
  have copied := (course.keeps_throughout (FrameCopied s)
    (fun _ t member before => before.turn (atomic t member)) (fun _ _ _ _ before => before)
    (fun clean => by cases clean) parted).2
  have unseen := (course.keeps_throughout Unseen
    (fun _ t member before => before.turn (atomic t member)) (fun _ _ _ _ before => before)
    (fun _ => rfl) parted).1
  rw [Turn.outcome_of_look look]
  refine ⟨copied ?_, ?_⟩
  · rw [Turn.after, Turn.outcome_of_look look]
    rfl
  · intro noLook
    rw [unseen noLook]
    rfl

/-- No redraw is lost. If a pixel differs at some moment from what it was at the last look at the
redraw flag, the flag is set at that moment. A host that copies the frame whenever a look finds the
flag set has the frame of each of its looks, from the first one on, which finds it set. A run of
frames ends each whole frame with the flag clear and reports at how many frame ends it was set. -/
theorem redraw_of_course (course : Course s m tape m') :
    (∀ past t future, parts s tape = past ++ t :: future →
      ∀ seen, lastSeen (past ++ [t]) = some seen →
        ∀ p : Pixel, (t.after s).screen.pixels.get p ≠ seen.get p → (t.after s).isDirty = true) ∧
    (m = initial s → (∀ t ∈ tape, t.action.IsAtomic) →
      ∀ past t future, tape = past ++ t :: future → t.action = .takeDirty →
        hostCopy s (past ++ [t]) = some (t.after s).screen.pixels ∧
        ((∀ u ∈ past, u.action ≠ .takeDirty) → (t.outcome s).answer = .ok (.dirty true))) ∧
    (∀ count schedule, let events := inFrameOrder schedule
      ∃ completed rest,
        m.performed s (framePlan s count schedule) = wholeFrames s events 0 completed ++ rest ∧
        (∀ a ∈ rest, a ∈ frameBody s events completed) ∧
        (m.runFrames s count schedule).machine =
          m.after s (wholeFrames s events 0 completed ++ rest) ∧
        (∀ frame < completed, (m.after s (wholeFrames s events 0 (frame + 1))).isDirty = false) ∧
        ∀ report, (m.runFrames s count schedule).answer = .ok report →
          report.completed = completed ∧
          report.renders = (List.range completed).countP fun frame =>
            (m.frameEnd s events frame).isDirty) := by
  refine ⟨?_, ?_, ?_⟩
  · intro past t future parted seen isSeen p changed
    exact course.dirty_of_changed parted isSeen changed
  · rintro rfl atomic past t future parted look
    exact course.hostCopy_eq atomic parted look
  · intro count schedule events
    obtain ⟨completed, rest, performed, within, reports⟩ := runFrames_performs s m count schedule
    have machine := (runFrames_enacts s m count schedule).machine
    rw [performed] at machine
    refine ⟨completed, rest, performed, within, machine, ?_, reports⟩
    intro frame _
    rw [wholeFrames_concat, after_append, after_append]
    rfl

/-- A lit frame is seen and then cleared, which the flag shows; and a host has the frame of its
first look at a new machine. -/
theorem redraw_of_course_cleared :
    let lit := { initial {} with screen := ⟨Vector.replicate _ true, false⟩ }
    let cleared : Turn := ⟨lit.takeDirty, .execute 0x00E0⟩
    let first : Turn := ⟨initial {}, .takeDirty⟩
    Course {} lit [⟨lit, .takeDirty⟩, cleared] (cleared.after {}) ∧
      (cleared.after {}).screen.pixels.get 0 ≠ lit.screen.pixels.get 0 ∧
      (cleared.after {}).isDirty = true ∧
      Course {} (initial {}) [first] (first.after {}) ∧
      hostCopy {} [first] = some (initial {}).screen.pixels ∧
      (first.outcome {}).answer = .ok (.dirty true) := by
  intro lit cleared first
  have course : Course {} lit [⟨lit, .takeDirty⟩, cleared] (cleared.after {}) :=
    Course.of_tape {} lit [.takeDirty, .execute 0x00E0]
  have new : Course {} (initial {}) [first] (first.after {}) :=
    Course.of_tape {} (initial {}) [.takeDirty]
  have changed : (cleared.after {}).screen.pixels.get 0 ≠ lit.screen.pixels.get 0 := by
    change (Vector.replicate _ false).get 0 ≠ (Vector.replicate _ true).get 0
    simp [Vector.get]
  have dirty := (redraw_of_course course).1 [⟨lit, .takeDirty⟩] cleared [] rfl _ rfl 0 changed
  obtain ⟨copied, found⟩ := (redraw_of_course new).2.1 rfl (by simp [first, Action.IsAtomic])
    [] first [] rfl rfl
  exact ⟨course, changed, dirty, new, copied, found (by simp)⟩

end Machine

end Chip8
