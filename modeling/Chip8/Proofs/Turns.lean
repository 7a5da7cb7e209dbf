import Chip8.Proofs.FrameActions

/-! # The turns of a run of frames

A turn is an action and the machine that it is performed on. A run of frames follows a plan, the
key events, steps, ticks and looks at the redraw flag of its frames, up to the first action that is
refused. So it has turns of its own: they lead to its machine, they and the refusal make its
report, and its trace entries are theirs.
-/

namespace Chip8

/-- An action and the machine that it is performed on. -/
structure Turn where
  machine : Machine
  action : Action

/-- An action that is done at once: all but a run of frames. -/
def Action.IsAtomic : Action → Prop
  | .frames _ _ => False
  | .load _ | .reset | .step | .setKey _ _ | .tick | .takeDirty | .execute _ => True

theorem Action.IsElementary.isAtomic {a : Action} (elementary : a.IsElementary) : a.IsAtomic := by
  cases a <;> trivial

def tracesIn (log : List LogEntry) : List LogEntry := log.filter LogEntry.isTrace

@[simp] theorem tracesIn_nil : tracesIn [] = [] := rfl

theorem tracesIn_append (first second : List LogEntry) :
    tracesIn (first ++ second) = tracesIn first ++ tracesIn second :=
  List.filter_append ..

/-- What a run of frames is meant to do. -/
def framePlan (s : Settings) (count : Int) (schedule : List KeyEvent) : List Action :=
  wholeFrames s (inFrameOrder schedule) 0 count.toNat

namespace Machine

/-- The turns of some actions performed one after the other, whether or not they are refused. -/
def tape (s : Settings) (m : Machine) : List Action → List Turn
  | [] => []
  | a :: rest => ⟨m, a⟩ :: (m.perform s a).machine.tape s rest

/-- The actions of a plan up to the first one that is refused, and with it. -/
def performed (s : Settings) (m : Machine) : List Action → List Action
  | [] => []
  | a :: rest =>
      a :: match (m.perform s a).answer with
        | .ok _ => (m.perform s a).machine.performed s rest
        | .error _ => []

/-- The refusal that ends a plan. -/
def obstacle (s : Settings) (m : Machine) : List Action → Option Refusal
  | [] => none
  | a :: rest =>
      match (m.perform s a).answer with
      | .ok _ => (m.perform s a).machine.obstacle s rest
      | .error reason => some reason

/-- The machine at the end of a frame, between its tick and its look at the redraw flag. -/
def frameEnd (s : Settings) (events : List KeyEvent) (m : Machine) (frame : Nat) : Machine :=
  m.after s (wholeFrames s events 0 frame ++ (frameBody s events frame ++ [.tick]))

end Machine

namespace Turn

def outcome (s : Settings) (t : Turn) : Outcome Reply := t.machine.perform s t.action

def after (s : Settings) (t : Turn) : Machine := (t.outcome s).machine

/-- The turns that a turn is made of: those of its plan if it is a run of frames. -/
def parts (s : Settings) (t : Turn) : List Turn :=
  match t.action with
  | .frames count schedule => t.machine.tape s (t.machine.performed s (framePlan s count schedule))
  | _ => [t]

/-- The host looks at the redraw flag. -/
def looks (t : Turn) : Bool :=
  match t.action with
  | .takeDirty => true
  | _ => false

/-- The host looks at the redraw flag and finds it set. -/
def findsDirty (t : Turn) : Bool := t.looks && t.machine.isDirty

end Turn

def parts (s : Settings) (tape : List Turn) : List Turn := tape.flatMap (Turn.parts s)

/-- The answer of a plan that was ended by an obstacle or by none. -/
def planAnswer (_ : List Turn) (obstacle : Option Refusal) : Except Refusal Unit :=
  obstacle.elim (.ok ()) .error

/-- The answer of frames that come on top of others: every frame that was run to its end had one
look at the redraw flag. -/
def frameAnswer (frame renders : Nat) (tape : List Turn) :
    Option Refusal → Except Refusal FrameReport
  | none => .ok ⟨frame + tape.countP Turn.looks, renders + tape.countP Turn.findsDirty, none⟩
  | some (.fault fault) =>
      .ok ⟨frame + tape.countP Turn.looks + 1, renders + tape.countP Turn.findsDirty, some fault⟩
  | some reason => .error reason

namespace Machine

variable {s : Settings} {m m' : Machine} {first second plan : List Action}

section Plan

theorem tape_append (s : Settings) (m : Machine) (first second : List Action) :
    m.tape s (first ++ second) = m.tape s first ++ (m.after s first).tape s second := by
  induction first generalizing m with
  | nil => rfl
  | cons a rest ih => simp only [List.cons_append, tape, ih, after_cons]

theorem map_action_tape (s : Settings) (m : Machine) (actions : List Action) :
    (m.tape s actions).map Turn.action = actions := by
  induction actions generalizing m with
  | nil => rfl
  | cons a rest ih => rw [tape, List.map_cons, ih]

theorem action_mem_of_mem_tape {t : Turn} {actions : List Action} (member : t ∈ m.tape s actions) :
    t.action ∈ actions := by
  rw [← map_action_tape s m actions]
  exact List.mem_map_of_mem member

/-- Without a refusal the whole plan is performed, and what is planned behind it comes next. -/
theorem performed_append_of_clear (clear : m.obstacle s first = none) (second : List Action) :
    m.performed s (first ++ second) = first ++ (m.after s first).performed s second ∧
      m.obstacle s (first ++ second) = (m.after s first).obstacle s second := by
  induction first generalizing m with
  | nil => exact ⟨rfl, rfl⟩
  | cons a rest ih =>
    cases answer : (m.perform s a).answer with
    | ok reply =>
      simp only [obstacle, answer] at clear
      obtain ⟨performedThen, obstacleThen⟩ := ih clear
      simp only [List.cons_append, performed, obstacle, answer, performedThen, obstacleThen,
        after_cons, and_self]
    | error reason =>
      simp only [obstacle, answer] at clear
      cases clear

/-- A refusal ends the plan, whatever is planned behind it. -/
theorem performed_append_of_obstacle {reason : Refusal}
    (refused : m.obstacle s first = some reason) (second : List Action) :
    m.performed s (first ++ second) = m.performed s first ∧
      m.obstacle s (first ++ second) = some reason := by
  induction first generalizing m with
  | nil => cases refused
  | cons a rest ih =>
    cases answer : (m.perform s a).answer with
    | ok reply =>
      simp only [obstacle, answer] at refused
      obtain ⟨performedThen, obstacleThen⟩ := ih refused
      simp only [List.cons_append, performed, obstacle, answer, performedThen, obstacleThen,
        and_self]
    | error reason' =>
      simp only [obstacle, answer] at refused
      simp only [List.cons_append, performed, obstacle, answer, refused, and_self]

theorem performed_of_clear (clear : m.obstacle s plan = none) : m.performed s plan = plan := by
  have whole := (performed_append_of_clear clear []).1
  simpa only [List.append_nil, performed] using whole

/-- Only actions of the plan are performed. -/
theorem mem_of_mem_performed {a : Action} (member : a ∈ m.performed s plan) : a ∈ plan := by
  induction plan generalizing m with
  | nil => exact member
  | cons b rest ih =>
    simp only [performed, List.mem_cons] at member ⊢
    refine member.imp_right fun later => ?_
    split at later
    · exact ih later
    · exact absurd later List.not_mem_nil

end Plan

/-- An outcome that a plan leads to: it is performed up to the first refusal, its turns and that
refusal make the answer, and the turns add their trace entries to those from before. -/
structure Enacts {α : Type} (s : Settings) (m : Machine) (plan : List Action)
    (before : List LogEntry) (answerOf : List Turn → Option Refusal → Except Refusal α)
    (o : Outcome α) : Prop where
  answer : o.answer = answerOf (m.tape s (m.performed s plan)) (m.obstacle s plan)
  machine : o.machine = m.after s (m.performed s plan)
  traces : tracesIn o.log =
    before ++ (m.tape s (m.performed s plan)).flatMap fun t => tracesIn (t.outcome s).log

namespace Enacts

variable {α : Type} {before : List LogEntry} {o : Outcome Unit} {o' : Outcome α}
  {answerOf answerThen : List Turn → Option Refusal → Except Refusal α}

/-- A part of a plan goes through, and the rest is enacted after it. -/
theorem append_of_clear (clear : m.obstacle s first = none)
    (counted : ∀ tape, answerOf (m.tape s first ++ tape) = answerThen tape)
    (rest : Enacts s (m.after s first) second
      (before ++ (m.tape s first).flatMap fun t => tracesIn (t.outcome s).log) answerThen o') :
    Enacts s m (first ++ second) before answerOf o' := by
  obtain ⟨performed, obstacle⟩ := performed_append_of_clear clear second
  refine ⟨?_, ?_, ?_⟩
  · rw [performed, obstacle, tape_append, counted]
    exact rest.answer
  · rw [performed, after_append]
    exact rest.machine
  · rw [performed, tape_append, List.flatMap_append, ← List.append_assoc]
    exact rest.traces

/-- A part of a plan is refused, which ends it. -/
theorem append_of_obstacle {reason : Refusal} (refused : m.obstacle s first = some reason)
    (part : Enacts s m first before answerOf o') :
    Enacts s m (first ++ second) before answerOf o' := by
  obtain ⟨performed, obstacle⟩ := performed_append_of_obstacle refused second
  refine ⟨?_, ?_, ?_⟩
  · rw [performed, obstacle, ← refused]
    exact part.answer
  · rw [performed]
    exact part.machine
  · rw [performed]
    exact part.traces

/-- Entries that were logged before. -/
theorem prepend (part : Enacts s m plan [] answerOf o') (log : List LogEntry) :
    Enacts s m plan (tracesIn log) answerOf ⟨o'.answer, o'.machine, log ++ o'.log⟩ := by
  refine ⟨part.answer, part.machine, ?_⟩
  rw [tracesIn_append, part.traces, List.nil_append]

theorem obstacle_of_ok (enacts : Enacts s m plan before planAnswer o)
    (finished : o.answer = .ok ()) : m.obstacle s plan = none := by
  have answer := enacts.answer
  rw [finished, planAnswer] at answer
  cases obstacle : m.obstacle s plan with
  | none => rfl
  | some reason =>
    rw [obstacle] at answer
    cases answer

theorem obstacle_of_error {reason : Refusal} (enacts : Enacts s m plan before planAnswer o)
    (refused : o.answer = .error reason) : m.obstacle s plan = some reason := by
  have answer := enacts.answer
  rw [refused, planAnswer] at answer
  cases obstacle : m.obstacle s plan with
  | none =>
    rw [obstacle] at answer
    cases answer
  | some reason' =>
    rw [obstacle] at answer
    cases answer
    rfl

theorem nil (m : Machine) (log : List LogEntry) :
    Enacts s m [] (tracesIn log) planAnswer (.done () m log) :=
  ⟨rfl, rfl, (List.append_nil _).symm⟩

/-- The first action of a plan goes through. -/
theorem cons {a : Action} {reply : Reply} (finished : (m.perform s a).answer = .ok reply)
    (rest : Enacts s (m.perform s a).machine plan (before ++ tracesIn (m.perform s a).log)
      planAnswer o) :
    Enacts s m (a :: plan) before planAnswer o := by
  have clear : m.obstacle s [a] = none := by simp only [obstacle, finished]
  have same (tape : List Turn) : planAnswer (m.tape s [a] ++ tape) = planAnswer tape := rfl
  have whole : Enacts s m ([a] ++ plan) before planAnswer o := by
    refine append_of_clear clear same ?_
    simpa [tape, Turn.outcome] using rest
  exact whole

/-- The first action of a plan is refused. -/
theorem of_refused {a : Action} {reason : Refusal} {log : List LogEntry}
    (refused : (m.perform s a).answer = .error reason)
    (traces : tracesIn log = before ++ tracesIn (m.perform s a).log) :
    Enacts s m (a :: plan) before planAnswer (.refused reason (m.perform s a).machine log) := by
  refine ⟨?_, ?_, ?_⟩
  · simp only [obstacle, refused]
    rfl
  · simp only [performed, refused]
    rfl
  · simp only [performed, refused, tape, List.flatMap_cons, List.flatMap_nil, List.append_nil]
    exact traces

end Enacts

/-- On a halted machine steps go through and do nothing. -/
theorem enacts_of_halted (halted : m.mode = .halted) (n : Nat) (log : List LogEntry) :
    Enacts s m (List.replicate n .step) (tracesIn log) planAnswer (.done () m log) := by
  have idle : m.perform s .step = .done (.event .halted) m := by
    rw [perform, step_of_halted s halted]
    rfl
  induction n with
  | zero => exact .nil m log
  | succ n ih =>
    rw [List.replicate_succ]
    refine .cons (congrArg Outcome.answer idle) ?_
    rw [idle, Outcome.machine_done, Outcome.log_done, tracesIn_nil, List.append_nil]
    exact ih

/-- A burst enacts its steps. Those behind the first step that finds the machine halted are left
out, but they would do nothing. -/
theorem burst_enacts (n : Nat) (log : Array LogEntry) :
    Enacts s m (List.replicate n .step) (tracesIn log.toList) planAnswer
      (m.burst s n log) := by
  induction n generalizing m log with
  | zero => exact .nil m log.toList
  | succ n ih =>
    have answer : (m.perform s .step).answer = (m.step s).answer.map .event := rfl
    have logged : tracesIn (log ++ (m.step s).log).toList =
        tracesIn log.toList ++ tracesIn (m.perform s .step).log := by
      rw [Array.toList_appendList, tracesIn_append]
      rfl
    simp only [burst]
    split
    · next reason failed =>
      rw [failed] at answer
      exact .of_refused answer logged
    · next finished =>
      have halted := halted_of_answer finished
      have idle : m.step s = .done .halted m := step_of_halted s halted
      simpa [idle] using enacts_of_halted (s := s) halted (n + 1) log.toList
    · next event _ finished =>
      rw [finished] at answer
      refine .cons answer ?_
      rw [← logged]
      exact ih _

/-- Applied events enact the actions of these events. -/
theorem applyEvents_enacts (frame : Nat) (events : List KeyEvent) (log : Array LogEntry) :
    Enacts s m (events.map KeyEvent.action) (tracesIn log.toList) planAnswer
      (m.applyEvents frame events log) := by
  induction events generalizing m log with
  | nil => exact .nil m log.toList
  | cons e rest ih =>
    have answer : (m.perform s e.action).answer =
      (m.setKey e.key e.pressed).answer.map fun _ => .nothing := rfl
    have quiet : tracesIn (m.perform s e.action).log = [] := by
      change tracesIn (m.setKey e.key e.pressed).log = []
      unfold setKey
      cases m.keypad.setKey e.key e.pressed <;> rfl
    simp only [applyEvents]
    split
    · next reason failed =>
      rw [failed] at answer
      exact .of_refused answer (by rw [quiet, List.append_nil])
    · next finished =>
      have noted : tracesIn (log.push (.keyMoved frame e)).toList = tracesIn log.toList := by
        rw [Array.toList_push, tracesIn_append]
        exact List.append_nil _
      rw [finished] at answer
      refine .cons answer ?_
      rw [quiet, List.append_nil, ← noted]
      exact ih _

/-- Key events are refused because a key does not exist, never because of a fault. -/
theorem applyEvents_ne_fault (frame : Nat) (events : List KeyEvent) (log : Array LogEntry)
    (fault : Fault) : (m.applyEvents frame events log).answer ≠ .error (.fault fault) := by
  induction events generalizing m log with
  | nil => simp [applyEvents]
  | cons e rest ih =>
    simp only [applyEvents]
    split
    · next reason failed =>
      rw [Outcome.answer_refused]
      rintro ⟨⟩
      simp only [setKey, Keypad.setKey] at failed
      split at failed <;> cases failed
    · exact ih _

section Frames

variable {pending : List KeyEvent}

/-- Without a look at the redraw flag the counts of looks stay. -/
theorem countP_looks_eq_zero {actions : List Action} (noLook : .takeDirty ∉ actions) :
    (m.tape s actions).countP Turn.looks = 0 ∧ (m.tape s actions).countP Turn.findsDirty = 0 := by
  have none : ∀ t ∈ m.tape s actions, t.looks = false := by
    intro t member
    unfold Turn.looks
    split
    · next isLook => exact absurd (isLook ▸ action_mem_of_mem_tape member) noLook
    · rfl
  constructor
  · apply List.countP_eq_zero.mpr
    intro t member
    simp [none t member]
  · apply List.countP_eq_zero.mpr
    intro t member
    simp [Turn.findsDirty, none t member]

theorem takeDirty_notMem_frameBody (frame : Nat) : .takeDirty ∉ frameBody s pending frame := by
  simp [frameBody, KeyEvent.action]

/-- The body of a frame enacts its key events and steps. -/
theorem frameBody_enacts (frame : Nat) {keyed run : Outcome Unit}
    (isKeyed : m.applyEvents frame (startingAt frame pending) #[] = keyed)
    (isRun : keyed.machine.burst s s.cyclesPerFrame.toNat #[] = run)
    (moved : keyed.answer = .ok ()) :
    Enacts s m (frameBody s pending frame) [] planAnswer
      ⟨run.answer, run.machine, keyed.log ++ run.log⟩ := by
  have events : Enacts s m ((startingAt frame pending).map KeyEvent.action) [] planAnswer keyed :=
    isKeyed ▸ applyEvents_enacts frame (startingAt frame pending) #[]
  have steps : Enacts s keyed.machine (List.replicate s.cyclesPerFrame.toNat .step) [] planAnswer
      run := isRun ▸ burst_enacts s.cyclesPerFrame.toNat #[]
  have clear := events.obstacle_of_ok moved
  have machine := events.machine
  have traces := events.traces
  rw [performed_of_clear clear] at machine traces
  apply Enacts.append_of_clear clear (fun _ => rfl)
  rw [← machine, ← traces]
  exact steps.prepend keyed.log

/-- A frame that is run to its end has one look at the redraw flag, behind its tick. -/
theorem countP_wholeFrame (frame : Nat) :
    let tape := m.tape s (frameBody s pending frame ++ [.tick, .takeDirty])
    tape.countP Turn.looks = 1 ∧
      tape.countP Turn.findsDirty =
        if (m.after s (frameBody s pending frame ++ [.tick])).isDirty then 1 else 0 := by
  intro tape
  obtain ⟨looks, finds⟩ := countP_looks_eq_zero (s := s) (m := m)
    (takeDirty_notMem_frameBody frame : .takeDirty ∉ frameBody s pending frame)
  have behind (m : Machine) :
      m.tape s [.tick, .takeDirty] = [⟨m, .tick⟩, ⟨m.tick, .takeDirty⟩] := rfl
  have ended : m.after s (frameBody s pending frame ++ [.tick]) =
      (m.after s (frameBody s pending frame)).tick := after_append ..
  constructor
  · simp [tape, tape_append, List.countP_append, List.countP_cons, looks, behind, Turn.looks]
  · simp [tape, tape_append, List.countP_append, List.countP_cons, finds, behind, ended,
      Turn.findsDirty, Turn.looks]

theorem frameAnswer_wholeFrame (frame renders : Nat) (tape : List Turn) :
    frameAnswer frame renders
        (m.tape s (frameBody s pending frame ++ [.tick, .takeDirty]) ++ tape) =
      frameAnswer (frame + 1)
        (if (m.after s (frameBody s pending frame ++ [.tick])).isDirty then renders + 1
          else renders)
        tape := by
  obtain ⟨looks, finds⟩ := @countP_wholeFrame s m pending frame
  have counted : (if (m.after s (frameBody s pending frame ++ [.tick])).isDirty then renders + 1
      else renders) =
        renders + if (m.after s (frameBody s pending frame ++ [.tick])).isDirty then 1 else 0 := by
    split <;> rfl
  funext obstacle
  cases obstacle with
  | none => simp only [frameAnswer, List.countP_append, looks, finds, counted, Nat.add_assoc]
  | some reason =>
    cases reason <;>
      simp only [frameAnswer, List.countP_append, looks, finds, counted, Nat.add_assoc]

/-- A refusal that is no fault ends a run of frames with it. -/
theorem Enacts.refused_frames {o : Outcome Unit} {reason : Refusal} {plan : List Action}
    (part : Enacts s m plan [] planAnswer o) (failed : o.answer = .error reason)
    (noFault : ∀ fault, reason ≠ .fault fault) (frame renders : Nat) (log : List LogEntry) :
    Enacts s m plan (tracesIn log) (frameAnswer frame renders)
      (.refused reason o.machine (log ++ o.log)) := by
  refine ⟨?_, part.machine, (part.prepend log).traces⟩
  rw [part.obstacle_of_error failed]
  cases reason with
  | fault fault => exact absurd rfl (noFault fault)
  | _ => rfl

/-- A fault ends a run of frames within its frame, and the run reports it. -/
theorem Enacts.faulted_frames {o : Outcome Unit} {fault : Fault} {plan : List Action}
    (part : Enacts s m plan [] planAnswer o) (failed : o.answer = .error (.fault fault))
    (noLook : .takeDirty ∉ plan) (frame renders : Nat) (log : List LogEntry) :
    Enacts s m plan (tracesIn log) (frameAnswer frame renders)
      (.done ⟨frame + 1, renders, some fault⟩ o.machine
        (log ++ o.log ++ [.framesStopped frame fault])) := by
  obtain ⟨looks, finds⟩ := countP_looks_eq_zero (s := s) (m := m)
    fun member => noLook (mem_of_mem_performed (s := s) (m := m) member)
  refine ⟨?_, part.machine, ?_⟩
  · rw [part.obstacle_of_error failed, frameAnswer, looks, finds]
    rfl
  · rw [Outcome.log_done, tracesIn_append, (part.prepend log).traces]
    exact List.append_nil _

/-- A frame is run to its end, with a tick and a look at the redraw flag behind its body, and the
frames after it go on from there. -/
theorem Enacts.whole_frame {o : Outcome Unit} {o' : Outcome FrameReport} {plan : List Action}
    {frame : Nat} (body : Enacts s m (frameBody s pending frame) [] planAnswer o)
    (finished : o.answer = .ok ()) (renders : Nat) (log : List LogEntry)
    (later : Enacts s o.machine.tick.takeDirty plan (tracesIn (log ++ o.log))
      (frameAnswer (frame + 1) (if o.machine.tick.isDirty then renders + 1 else renders)) o') :
    Enacts s m (frameBody s pending frame ++ [.tick, .takeDirty] ++ plan) (tracesIn log)
      (frameAnswer frame renders) o' := by
  have clear := body.obstacle_of_ok finished
  have machine := body.machine
  have traces := (body.prepend log).traces
  rw [performed_of_clear clear] at machine traces
  have clearThen : m.obstacle s (frameBody s pending frame ++ [.tick, .takeDirty]) = none := by
    rw [(performed_append_of_clear clear _).2]
    rfl
  have quiet : (o.machine.tape s [.tick, .takeDirty]).flatMap
      (fun t => tracesIn (t.outcome s).log) = [] := rfl
  have ticked : m.after s (frameBody s pending frame ++ [.tick]) = o.machine.tick := by
    rw [after_append, ← machine]
    rfl
  apply Enacts.append_of_clear clearThen (frameAnswer_wholeFrame frame renders)
  rw [ticked, after_append, ← machine, tape_append, List.flatMap_append, ← List.append_assoc,
    ← traces, ← machine, quiet, List.append_nil]
  exact later

/-- A run of frames enacts its plan. -/
theorem framesFrom_enacts (count frame renders : Nat) (ordered : FrameOrdered pending)
    (ahead : ∀ e ∈ pending, frame ≤ e.start) (log : Array LogEntry) :
    Enacts s m (wholeFrames s pending frame count) (tracesIn log.toList)
      (frameAnswer frame renders) (m.framesFrom s count frame renders pending log) := by
  induction count generalizing frame renders pending m log with
  | zero => exact ⟨rfl, rfl, (List.append_nil _).symm⟩
  | succ count ih =>
    rw [wholeFrames_succ]
    simp only [framesFrom, ordered.span, dueBy_eq_startingAt ahead]
    generalize isKeyed : m.applyEvents frame (startingAt frame pending) #[] = keyed
    generalize isRun : keyed.machine.burst s s.cyclesPerFrame.toNat #[] = run
    cases keyedAnswer : keyed.answer with
    | error reason =>
      have events :
          Enacts s m ((startingAt frame pending).map KeyEvent.action) [] planAnswer keyed :=
        isKeyed ▸ applyEvents_enacts frame (startingAt frame pending) #[]
      have noFault : ∀ fault, reason ≠ .fault fault := by
        rintro fault rfl
        exact applyEvents_ne_fault (m := m) frame (startingAt frame pending) #[] fault
          (isKeyed ▸ keyedAnswer)
      rw [frameBody, List.append_assoc, List.append_assoc, Array.toList_appendList]
      exact (events.refused_frames keyedAnswer noFault frame renders log.toList).append_of_obstacle
        (events.obstacle_of_error keyedAnswer)
    | ok moved =>
      have body := frameBody_enacts frame isKeyed isRun keyedAnswer
      have logged : (log ++ keyed.log ++ run.log).toList =
          log.toList ++ (keyed.log ++ run.log) := by
        rw [Array.toList_appendList, Array.toList_appendList, List.append_assoc]
      cases runAnswer : run.answer with
      | error reason =>
        rw [List.append_assoc]
        apply Enacts.append_of_obstacle (body.obstacle_of_error runAnswer)
        cases reason with
        | fault fault =>
          dsimp only
          rw [Array.toList_push, logged]
          exact body.faulted_frames runAnswer (takeDirty_notMem_frameBody frame) frame renders _
        | _ =>
          dsimp only
          rw [logged]
          exact body.refused_frames runAnswer (fun fault => Refusal.noConfusion) frame renders _
      | ok played =>
        have later := ih (m := run.machine.tick.takeDirty) (frame + 1)
          (if run.machine.tick.isDirty then renders + 1 else renders) (ordered.upcoming _)
          (fun _ => le_start_of_mem_upcoming) (log ++ keyed.log ++ run.log)
        rw [wholeFrames_upcoming s (Nat.lt_succ_self frame), logged] at later
        exact body.whole_frame runAnswer renders log.toList later

/-- A run of frames under a schedule enacts the plan of its frames. -/
theorem runFrames_enacts (s : Settings) (m : Machine) (count : Int) (schedule : List KeyEvent) :
    Enacts s m (framePlan s count schedule) [] (frameAnswer 0 0) (m.runFrames s count schedule) :=
  framesFrom_enacts count.toNat 0 0 (frameOrdered_inFrameOrder schedule)
    (fun _ _ => Nat.zero_le _) #[]

theorem wholeFrames_concat (s : Settings) (events : List KeyEvent) (first count : Nat) :
    wholeFrames s events first (count + 1) =
      wholeFrames s events first count ++
        (frameBody s events (first + count) ++ [.tick, .takeDirty]) := by
  rw [wholeFrames, List.range'_concat, List.flatMap_append, ← wholeFrames]
  simp

/-- Of planned frames some are performed whole, and of the next one at most its key events and
steps. -/
theorem performed_wholeFrames (s : Settings) (m : Machine) (events : List KeyEvent)
    (first count : Nat) :
    ∃ completed rest, m.performed s (wholeFrames s events first count) =
        wholeFrames s events first completed ++ rest ∧
      ∀ a ∈ rest, a ∈ frameBody s events (first + completed) := by
  induction count generalizing m first with
  | zero => exact ⟨0, [], rfl, by simp⟩
  | succ count ih =>
    rw [wholeFrames_succ]
    cases refused : m.obstacle s (frameBody s events first) with
    | none =>
      have clear : m.obstacle s (frameBody s events first ++ [.tick, .takeDirty]) = none := by
        rw [(performed_append_of_clear refused _).2]
        rfl
      obtain ⟨completed, rest, performed, within⟩ :=
        ih (m.after s (frameBody s events first ++ [.tick, .takeDirty])) (first + 1)
      refine ⟨completed + 1, rest, ?_, ?_⟩
      · rw [(performed_append_of_clear clear _).1, performed, wholeFrames_succ,
          ← List.append_assoc]
      · rw [Nat.add_right_comm] at within
        exact within
    | some reason =>
      refine ⟨0, m.performed s (frameBody s events first), ?_, fun a => mem_of_mem_performed⟩
      rw [List.append_assoc, (performed_append_of_obstacle refused _).1]
      rfl

/-- The looks at the redraw flag in whole frames: one at the end of each frame. -/
theorem countP_wholeFrames (s : Settings) (m : Machine) (events : List KeyEvent) (count : Nat) :
    (m.tape s (wholeFrames s events 0 count)).countP Turn.looks = count ∧
      (m.tape s (wholeFrames s events 0 count)).countP Turn.findsDirty =
        (List.range count).countP fun frame => (m.frameEnd s events frame).isDirty := by
  induction count with
  | zero => exact ⟨rfl, rfl⟩
  | succ count ih =>
    obtain ⟨seen, found⟩ := ih
    obtain ⟨looks, finds⟩ :=
      @countP_wholeFrame s (m.after s (wholeFrames s events 0 count)) events count
    rw [← after_append] at finds
    rw [wholeFrames_concat, Nat.zero_add, tape_append, List.countP_append, List.countP_append, seen,
      found, looks, finds, List.range_succ, List.countP_append, List.countP_singleton]
    exact ⟨rfl, rfl⟩

/-- What a run of frames performs and reports: some whole frames, and of the next one at most its
key events and steps. -/
theorem runFrames_performs (s : Settings) (m : Machine) (count : Int) (schedule : List KeyEvent) :
    let events := inFrameOrder schedule
    ∃ completed rest, m.performed s (framePlan s count schedule) =
        wholeFrames s events 0 completed ++ rest ∧
      (∀ a ∈ rest, a ∈ frameBody s events completed) ∧
      ∀ report, (m.runFrames s count schedule).answer = .ok report →
        report.completed = completed ∧
        report.renders = (List.range completed).countP fun frame =>
          (m.frameEnd s events frame).isDirty := by
  intro events
  obtain ⟨completed, rest, performed, within⟩ :=
    performed_wholeFrames s m events 0 count.toNat
  rw [Nat.zero_add] at within
  refine ⟨completed, rest, performed, within, ?_⟩
  intro report answered
  obtain ⟨looks, finds⟩ := countP_wholeFrames s m events completed
  obtain ⟨noLook, noFind⟩ := countP_looks_eq_zero (s := s)
    (m := m.after s (wholeFrames s events 0 completed))
    fun member => takeDirty_notMem_frameBody completed (within _ member)
  have enacted := (runFrames_enacts s m count schedule).answer
  have counted : frameAnswer 0 0 (m.tape s (m.performed s (framePlan s count schedule))) =
      frameAnswer 0 0 (m.tape s (wholeFrames s events 0 completed)) := by
    rw [show m.performed s (framePlan s count schedule) = _ from performed]
    funext obstacle
    cases obstacle with
    | none => simp only [frameAnswer, tape_append, List.countP_append, noLook, noFind, Nat.add_zero]
    | some reason =>
      cases reason <;>
        simp only [frameAnswer, tape_append, List.countP_append, noLook, noFind, Nat.add_zero]
  rw [answered, counted] at enacted
  rw [← finds]
  generalize m.obstacle s (framePlan s count schedule) = obstacle at enacted
  cases obstacle with
  | none =>
    obtain rfl := Except.ok.inj enacted
    exact ⟨by simp [FrameReport.completed, looks], by simp⟩
  | some reason =>
    cases reason with
    | fault fault =>
      obtain rfl := Except.ok.inj enacted
      exact ⟨by simp [FrameReport.completed, looks], by simp⟩
    | _ => cases enacted

end Frames

end Machine

end Chip8
