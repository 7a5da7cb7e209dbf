import Chip8.Action

/-! # Runs of host actions

Which machines a host can bring about. A run carries the list of its actions; what every action
keeps, the run keeps. Frames need no treatment of their own, because a run of frames does to the
machine what some list of steps, key events, ticks and looks at the redraw flag does, and reports
the last fault that these tell of.
-/

namespace Chip8

/-- One step, one key event, one tick or one look at the redraw flag. -/
def Action.IsElementary : Action → Prop
  | .step | .setKey _ _ | .tick | .takeDirty => True
  | .load _ | .reset | .frames _ _ | .execute _ => False

def Refusal.fault? : Refusal → Option Fault
  | fault f => some f
  | _ => none

def Reply.fault? : Reply → Option Fault
  | report r => r.fault
  | _ => none

/-- The fault that an answer tells of: the cause of a refusal, or one that the answer reports. -/
def faultIn {α : Type} (reported : α → Option Fault) : Except Refusal α → Option Fault
  | .ok answer => reported answer
  | .error reason => reason.fault?

theorem faultIn_map {α β : Type} (reported : β → Option Fault) (f : α → β)
    (answer : Except Refusal α) :
    faultIn reported (answer.map f) = faultIn (reported ∘ f) answer := by
  cases answer <;> rfl

structure Exchange where
  action : Action
  answer : Except Refusal Reply

def Exchange.fault? (e : Exchange) : Option Fault := faultIn Reply.fault? e.answer

def lastFault : List Exchange → Option Fault
  | [] => none
  | e :: rest => (lastFault rest).or e.fault?

theorem lastFault_append (first second : List Exchange) :
    lastFault (first ++ second) = (lastFault second).or (lastFault first) := by
  induction first with
  | nil => simp [lastFault]
  | cons e rest ih => rw [List.cons_append, lastFault, lastFault, ih, Option.or_assoc]

namespace Machine

variable {s : Settings}

@[simp] theorem after_nil (s : Settings) (m : Machine) : m.after s [] = m := rfl

@[simp] theorem after_cons (s : Settings) (m : Machine) (a : Action) (rest : List Action) :
    m.after s (a :: rest) = (m.perform s a).machine.after s rest := rfl

theorem machine_perform_load (s : Settings) (m : Machine) (program : List UInt8) :
    (m.perform s (.load program)).machine = (m.load s program).machine := rfl

theorem machine_perform_step (s : Settings) (m : Machine) :
    (m.perform s .step).machine = (m.step s).machine := rfl

/-- What every action of a list keeps is kept by the list. -/
theorem after_preserves {inv : Machine → Prop} {actions : List Action}
    (act : ∀ m, ∀ a ∈ actions, inv m → inv (m.perform s a).machine) {m : Machine} (start : inv m) :
    inv (m.after s actions) := by
  induction actions generalizing m with
  | nil => exact start
  | cons a rest ih =>
    exact ih (fun m b member => act m b (List.mem_cons_of_mem _ member))
      (act m a (List.mem_cons_self ..) start)

/-- A finite run carrying exactly its actions. Without a seed the random bytes to come may be any,
at every moment. -/
inductive Run (s : Settings) : Machine → List Action → Machine → Prop
  | nil (m : Machine) : Run s m [] m
  | act {m m' : Machine} {a : Action} {rest : List Action} :
      Run s (m.perform s a).machine rest m' → Run s m (a :: rest) m'
  | unseeded {m m' : Machine} {actions : List Action} (stream : RandomStream) :
      s.seed = none → Run s { m with random := stream } actions m' → Run s m actions m'

namespace Run

/-- The actions performed one after the other make a run. -/
theorem of_after (m : Machine) (actions : List Action) : Run s m actions (m.after s actions) := by
  induction actions generalizing m with
  | nil => exact .nil m
  | cons a rest ih => exact .act (ih (m.perform s a).machine)

/-- A property that does not look at the random bytes and that every action keeps holds at the end
of a run. -/
theorem preserves {inv : Machine → Prop} {m m' : Machine} {actions : List Action}
    (run : Run s m actions m') (act : ∀ m a, inv m → inv (m.perform s a).machine)
    (blind : ∀ m stream, inv m → inv { m with random := stream }) (start : inv m) : inv m' := by
  induction run with
  | nil => exact start
  | act _ ih => exact ih (act _ _ start)
  | unseeded stream _ _ ih => exact ih (blind _ stream start)

end Run

/-- A machine right after a reset or after a program was placed. The random bytes to come may be
any. -/
inductive Restarted (s : Settings) : Machine → Prop
  | reset (before : Machine) (stream : RandomStream) :
      Restarted s { (before.reset s).machine with random := stream }
  | load (before : Machine) (program : List UInt8) (stream : RandomStream) :
      (before.load s program).answer = .ok () →
        Restarted s { (before.load s program).machine with random := stream }

/-- A restarted machine is a new one with a program in its memory. -/
theorem Restarted.exists_program {m : Machine} (restarted : Restarted s m) :
    ∃ program fits stream,
      m = { initial s with memory := .placeProgram .initial program fits, random := stream } := by
  cases restarted with
  | reset before stream =>
    exact ⟨[], Nat.zero_le _, stream, by rw [reset_eq, Memory.placeProgram_nil]; rfl⟩
  | load before program stream loaded =>
    by_cases fits : program.length ≤ programCapacity
    · exact ⟨program, fits, stream, by rw [load_of_fits s before fits]; rfl⟩
    · rw [load_of_tooLarge s before (Nat.lt_of_not_le fits)] at loaded
      cases loaded

def exchanges (s : Settings) (m : Machine) : List Action → List Exchange
  | [] => []
  | a :: rest => ⟨a, (m.perform s a).answer⟩ :: (m.perform s a).machine.exchanges s rest

theorem exchanges_append (s : Settings) (m : Machine) (first second : List Action) :
    m.exchanges s (first ++ second) =
      m.exchanges s first ++ (m.after s first).exchanges s second := by
  induction first generalizing m with
  | nil => rfl
  | cons a rest ih => simp only [List.cons_append, exchanges, ih, after_cons]

/-- One machine comes from another by elementary actions, and this is the last fault they tell
of. -/
def Reaches (s : Settings) (m : Machine) (told : Option Fault) (m' : Machine) : Prop :=
  ∃ actions : List Action, (∀ a ∈ actions, a.IsElementary) ∧ m' = m.after s actions ∧
    told = lastFault (m.exchanges s actions)

namespace Reaches

theorem refl (m : Machine) : Reaches s m none m := ⟨[], by simp, rfl, rfl⟩

theorem trans {m₁ m₂ m₃ : Machine} {told₁ told₂ : Option Fault} (first : Reaches s m₁ told₁ m₂)
    (second : Reaches s m₂ told₂ m₃) : Reaches s m₁ (told₂.or told₁) m₃ := by
  obtain ⟨before, beforeElementary, rfl, rfl⟩ := first
  obtain ⟨after, afterElementary, rfl, rfl⟩ := second
  refine ⟨before ++ after, ?_, (after_append s m₁ before after).symm, ?_⟩
  · intro a member
    exact (List.mem_append.mp member).elim (beforeElementary a) (afterElementary a)
  · rw [exchanges_append, lastFault_append]

theorem trans_of_none {m₁ m₂ m₃ : Machine} {told : Option Fault} (first : Reaches s m₁ none m₂)
    (second : Reaches s m₂ told m₃) : Reaches s m₁ told m₃ := by
  simpa using first.trans second

theorem act {m : Machine} {a : Action} (elementary : a.IsElementary) :
    Reaches s m (faultIn Reply.fault? (m.perform s a).answer) (m.perform s a).machine :=
  ⟨[a], by simpa using elementary, rfl, rfl⟩

/-- What every elementary action keeps, said of a machine and the last fault told of, holds of each
machine that comes from another. -/
theorem preserves_told {m m' : Machine} {told : Option Fault} (reaches : Reaches s m told m')
    (inv : Option Fault → Machine → Prop) (last : Option Fault)
    (act : ∀ last m a, a.IsElementary → inv last m →
      inv ((faultIn Reply.fault? (m.perform s a).answer).or last) (m.perform s a).machine)
    (start : inv last m) : inv (told.or last) m' := by
  obtain ⟨actions, elementary, rfl, rfl⟩ := reaches
  induction actions generalizing m last with
  | nil => exact start
  | cons a rest ih =>
    rw [exchanges, lastFault, after_cons, Option.or_assoc]
    exact ih _ (act last m a (elementary a (List.mem_cons_self ..)) start)
      (fun b member => elementary b (List.mem_cons_of_mem _ member))

/-- What every elementary action keeps holds of each machine that comes from another. -/
theorem preserves {inv : Machine → Prop} {m m' : Machine} {told : Option Fault}
    (reaches : Reaches s m told m')
    (act : ∀ m a, a.IsElementary → inv m → inv (m.perform s a).machine) (start : inv m) :
    inv m' :=
  reaches.preserves_told (fun _ => inv) none (fun _ => act) start

end Reaches

theorem step_reaches (s : Settings) (m : Machine) :
    Reaches s m (faultIn (fun _ => none) (m.step s).answer) (m.step s).machine := by
  have stepped : Reaches s m (faultIn Reply.fault? ((m.step s).answer.map .event))
    (m.step s).machine := .act (a := .step) trivial
  rw [faultIn_map] at stepped
  exact stepped

theorem setKey_reaches (s : Settings) (index : Int) (pressed : Bool) (m : Machine) :
    Reaches s m (faultIn (fun _ => none) (m.setKey index pressed).answer)
      (m.setKey index pressed).machine := by
  have moved : Reaches s m
      (faultIn Reply.fault? ((m.setKey index pressed).answer.map fun _ => .nothing))
      (m.setKey index pressed).machine := .act (a := .setKey index pressed) trivial
  rw [faultIn_map] at moved
  exact moved

theorem burst_reaches (n : Nat) (m : Machine) (log : Array LogEntry) :
    Reaches s m (faultIn (fun _ => none) (m.burst s n log).answer) (m.burst s n log).machine := by
  induction n generalizing m log with
  | zero => exact .refl m
  | succ n ih =>
    have stepped := step_reaches s m
    simp only [burst]
    split
    · next failed =>
      rw [failed] at stepped
      exact stepped
    · next finished =>
      rw [finished] at stepped
      exact stepped
    · next finished =>
      rw [finished] at stepped
      exact stepped.trans_of_none (ih _ _)

theorem applyEvents_reaches (frame : Nat) (events : List KeyEvent) (m : Machine)
    (log : Array LogEntry) :
    Reaches s m (faultIn (fun _ => none) (m.applyEvents frame events log).answer)
      (m.applyEvents frame events log).machine := by
  induction events generalizing m log with
  | nil => exact .refl m
  | cons e rest ih =>
    have moved := setKey_reaches s e.key e.pressed m
    simp only [applyEvents]
    split
    · next failed =>
      rw [failed] at moved
      exact moved
    · next finished =>
      rw [finished] at moved
      exact moved.trans_of_none (ih _ _)

theorem framesFrom_reaches (count frame renders : Nat) (pending : List KeyEvent) (m : Machine)
    (log : Array LogEntry) :
    Reaches s m (faultIn FrameReport.fault (m.framesFrom s count frame renders pending log).answer)
      (m.framesFrom s count frame renders pending log).machine := by
  induction count generalizing frame renders pending m log with
  | zero => exact .refl m
  | succ count ih =>
    simp only [framesFrom]
    generalize pending.span _ = parts
    have keyed := applyEvents_reaches (s := s) frame parts.1 m #[]
    generalize m.applyEvents frame parts.1 #[] = events at keyed ⊢
    have stepped := burst_reaches (s := s) s.cyclesPerFrame.toNat events.machine #[]
    generalize events.machine.burst s s.cyclesPerFrame.toNat #[] = steps at stepped ⊢
    split
    · next failed =>
      rw [failed] at keyed
      exact keyed
    · next keysMoved =>
      rw [keysMoved] at keyed
      have played := keyed.trans_of_none stepped
      split
      · next faulted =>
        rw [faulted] at played
        exact played
      · next _ failed =>
        rw [failed] at played
        exact played
      · next finished =>
        rw [finished] at played
        have ticked := played.trans_of_none (.act (a := .tick) trivial)
        have looked := ticked.trans_of_none (.act (a := .takeDirty) trivial)
        exact looked.trans_of_none (ih _ _ _ _ _)

/-- A run of frames is made of elementary actions, and reports the last fault they tell of. -/
theorem runFrames_reaches (count : Int) (schedule : List KeyEvent) (m : Machine) :
    Reaches s m (faultIn FrameReport.fault (m.runFrames s count schedule).answer)
      (m.runFrames s count schedule).machine :=
  framesFrom_reaches _ _ _ _ m _

end Machine

end Chip8
