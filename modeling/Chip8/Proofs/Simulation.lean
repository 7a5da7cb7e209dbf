import Chip8.Proofs.Run

/-! # Simulations

Two machines that go through the same actions side by side. A relation between machines that
single steps, key events, ticks and looks at the redraw flag respect, with equal answers on both
sides, is respected by whole runs of frames.
-/

namespace Chip8

/-- Two outcomes with one answer and related machines. -/
def Outcome.Agree {α : Type} (related : Machine → Machine → Prop) (o o' : Outcome α) : Prop :=
  o.answer = o'.answer ∧ related o.machine o'.machine

namespace Outcome

variable {α : Type} {related : Machine → Machine → Prop} {m m' : Machine}

theorem agree_done (together : related m m') (answer : α) (log log' : List LogEntry) :
    (done answer m log).Agree related (done answer m' log') := ⟨rfl, together⟩

theorem agree_refused (together : related m m') (reason : Refusal) (log log' : List LogEntry) :
    (refused reason m log : Outcome α).Agree related (refused reason m' log') := ⟨rfl, together⟩

theorem Agree.map {β : Type} {o o' : Outcome α} (agree : o.Agree related o') (f : α → β) :
    (o.map f).Agree related (o'.map f) := ⟨congrArg (Except.map f) agree.1, agree.2⟩

end Outcome

namespace Machine

/-- Two runs that carry the same actions and draw the same random bytes. -/
inductive SideBySide (s s' : Settings) :
    Machine → Machine → List Action → Machine → Machine → Prop
  | nil (m₁ m₂ : Machine) : SideBySide s s' m₁ m₂ [] m₁ m₂
  | act {m₁ m₂ m₁' m₂' : Machine} {a : Action} {rest : List Action} :
      SideBySide s s' (m₁.perform s a).machine (m₂.perform s' a).machine rest m₁' m₂' →
        SideBySide s s' m₁ m₂ (a :: rest) m₁' m₂'
  | unseeded {m₁ m₂ m₁' m₂' : Machine} {actions : List Action} (stream : RandomStream) :
      s.seed = none → s'.seed = none →
        SideBySide s s' { m₁ with random := stream } { m₂ with random := stream } actions m₁' m₂' →
          SideBySide s s' m₁ m₂ actions m₁' m₂'

/-- The same actions performed on two machines. -/
theorem SideBySide.of_after {s s' : Settings} (m₁ m₂ : Machine) (actions : List Action) :
    SideBySide s s' m₁ m₂ actions (m₁.after s actions) (m₂.after s' actions) := by
  induction actions generalizing m₁ m₂ with
  | nil => exact .nil m₁ m₂
  | cons a rest ih => exact .act (ih (m₁.perform s a).machine (m₂.perform s' a).machine)

/-- A relation that every elementary action respects, with one answer on both sides. -/
structure Simulation (s s' : Settings) (related : Machine → Machine → Prop) : Prop where
  burst : s.cyclesPerFrame = s'.cyclesPerFrame
  step {m m' : Machine} : related m m' → (m.step s).Agree related (m'.step s')
  setKey {m m' : Machine} (index : Int) (pressed : Bool) :
    related m m' → (m.setKey index pressed).Agree related (m'.setKey index pressed)
  tick {m m' : Machine} : related m m' → related m.tick m'.tick
  isDirty {m m' : Machine} : related m m' → m.isDirty = m'.isDirty
  takeDirty {m m' : Machine} : related m m' → related m.takeDirty m'.takeDirty

namespace Simulation

variable {s s' : Settings} {related : Machine → Machine → Prop}

theorem bursts (sim : Simulation s s' related) (n : Nat) {m m' : Machine} (start : related m m')
    (log log' : Array LogEntry) : (m.burst s n log).Agree related (m'.burst s' n log') := by
  induction n generalizing m m' log log' with
  | zero => exact Outcome.agree_done start _ _ _
  | succ n ih =>
    obtain ⟨answer, stepped⟩ := sim.step start
    simp only [Machine.burst, ← answer]
    split
    · exact Outcome.agree_refused stepped _ _ _
    · exact Outcome.agree_done stepped _ _ _
    · exact ih stepped _ _

theorem applyEvents (sim : Simulation s s' related) (frame : Nat) (events : List KeyEvent)
    {m m' : Machine} (start : related m m') (log log' : Array LogEntry) :
    (m.applyEvents frame events log).Agree related (m'.applyEvents frame events log') := by
  induction events generalizing m m' log log' with
  | nil => exact Outcome.agree_done start _ _ _
  | cons e rest ih =>
    obtain ⟨answer, moved⟩ := sim.setKey e.key e.pressed start
    simp only [Machine.applyEvents, ← answer]
    split
    · exact Outcome.agree_refused moved _ _ _
    · exact ih moved _ _

theorem framesFrom (sim : Simulation s s' related) (count frame renders : Nat)
    (pending : List KeyEvent) {m m' : Machine} (start : related m m') (log log' : Array LogEntry) :
    (m.framesFrom s count frame renders pending log).Agree related
      (m'.framesFrom s' count frame renders pending log') := by
  induction count generalizing frame renders pending m m' log log' with
  | zero => exact Outcome.agree_done start _ _ _
  | succ count ih =>
    simp only [Machine.framesFrom, ← sim.burst]
    generalize pending.span _ = parts
    obtain ⟨keyAnswer, keyed⟩ := sim.applyEvents frame parts.1 start #[] #[]
    generalize m.applyEvents frame parts.1 #[] = events at keyAnswer keyed ⊢
    generalize m'.applyEvents frame parts.1 #[] = events' at keyAnswer keyed ⊢
    obtain ⟨stepAnswer, stepped⟩ := sim.bursts s.cyclesPerFrame.toNat keyed #[] #[]
    generalize events.machine.burst s s.cyclesPerFrame.toNat #[] = steps at stepAnswer stepped ⊢
    generalize events'.machine.burst s' s.cyclesPerFrame.toNat #[] = steps' at stepAnswer stepped ⊢
    have ticked := sim.tick stepped
    rw [← keyAnswer, ← stepAnswer, ← sim.isDirty ticked]
    split
    · exact Outcome.agree_refused keyed _ _ _
    · split
      · exact Outcome.agree_done stepped _ _ _
      · exact Outcome.agree_refused stepped _ _ _
      · exact ih _ _ _ (sim.takeDirty ticked) _ _

/-- Related machines report the same about a run of frames and are related after it. -/
theorem runFrames (sim : Simulation s s' related) (count : Int) (schedule : List KeyEvent)
    {m m' : Machine} (start : related m m') :
    (m.runFrames s count schedule).Agree related (m'.runFrames s' count schedule) :=
  sim.framesFrom _ _ _ _ start _ _

/-- Related machines answer an elementary action alike and are related after it. -/
theorem perform (sim : Simulation s s' related) {m m' : Machine} (start : related m m')
    {a : Action} (elementary : a.IsElementary) :
    (m.perform s a).Agree related (m'.perform s' a) := by
  cases a with
  | step => exact (sim.step start).map _
  | setKey index pressed => exact (sim.setKey index pressed start).map _
  | tick => exact Outcome.agree_done (sim.tick start) _ _ _
  | takeDirty =>
    simp only [Machine.perform, sim.isDirty start]
    exact Outcome.agree_done (sim.takeDirty start) _ _ _
  | load _ | reset | frames _ _ | execute _ => exact elementary.elim

end Simulation

end Machine

end Chip8
