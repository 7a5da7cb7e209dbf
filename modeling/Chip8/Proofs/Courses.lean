import Chip8.Proofs.Turns

/-! # Courses

A course is what happens to a machine turn by turn. Every moment of it, also one within a run of
frames, is the end of a shorter course, so what each turn keeps of a machine and of the turns that
led to it holds at every moment.
-/

namespace Chip8

namespace Machine

variable {s : Settings} {m m' m'' : Machine} {tape past future : List Turn} {t : Turn}

/-- A finite course carrying exactly its turns. Without a seed the random bytes to come may be any,
at every moment. -/
inductive Course (s : Settings) : Machine → List Turn → Machine → Prop
  | nil (m : Machine) : Course s m [] m
  | turn {m m' : Machine} {a : Action} {rest : List Turn} :
      Course s (m.perform s a).machine rest m' → Course s m (⟨m, a⟩ :: rest) m'
  | unseeded {m m' : Machine} {tape : List Turn} (stream : RandomStream) :
      s.seed = none → Course s { m with random := stream } tape m' → Course s m tape m'

namespace Course

/-- The turns of some actions make a course. -/
theorem of_tape (s : Settings) (m : Machine) (actions : List Action) :
    Course s m (m.tape s actions) (m.after s actions) := by
  induction actions generalizing m with
  | nil => exact .nil m
  | cons a rest ih => exact .turn (ih (m.perform s a).machine)

theorem append {second : List Turn} (before : Course s m tape m')
    (behind : Course s m' second m'') :
    Course s m (tape ++ second) m'' := by
  induction before with
  | nil => exact behind
  | turn _ ih => exact .turn (ih behind)
  | unseeded stream noSeed _ ih => exact .unseeded stream noSeed (ih behind)

/-- A course up to one of its turns, and the course behind that turn. -/
theorem split (course : Course s m tape m') (parted : tape = past ++ t :: future) :
    Course s m past t.machine ∧ Course s (t.after s) future m' := by
  induction course generalizing past with
  | nil => cases past <;> cases parted
  | @turn m m' a rest behind ih =>
    cases past with
    | nil =>
      cases parted
      exact ⟨.nil m, behind⟩
    | cons first past =>
      obtain ⟨rfl, rest⟩ := List.cons.inj parted
      exact ⟨.turn (ih rest).1, (ih rest).2⟩
  | unseeded stream noSeed _ ih =>
    exact ⟨.unseeded stream noSeed (ih parted).1, (ih parted).2⟩

/-- What every turn keeps of a machine and of the turns that led to it holds at the end. -/
theorem keeps (inv : List Turn → Machine → Prop) (course : Course s m tape m')
    (turn : ∀ past, ∀ t ∈ tape, inv past t.machine → inv (past ++ [t]) (t.after s))
    (blind : s.seed = none → ∀ past m stream, inv past m → inv past { m with random := stream })
    (start : inv past m) : inv (past ++ tape) m' := by
  induction course generalizing past with
  | nil m => simpa using start
  | @turn m m' a rest _ ih =>
    have now : inv (past ++ [⟨m, a⟩]) (m.perform s a).machine :=
      turn past _ (List.mem_cons_self ..) start
    have later := ih (fun past t member => turn past t (List.mem_cons_of_mem _ member)) now
    rwa [List.append_assoc] at later
  | unseeded stream noSeed _ ih => exact ih turn (blind noSeed _ _ stream start)

/-- What every turn keeps of a machine and of the turns that led to it holds before and after each
turn. -/
theorem keeps_throughout (inv : List Turn → Machine → Prop) (course : Course s m tape m')
    (turn : ∀ past, ∀ t ∈ tape, inv past t.machine → inv (past ++ [t]) (t.after s))
    (blind : s.seed = none → ∀ past m stream, inv past m → inv past { m with random := stream })
    (start : inv [] m) (parted : tape = past ++ t :: future) :
    inv past t.machine ∧ inv (past ++ [t]) (t.after s) := by
  have among (u : Turn) (member : u ∈ past) : u ∈ tape := by simp [parted, member]
  have before : inv past t.machine :=
    (course.split parted).1.keeps inv (fun past u member => turn past u (among u member)) blind
      start
  exact ⟨before, turn past t (by simp [parted]) before⟩

end Course

/-- The turns of a run of frames lead to its machine. -/
theorem course_parts (s : Settings) (t : Turn) : Course s t.machine (t.parts s) (t.after s) := by
  obtain ⟨m, a⟩ := t
  cases a with
  | frames count schedule =>
    have enacted := (runFrames_enacts s m count schedule).machine
    have followed := Course.of_tape s m (m.performed s (framePlan s count schedule))
    rw [← enacted] at followed
    exact followed
  | _ => exact .turn (.nil _)

/-- A course goes through the turns of its runs of frames. -/
theorem Course.in_parts (course : Course s m tape m') : Course s m (parts s tape) m' := by
  induction course with
  | nil m => exact .nil m
  | @turn m m' a rest _ ih => exact (course_parts s ⟨m, a⟩).append ih
  | unseeded stream noSeed _ ih => exact .unseeded stream noSeed ih

theorem isElementary_of_mem_frameBody {events : List KeyEvent} {frame : Nat} {a : Action}
    (member : a ∈ frameBody s events frame) : a.IsElementary := by
  simp only [frameBody, List.mem_append, List.mem_map, List.mem_replicate] at member
  obtain ⟨e, -, rfl⟩ | ⟨-, rfl⟩ := member <;> trivial

/-- Nothing but elementary actions is planned for frames. -/
theorem isElementary_of_mem_framePlan {count : Int} {schedule : List KeyEvent} {a : Action}
    (member : a ∈ framePlan s count schedule) : a.IsElementary := by
  simp only [framePlan, wholeFrames, List.mem_flatMap, List.mem_append, List.mem_cons,
    List.not_mem_nil, or_false] at member
  obtain ⟨frame, -, body | rfl | rfl⟩ := member
  · exact isElementary_of_mem_frameBody body
  · trivial
  · trivial

/-- The turns of a run of frames are elementary. -/
theorem isElementary_of_mem_tape {count : Int} {schedule : List KeyEvent}
    (member : t ∈ m.tape s (m.performed s (framePlan s count schedule))) :
    t.action.IsElementary :=
  isElementary_of_mem_framePlan (mem_of_mem_performed (action_mem_of_mem_tape member))

/-- The turns that a course is made of are no runs of frames. -/
theorem isAtomic_of_mem_parts (member : t ∈ parts s tape) : t.action.IsAtomic := by
  obtain ⟨⟨m, a⟩, -, within⟩ := List.mem_flatMap.mp member
  cases a with
  | frames count schedule => exact (isElementary_of_mem_tape within).isAtomic
  | _ =>
    rw [List.mem_singleton.mp within]
    trivial

end Machine

end Chip8
