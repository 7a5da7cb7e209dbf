import Chip8.Proofs.StaleSlots

/-! # The call stack and the history of calls

The used part of the stack is a record of the past: it holds the return addresses of the calls that
the executed instructions opened and did not close. The history is read off the words fetched from
memory when they are executed, so programs may change themselves. What the unused slots hold never
matters.
-/

namespace Chip8

/-- An instruction executed to its end: where it was fetched from, and its word. -/
structure Executed where
  address : Int
  word : Int
deriving DecidableEq, Repr

/-- The open call sites after an instruction, the innermost first: a call opens its own address and
a return closes the innermost site. -/
def Executed.sitesAfter (sites : List Int) (e : Executed) : List Int :=
  if e.word / 4096 = 2 then e.address :: sites
  else if e.word = 0x00EE then sites.tail
  else sites

/-- The call sites that a history leaves open, the innermost first. -/
def openSites (history : List Executed) : List Int := history.foldl Executed.sitesAfter []

def returnAddress (site : Int) : Int := (site + 2) % 4096

/-- The used part of the stack holds the return addresses of some sites, the innermost on top. -/
structure Registers.HoldsSites (r : Registers) (sites : List Int) : Prop where
  sp : r.sp = sites.length
  openCalls : r.openCalls = (sites.map returnAddress).reverse

namespace Registers.HoldsSites

variable {r r' : Registers} {sites : List Int}

theorem bound (holds : r.HoldsSites sites) : r.sp ≤ stackDepth := by
  have length := congrArg List.length holds.openCalls
  simp only [Registers.openCalls, List.length_take, Vector.length_toList, List.length_reverse,
    List.length_map, ← holds.sp] at length
  omega

theorem of_eq (holds : r.HoldsSites sites) (stack : r'.stack = r.stack) (sp : r'.sp = r.sp) :
    r'.HoldsSites sites := by
  refine ⟨sp.trans holds.sp, ?_⟩
  rw [Registers.openCalls, stack, sp]
  exact holds.openCalls

/-- The return address of a site in the first free slot records the site. -/
theorem push {site : Int} (holds : r.HoldsSites sites) (free : r.sp < stackDepth)
    (stack : r'.stack = r.stack.set r.sp (returnAddress site) free) (sp : r'.sp = r.sp + 1) :
    r'.HoldsSites (site :: sites) := by
  refine ⟨by rw [sp, holds.sp, List.length_cons], ?_⟩
  have inside : r.sp < (r.stack.toList.set r.sp (returnAddress site)).length := by simpa using free
  rw [Registers.openCalls, stack, sp, Vector.toList_set, List.take_succ_eq_append_getElem inside,
    List.take_set_of_le (Nat.le_refl _), List.getElem_set_self, ← Registers.openCalls,
    holds.openCalls, List.map_cons, List.reverse_cons]

/-- The topmost slot belongs to the innermost site, the slots below to the others. -/
theorem split_top {site : Int} {depth : Nat} (holds : r.HoldsSites (site :: sites))
    (isOpen : r.sp = depth + 1) (inside : depth < stackDepth) :
    r.stack.toList.take depth = (sites.map returnAddress).reverse ∧
      r.stack.get ⟨depth, inside⟩ = returnAddress site := by
  have insideList : depth < r.stack.toList.length := by rwa [Vector.length_toList]
  have parts : r.stack.toList.take depth ++ [r.stack.toList[depth]] =
      (sites.map returnAddress).reverse ++ [returnAddress site] := by
    rw [← List.take_succ_eq_append_getElem insideList, ← isOpen, ← List.reverse_cons,
      ← List.map_cons]
    exact holds.openCalls
  obtain ⟨below, top⟩ := List.append_inj' parts rfl
  refine ⟨below, ?_⟩
  have slot : r.stack.get ⟨depth, inside⟩ = r.stack.toList[depth] :=
    (Vector.getElem_toList insideList).symm
  rw [slot]
  exact List.head_eq_of_cons_eq top

/-- Without the topmost slot the innermost site is gone. -/
theorem pop {site : Int} {depth : Nat} (holds : r.HoldsSites (site :: sites))
    (isOpen : r.sp = depth + 1) (stack : r'.stack = r.stack) (sp : r'.sp = depth) :
    r'.HoldsSites sites := by
  refine ⟨sp.trans (Nat.succ.inj (isOpen.symm.trans holds.sp)), ?_⟩
  rw [Registers.openCalls, stack, sp]
  exact (holds.split_top isOpen (by have := holds.bound; omega)).1

end Registers.HoldsSites

namespace Machine

variable {s : Settings} {m : Machine} {sites : List Int}

/-- The instruction that an action executes to its end: a step that finds the machine running and
does not fault executes the word at the program counter. -/
def executedBy (s : Settings) (m : Machine) : Action → List Executed
  | .step =>
      match m.mode, (m.step s).answer with
      | .running, .ok _ => [⟨m.registers.pc, m.memory.readWord m.registers.pc⟩]
      | _, _ => []
  | _ => []

/-- The instructions executed to their end while some actions are performed, the first one first. -/
def history (s : Settings) (m : Machine) : List Action → List Executed
  | [] => []
  | a :: rest => m.executedBy s a ++ (m.perform s a).machine.history s rest

theorem history_append (s : Settings) (m : Machine) (first second : List Action) :
    m.history s (first ++ second) = m.history s first ++ (m.after s first).history s second := by
  induction first generalizing m with
  | nil => rfl
  | cons a rest ih => simp only [List.cons_append, history, ih, List.append_assoc, after_cons]

theorem executedBy_step (running : m.mode = .running) {event : CycleEvent}
    (finished : (m.step s).answer = .ok event) :
    m.executedBy s .step = [⟨m.registers.pc, m.memory.readWord m.registers.pc⟩] := by
  simp only [executedBy, running, finished]

theorem executedBy_step_of_error {reason : Refusal} (failed : (m.step s).answer = .error reason) :
    m.executedBy s .step = [] := by
  cases running : m.mode <;> simp only [executedBy, running, failed]

theorem executedBy_step_of_idle (idle : m.mode ≠ .running) : m.executedBy s .step = [] := by
  cases mode : m.mode
  case running => contradiction
  all_goals simp only [executedBy, mode]

/-- Without a call or return, the sites stay. -/
theorem foldl_executedBy_step (noReturn : m.memory.readWord m.registers.pc ≠ 0x00EE)
    (noCall : m.memory.readWord m.registers.pc / 4096 ≠ 2) :
    (m.executedBy s .step).foldl Executed.sitesAfter sites = sites := by
  simp only [executedBy]
  split
  · simp only [List.foldl_cons, List.foldl_nil, Executed.sitesAfter, if_neg noReturn, if_neg noCall]
  · rfl

/-- A finished return closes the innermost site. -/
theorem foldl_executedBy_of_ret (running : m.mode = .running) {event : CycleEvent}
    (finished : (m.step s).answer = .ok event)
    (returns : m.memory.readWord m.registers.pc = 0x00EE) :
    (m.executedBy s .step).foldl Executed.sitesAfter sites = sites.tail := by
  rw [executedBy_step running finished, returns]
  rfl

/-- A finished call opens its own address. -/
theorem foldl_executedBy_of_call (running : m.mode = .running) {event : CycleEvent}
    (finished : (m.step s).answer = .ok event)
    (calls : m.memory.readWord m.registers.pc / 4096 = 2) :
    (m.executedBy s .step).foldl Executed.sitesAfter sites = m.registers.pc :: sites := by
  rw [executedBy_step running finished]
  exact if_pos calls

theorem step_holds_of_ret (holds : m.registers.HoldsSites sites) (running : m.mode = .running)
    (returns : m.memory.readWord m.registers.pc = 0x00EE) :
    (m.step s).machine.registers.HoldsSites
      ((m.executedBy s .step).foldl Executed.sitesAfter sites) := by
  cases sites with
  | nil =>
    obtain ⟨answer, machine⟩ := step_ret_of_empty s running returns holds.sp
    rw [executedBy_step_of_error answer, machine]
    exact holds.of_eq rfl rfl
  | cons site outer =>
    have isOpen : m.registers.sp = outer.length + 1 := holds.sp
    have inside : outer.length < stackDepth := by have := holds.bound; omega
    obtain ⟨answer, machine⟩ := step_ret_of_open s running returns isOpen inside
    rw [foldl_executedBy_of_ret running answer returns, machine]
    exact holds.pop isOpen rfl rfl

theorem step_holds_of_call (holds : m.registers.HoldsSites sites) (running : m.mode = .running)
    (calls : m.memory.readWord m.registers.pc / 4096 = 2) :
    (m.step s).machine.registers.HoldsSites
      ((m.executedBy s .step).foldl Executed.sitesAfter sites) := by
  by_cases free : m.registers.sp < stackDepth
  · obtain ⟨answer, machine⟩ := step_call_of_free s running calls free
    rw [foldl_executedBy_of_call running answer calls, machine]
    exact holds.push free rfl rfl
  · obtain ⟨answer, machine⟩ := step_call_of_full s running calls (Nat.le_of_not_lt free)
    rw [executedBy_step_of_error answer, machine]
    exact holds.of_eq rfl rfl

/-- A step keeps the record, whatever the machine does. -/
theorem step_holds (holds : m.registers.HoldsSites sites) :
    (m.step s).machine.registers.HoldsSites
      ((m.executedBy s .step).foldl Executed.sitesAfter sites) := by
  cases mode : m.mode with
  | running =>
    by_cases returns : m.memory.readWord m.registers.pc = 0x00EE
    · exact step_holds_of_ret holds mode returns
    by_cases calls : m.memory.readWord m.registers.pc / 4096 = 2
    · exact step_holds_of_call holds mode calls
    -- Any other word goes through `exec_keeps_calls`, which is about words of any width.
    have noReturn : m.memory.readWord m.registers.pc % 65536 ≠ 0x00EE := by
      rwa [Memory.readWord_emod]
    have noCall : m.memory.readWord m.registers.pc % 65536 / 4096 ≠ 2 := by
      rwa [Memory.readWord_emod]
    obtain ⟨stack, sp⟩ := exec_keeps_calls (d := s.dialect) m.fetched noReturn noCall
    rw [foldl_executedBy_step returns calls, step_of_running s mode]
    refine holds.of_eq ?_ ?_ <;> rw [cycle_registers]
    · exact stack
    · exact sp
  | awaitingKey =>
    obtain ⟨stack, sp⟩ := pollKey_keeps_calls m
    rw [executedBy_step_of_idle (by simp [mode]), step_of_awaiting s mode]
    exact holds.of_eq stack sp
  | halted =>
    rw [executedBy_step_of_idle (by simp [mode]), step_of_halted s mode]
    exact holds

theorem perform_holds {a : Action} (elementary : a.IsElementary)
    (holds : m.registers.HoldsSites sites) :
    (m.perform s a).machine.registers.HoldsSites
      ((m.executedBy s a).foldl Executed.sitesAfter sites) := by
  cases a with
  | step => exact step_holds holds
  | setKey index pressed =>
    have kept : (m.perform s (.setKey index pressed)).machine.registers = m.registers :=
      setKey_registers m index pressed
    rw [kept]
    exact holds
  | tick => exact holds
  | takeDirty => exact holds
  | load _ | reset | frames _ _ | execute _ => exact elementary.elim

/-- The record is kept through any number of elementary actions. -/
theorem after_holds {actions : List Action} (elementary : ∀ a ∈ actions, a.IsElementary)
    (holds : m.registers.HoldsSites sites) :
    (m.after s actions).registers.HoldsSites
      ((m.history s actions).foldl Executed.sitesAfter sites) := by
  -- The sites are general: those of the rest begin where the first action left them.
  induction actions generalizing m sites with
  | nil => exact holds
  | cons a rest ih =>
    rw [history, List.foldl_append, after_cons]
    exact ih (fun b member => elementary b (List.mem_cons_of_mem _ member))
      (perform_holds (elementary a (List.mem_cons_self ..)) holds)

theorem Restarted.holds (restarted : Restarted s m) : m.registers.HoldsSites [] := by
  obtain ⟨program, fits, stream, rfl⟩ := restarted.exists_program
  exact ⟨rfl, rfl⟩

/-- One more action lets the sites go on from where they were. -/
theorem openSites_history_concat (start : Machine) (actions : List Action) (a : Action) :
    openSites (start.history s (actions ++ [a])) =
      ((start.after s actions).executedBy s a).foldl Executed.sitesAfter
        (openSites (start.history s actions)) := by
  rw [openSites, history_append, List.foldl_append, history, history, List.append_nil]
  rfl

/-- Since the last restart, whatever the program did to itself, the used slots hold the return
addresses of the open calls. A return goes behind the innermost open call and closes it, and faults
where it stands if none is open. A call opens its own address, and faults where it stands if sixteen
are open. The unused slots make no difference. -/
theorem callStack_of_restarted {start : Machine} {actions : List Action}
    (restarted : Restarted s start) (elementary : ∀ a ∈ actions, a.IsElementary) :
    let m := start.after s actions
    let sites := openSites (start.history s actions)
    let pc := m.registers.pc
    let word := m.memory.readWord pc
    let next := m.step s
    let sitesThen := openSites (start.history s (actions ++ [.step]))
    (m.registers.sp = sites.length ∧
      m.registers.openCalls = (sites.map returnAddress).reverse) ∧
    (m.mode = .running → word = 0x00EE →
      (∀ site outer, sites = site :: outer →
        next.answer = .ok .continued ∧ next.machine.registers.pc = returnAddress site ∧
          sitesThen = outer) ∧
      (sites = [] →
        next.answer = .error (.fault (.stackUnderflow pc)) ∧
          next.machine.registers.stack = m.registers.stack ∧
          next.machine.registers.sp = m.registers.sp)) ∧
    (m.mode = .running → word / 4096 = 2 →
      (sites.length < stackDepth →
        next.answer = .ok .continued ∧ next.machine.registers.pc = word % 4096 ∧
          sitesThen = pc :: sites) ∧
      (sites.length = stackDepth →
        next.answer = .error (.fault (.stackOverflow pc)) ∧
          next.machine.registers.stack = m.registers.stack ∧
          next.machine.registers.sp = m.registers.sp)) ∧
    ∀ {m₁ m₂ m₁' m₂' : Machine} {later : List Action},
      SideBySide s s m₁ m₂ later m₁' m₂' → SameButStale m₁ m₂ →
        SameButStale m₁' m₂' ∧
          ∀ a, (m₁'.perform s a).answer = (m₂'.perform s a).answer := by
  intro m sites pc word next sitesThen
  have holds : m.registers.HoldsSites sites := after_holds elementary restarted.holds
  have grown : sitesThen = (m.executedBy s .step).foldl Executed.sitesAfter sites :=
    openSites_history_concat start actions .step
  refine ⟨⟨holds.sp, holds.openCalls⟩, ?_, ?_, ?_⟩
  · intro running returns
    constructor
    · intro site outer nested
      rw [nested] at holds grown
      have isOpen : m.registers.sp = outer.length + 1 := holds.sp
      have inside : outer.length < stackDepth := by have := holds.bound; omega
      obtain ⟨answer, machine⟩ := step_ret_of_open s running returns isOpen inside
      refine ⟨answer, ?_, ?_⟩
      · rw [machine]
        exact (holds.split_top isOpen inside).2
      · exact grown.trans (foldl_executedBy_of_ret running answer returns)
    · intro noneOpen
      rw [noneOpen] at holds
      obtain ⟨answer, machine⟩ := step_ret_of_empty s running returns holds.sp
      exact ⟨answer, by rw [machine]; rfl, by rw [machine]; rfl⟩
  · intro running calls
    rw [← holds.sp]
    constructor
    · intro free
      obtain ⟨answer, machine⟩ := step_call_of_free s running calls free
      exact ⟨answer, by rw [machine],
        grown.trans (foldl_executedBy_of_call running answer calls)⟩
    · intro full
      obtain ⟨answer, machine⟩ := step_call_of_full s running calls (Nat.le_of_eq full.symm)
      exact ⟨answer, by rw [machine]; rfl, by rw [machine]; rfl⟩
  · intro m₁ m₂ m₁' m₂' later together same
    have sameThen := same.sideBySide together
    exact ⟨sameThen, fun a => (sameThen.perform a).1⟩

/-- A program that calls itself opens the program start with its first step, with whatever was left
in the stack. -/
theorem callStack_of_restarted_selfCall :
    let start := { ((initial {}).load {} [0x22, 0x00]).machine with random := .ofSeed none }
    Restarted {} start ∧ start.mode = .running ∧
      start.memory.readWord start.registers.pc / 4096 = 2 ∧
      (start.step {}).machine.registers.pc = 0x200 ∧
      openSites (start.history {} [.step]) = [0x200] ∧
      SameButStale (start.after {} [.step])
        ((start.withCalls (Vector.replicate stackDepth 7) 0).after {} [.step]) := by
  intro start
  have restarted : Restarted {} start := .load (initial {}) [0x22, 0x00] _ rfl
  have running : start.mode = .running := rfl
  have word : start.memory.readWord start.registers.pc = 0x2200 := by
    change ((Memory.initial.placeProgram [0x22, 0x00] (by decide)).readWord programStart) = _
    simp [Memory.readWord, Memory.placeProgram, Memory.read_place, Address.ofInt, programStart]
  have calls : start.memory.readWord start.registers.pc / 4096 = 2 := by rw [word]; rfl
  have elementary : ∀ a ∈ ([] : List Action), a.IsElementary := by simp
  obtain ⟨_, _, called, blind⟩ := callStack_of_restarted restarted elementary
  obtain ⟨_, target, opened⟩ := (called running calls).1 (by decide)
  have same : SameButStale start (start.withCalls (Vector.replicate stackDepth 7) 0) :=
    ⟨_, rfl, fun i below => absurd below (Nat.not_lt_zero i)⟩
  refine ⟨restarted, running, calls, ?_, opened, (blind (.of_after _ _ [.step]) same).1⟩
  exact target.trans (by rw [after_nil, word]; rfl)

end Machine

end Chip8
