import Chip8.LogEntry

/-! # Outcomes

What an action on the machine leaves behind: its answer or the reason why it did not finish, the
machine in either case, and the log entries in order.
-/

namespace Chip8

/-- The answer to an action, the machine after it and what was logged. -/
structure Outcome (α : Type) where
  answer : Except Refusal α
  machine : Machine
  log : List LogEntry

namespace Outcome

def done {α : Type} (answer : α) (machine : Machine) (log : List LogEntry := []) : Outcome α :=
  ⟨.ok answer, machine, log⟩

/-- An action that stopped at this machine. -/
def refused {α : Type} (reason : Refusal) (machine : Machine) (log : List LogEntry := []) :
    Outcome α :=
  ⟨.error reason, machine, log⟩

/-- Go on with a looked-up value, or stop at this machine. -/
def lookup {α β : Type} (found : Except Refusal β) (machine : Machine) (next : β → Outcome α) :
    Outcome α :=
  match found with
  | .ok value => next value
  | .error reason => refused reason machine

@[simp] theorem lookup_ok {α β : Type} (value : β) (machine : Machine) (next : β → Outcome α) :
    Outcome.lookup (.ok value) machine next = next value := rfl

@[simp] theorem lookup_error {α β : Type} (reason : Refusal) (machine : Machine)
    (next : β → Outcome α) :
    Outcome.lookup (.error reason) machine next = refused reason machine := rfl

@[simp] theorem answer_done {α : Type} (answer : α) (machine : Machine) (log : List LogEntry) :
    (done answer machine log).answer = .ok answer := rfl

@[simp] theorem machine_done {α : Type} (answer : α) (machine : Machine) (log : List LogEntry) :
    (done answer machine log).machine = machine := rfl

@[simp] theorem log_done {α : Type} (answer : α) (machine : Machine) (log : List LogEntry) :
    (done answer machine log).log = log := rfl

@[simp] theorem answer_refused {α : Type} (reason : Refusal) (machine : Machine)
    (log : List LogEntry) : (refused reason machine log : Outcome α).answer = .error reason := rfl

@[simp] theorem machine_refused {α : Type} (reason : Refusal) (machine : Machine)
    (log : List LogEntry) : (refused reason machine log : Outcome α).machine = machine := rfl

@[simp] theorem log_refused {α : Type} (reason : Refusal) (machine : Machine)
    (log : List LogEntry) : (refused reason machine log : Outcome α).log = log := rfl

end Outcome

end Chip8
