import AccessBench.Error
import AccessBench.Halt

/-!
Actions: steps on a state that can succeed, fail with an error, or halt. An action that stops before
its end keeps the state that it has reached.
-/

namespace AccessBench

/-- Why an action stops before its end. -/
inductive Stop
  /-- An error, from which whoever began the action can go on. -/
  | failed (error : BenchError)
  /-- A fault that ends the whole program. -/
  | halted (reason : Halt)
  deriving DecidableEq, Repr

/-- An action on a state of type `σ`. -/
abbrev Action (σ α : Type) := ExceptT Stop (StateM σ) α

namespace Action

variable {σ α : Type}

def perform (action : Action σ α) (s : σ) : Except Stop α × σ := StateT.run (ExceptT.run action) s

/-- Lifts an answer, from which the action stops where there is none. -/
def ofAnswer (answer : Except Stop α) : Action σ α := fun s => (answer, s)

def ofHalting (answer : Except Halt α) : Action σ α := ofAnswer (answer.mapError .halted)

def ofResult (answer : Except BenchError α) : Action σ α := ofAnswer (answer.mapError .failed)

/-- Lifts a step that may end with an error. -/
def ofStep (step : σ → Except BenchError α × σ) : Action σ α := fun s =>
  let (answer, s) := step s
  (answer.mapError .failed, s)

def update (f : σ → α × σ) : Action σ α := fun s =>
  let (a, s) := f s
  (.ok a, s)

end Action

/-- An action and then, however it ended, a change of the state. -/
def Action.finally {σ α : Type} (action : Action σ α) (cleanup : σ → σ) : Action σ α := fun s =>
  let (answer, s) := action.perform s
  (answer, cleanup s)

/-- Whether an action has ended the program on the spot. -/
def Stop.aborts : Stop → Bool
  | failed _ => false
  | halted reason => reason.aborts

/-- An action and then a change of the state, unless the program has ended on the spot. -/
def Action.unwinding {σ α : Type} (action : Action σ α) (cleanup : σ → σ) : Action σ α := fun s =>
  match action.perform s with
  | (.ok a, s) => (.ok a, cleanup s)
  | (.error stop, s) => (.error stop, if stop.aborts then s else cleanup s)

end AccessBench
