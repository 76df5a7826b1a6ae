import ScriptBuiltins.Event

/-!
Tasks: steps on a state that report events and end in one of three ways.
-/
namespace ScriptBuiltins

inductive Exit (ε α : Type) where
  | done (value : α)
  | failed (error : ε)
  | panicked

structure Outcome (σ ε α : Type) where
  exit : Exit ε α
  state : σ
  events : List Event := []

/-- The state that a task leaves is there however it ends. -/
def Task (σ ε α : Type) : Type := σ → Outcome σ ε α

namespace Task

variable {σ τ ε ε' α β : Type}

def done (value : α) : Task σ ε α := fun s => { exit := .done value, state := s }

def fail (error : ε) : Task σ ε α := fun s => { exit := .failed error, state := s }

def panic : Task σ ε α := fun s => { exit := .panicked, state := s }

def andThen (first : Task σ ε α) (next : α → Task σ ε β) : Task σ ε β := fun s =>
  let a := first s
  match a.exit with
  | .done value =>
    let b := next value a.state
    { b with events := a.events ++ b.events }
  | .failed error => { exit := .failed error, state := a.state, events := a.events }
  | .panicked => { exit := .panicked, state := a.state, events := a.events }

theorem andThen_of_done {first : Task σ ε α} {next : α → Task σ ε β} {s : σ} {value : α}
    (h : (first s).exit = .done value) :
    first.andThen next s =
      { next value (first s).state with
        events := (first s).events ++ (next value (first s).state).events } := by
  simp [andThen, h]

theorem andThen_of_failed {first : Task σ ε α} {next : α → Task σ ε β} {s : σ} {error : ε}
    (h : (first s).exit = .failed error) :
    first.andThen next s =
      { exit := .failed error, state := (first s).state, events := (first s).events } := by
  simp [andThen, h]

theorem andThen_of_panicked {first : Task σ ε α} {next : α → Task σ ε β} {s : σ}
    (h : (first s).exit = .panicked) :
    first.andThen next s =
      { exit := .panicked, state := (first s).state, events := (first s).events } := by
  simp [andThen, h]

instance : Monad (Task σ ε) where
  pure := done
  bind := andThen

def modify (f : σ → σ) : Task σ ε Unit := fun s => { exit := .done (), state := f s }

def read : Task σ ε σ := fun s => { exit := .done s, state := s }

def report (events : List Event) : Task σ ε Unit := fun s =>
  { exit := .done (), state := s, events }

def mapError (f : ε → ε') (task : Task σ ε α) : Task σ ε' α := fun s =>
  let a := task s
  match a.exit with
  | .done value => { a with exit := .done value }
  | .failed error => { a with exit := .failed (f error) }
  | .panicked => { a with exit := .panicked }

def onFirst (task : Task σ ε α) : Task (σ × τ) ε α := fun (s, t) =>
  let a := task s
  { exit := a.exit, state := (a.state, t), events := a.events }

def attempt (task : Task σ ε α) : Task σ ε' (Except ε α) := fun s =>
  let a := task s
  match a.exit with
  | .done value => { a with exit := .done (.ok value) }
  | .failed error => { a with exit := .done (.error error) }
  | .panicked => { a with exit := .panicked }

/-- A panic of the task runs the cleanup and goes on behind it. -/
def unwinding (task : Task σ ε α) (cleanup : Task σ Empty Unit) : Task σ ε α := fun s =>
  let a := task s
  match a.exit with
  | .panicked =>
    let b := cleanup a.state
    { exit := .panicked, state := b.state, events := a.events ++ b.events }
  | .done _ | .failed _ => a

/-- The cleanup runs behind the task, however that ends. -/
def ensuring (task : Task σ ε α) (cleanup : Task σ Empty Unit) : Task σ ε α := fun s =>
  let a := task s
  let b := cleanup a.state
  match b.exit with
  | .done () => { exit := a.exit, state := b.state, events := a.events ++ b.events }
  | .panicked => { exit := .panicked, state := b.state, events := a.events ++ b.events }

def ofExcept : Except ε α → Task σ ε α
  | .ok value => done value
  | .error error => fail error

end Task
end ScriptBuiltins
