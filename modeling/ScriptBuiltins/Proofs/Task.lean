import ScriptBuiltins.Task

namespace ScriptBuiltins

variable {σ δ ε ε' α β γ : Type}

namespace Exit

/-- The end of a task that can only fail. -/
def ofError? : Option ε → Exit ε Unit
  | none => .done ()
  | some error => .failed error

def ofResult : Except ε α → Exit ε α
  | .ok value => .done value
  | .error error => .failed error

theorem eq_panicked_or_ofResult (exit : Exit ε α) :
    exit = .panicked ∨ ∃ result, exit = .ofResult result := by
  cases exit with
  | done value => exact .inr ⟨.ok value, rfl⟩
  | failed error => exact .inr ⟨.error error, rfl⟩
  | panicked => exact .inl rfl

end Exit

namespace Task

theorem read_bind (next : σ → Task σ ε β) (s : σ) :
    ((read : Task σ ε σ) >>= next) s = next s s := rfl

theorem andThen_assoc (first : Task σ ε α) (next : α → Task σ ε β) (last : β → Task σ ε γ) :
    (first.andThen next).andThen last = first.andThen fun a => (next a).andThen last := by
  funext s
  cases hfirst : (first s).exit with
  | done a =>
    cases hnext : (next a (first s).state).exit <;> simp [andThen, hfirst, hnext]
  | failed e => simp [andThen, hfirst]
  | panicked => simp [andThen, hfirst]

theorem andThen_done (task : Task σ ε Unit) : task.andThen (fun () => done ()) = task := by
  funext s
  cases hexit : (task s).exit <;> simp [andThen, done, hexit]
  all_goals simp [← hexit]

theorem mapError_andThen (f : ε → ε') (first : Task σ ε α) (next : α → Task σ ε β) :
    (first.andThen next).mapError f = (first.mapError f).andThen fun a => (next a).mapError f := by
  funext s
  cases hfirst : (first s).exit with
  | done a =>
    cases hnext : (next a (first s).state).exit <;> simp [andThen, mapError, hfirst, hnext]
  | failed e => simp [andThen, mapError, hfirst]
  | panicked => simp [andThen, mapError, hfirst]

variable {task : Task σ ε α} {s : σ}

theorem attempt_of_result {result : Except ε α} (h : (task s).exit = .ofResult result) :
    (task.attempt : Task σ δ (Except ε α)) s =
      { exit := .done result, state := (task s).state, events := (task s).events } := by
  cases result <;> simp [attempt, h, Exit.ofResult]

theorem attempt_of_panicked (h : (task s).exit = .panicked) :
    (task.attempt : Task σ δ (Except ε α)) s =
      { exit := .panicked, state := (task s).state, events := (task s).events } := by
  simp [attempt, h]

theorem attempt_andThen_of_result {result : Except ε α} (h : (task s).exit = .ofResult result)
    (next : Except ε α → Task σ ε' β) :
    (task.attempt.andThen next) s = { next result (task s).state with
      events := (task s).events ++ (next result (task s).state).events } := by
  have hattempt := attempt_of_result (δ := ε') h
  rw [andThen_of_done (congrArg Outcome.exit hattempt), hattempt]

theorem attempt_andThen_of_panicked (h : (task s).exit = .panicked)
    (next : Except ε α → Task σ ε' β) :
    (task.attempt.andThen next) s
      = { exit := .panicked, state := (task s).state, events := (task s).events } := by
  have hattempt := attempt_of_panicked (δ := ε') h
  rw [andThen_of_panicked (congrArg Outcome.exit hattempt), hattempt]

theorem unwinding_of_done {value : α} (h : (task s).exit = .done value)
    (cleanup : Task σ Empty Unit) : task.unwinding cleanup s = task s := by
  simp [unwinding, h]

theorem unwinding_of_panicked (h : (task s).exit = .panicked) (cleanup : Task σ Empty Unit) :
    task.unwinding cleanup s =
      let after := cleanup (task s).state
      { exit := .panicked, state := after.state, events := (task s).events ++ after.events } := by
  simp [unwinding, h]

end Task
end ScriptBuiltins
