import ScriptBuiltins.Proofs.Task
import ScriptBuiltins.Scope.Basic

/-! The guard of a scope. Whichever way the callback goes out, the release runs once and the guard
ends disarmed, and of what the guard and the table of results report there is at most one. -/
namespace ScriptBuiltins

variable {σ ε ρ α β : Type}

namespace Exit

/-- The end of a scope, from the ends of its callback and of its release. A panic is never replaced
by an error. -/
def closedBy : Exit ε α → Exit ρ Unit → Exit (ScopeError ε ρ) α
  | .done value, .done () => .done value
  | .failed error, .done () => .failed (.callback error)
  | .done _, .failed error => .failed (.release error none)
  | .failed masked, .failed error => .failed (.release error (some masked))
  | .panicked, _ => .panicked
  | _, .panicked => .panicked

def reportedBy : Exit ε α → Exit ρ Unit → List Event
  | .failed _, .failed _ => [.superseded]
  | .panicked, .failed _ => [.failedUnwinding]
  | _, _ => []

theorem closedBy_panicked (body : Exit ε α) :
    body.closedBy (.panicked : Exit ρ Unit) = .panicked := by
  cases body <;> rfl

end Exit

namespace Guarded

variable (release : Task σ ρ Unit) (s : σ)

theorem inside_arm (task : Task σ ε α) : inside task (arm s) =
    { exit := (task s).exit, state := arm (task s).state, events := (task s).events } := rfl

theorem drop_of_disarmed :
    drop release { state := s, armed := false }
      = { exit := .done (), state := { state := s, armed := false } } := rfl

theorem drop_arm : ∃ exit, drop release (arm s) =
    { exit
      state := { state := (release s).state, armed := false }
      events := (release s).events ++ (.panicked : Exit ε α).reportedBy (release s).exit } := by
  let disarmed : Guarded σ := { state := s, armed := false }
  have hdrop : drop release (arm s) = (inside release).attempt.andThen
      (fun released => if released.isOk then .done () else .report [.failedUnwinding])
      disarmed := rfl
  have hsame : (inside release disarmed).exit = (release s).exit := rfl
  rw [hdrop]
  cases (release s).exit.eq_panicked_or_ofResult with
  | inl hexit =>
    rw [Task.attempt_andThen_of_panicked (hsame.trans hexit), hexit]
    exact ⟨.panicked, by simp [inside, Exit.reportedBy, disarmed]⟩
  | inr hexit =>
    obtain ⟨result, hexit⟩ := hexit
    rw [Task.attempt_andThen_of_result (hsame.trans hexit), hexit]
    cases result <;> exact ⟨.done (), rfl⟩

/-- The guard is disarmed before the explicit release, so that it does nothing when it goes away. -/
theorem release_arm :
    Guarded.release release (arm s) =
      { exit := (release s).exit
        state := { state := (release s).state, armed := false }
        events := (release s).events } := by
  have hinside : (do disarm; inside release : Task (Guarded σ) ρ Unit) (arm s) =
      { exit := (release s).exit
        state := { state := (release s).state, armed := false }
        events := (release s).events } := rfl
  simp [Guarded.release, Task.ensuring, hinside, drop_of_disarmed]

theorem settle_eq (outcome : Except ε α) (released : Except ρ Unit) :
    settle outcome released s =
      { exit := (Exit.ofResult outcome).closedBy (.ofResult released)
        state := s
        events := (Exit.ofResult outcome).reportedBy (.ofResult released) } := by
  cases outcome <;> cases released <;> rfl

variable (extra : β) (callback : β → Task σ ε α)

def closing (outcome : Except ε α) : Task (Guarded σ) (ScopeError ε ρ) α :=
  (Guarded.release release).attempt.andThen fun released => settle outcome released

theorem closing_arm (outcome : Except ε α) :
    closing release outcome (arm s) =
      { exit := (Exit.ofResult outcome).closedBy (release s).exit
        state := { state := (release s).state, armed := false }
        events := (release s).events ++ (Exit.ofResult outcome).reportedBy (release s).exit } := by
  have hsame := congrArg Outcome.exit (release_arm release s)
  unfold closing
  cases (release s).exit.eq_panicked_or_ofResult with
  | inl hexit =>
    rw [Task.attempt_andThen_of_panicked (hsame.trans hexit), release_arm, hexit,
      Exit.closedBy_panicked]
    cases outcome <;> simp [Exit.reportedBy, Exit.ofResult]
  | inr hexit =>
    obtain ⟨result, hexit⟩ := hexit
    rw [Task.attempt_andThen_of_result (hsame.trans hexit), settle_eq, release_arm, hexit]

/-- A scope up to the end of its callback, which drops the guard by a panic. -/
def opening : Task (Guarded σ) (ScopeError ε ρ) (Except ε α) :=
  (inside (callback extra)).attempt.unwinding (drop release)

theorem opening_of_returned {outcome : Except ε α}
    (h : (callback extra s).exit = .ofResult outcome) :
    opening release extra callback (arm s) =
      { exit := .done outcome
        state := arm (callback extra s).state
        events := (callback extra s).events } := by
  have hinside : (inside (callback extra) (arm s)).exit = .ofResult outcome := h
  have hattempt := Task.attempt_of_result (δ := ScopeError ε ρ) hinside
  rw [opening, Task.unwinding_of_done (congrArg Outcome.exit hattempt), hattempt, inside_arm]

theorem opening_of_panicked (h : (callback extra s).exit = .panicked) :
    opening release extra callback (arm s) =
      let left := drop release (arm (callback extra s).state)
      { exit := .panicked
        state := left.state
        events := (callback extra s).events ++ left.events } := by
  have hinside : (inside (callback extra) (arm s)).exit = .panicked := h
  have hattempt := Task.attempt_of_panicked (δ := ScopeError ε ρ) hinside
  rw [opening, Task.unwinding_of_panicked (congrArg Outcome.exit hattempt), hattempt, inside_arm]

theorem scope_arm :
    let body := callback extra s
    let closing := release body.state
    scope release extra callback (arm s) =
      { exit := body.exit.closedBy closing.exit
        state := { state := closing.state, armed := false }
        events := body.events ++ closing.events ++ body.exit.reportedBy closing.exit } := by
  intro body closing
  have hscope : scope release extra callback (arm s)
      = (opening release extra callback).andThen (Guarded.closing release) (arm s) := rfl
  rw [hscope]
  cases body.exit.eq_panicked_or_ofResult with
  | inl hexit =>
    have hopening := opening_of_panicked release s extra callback hexit
    obtain ⟨exit, hdrop⟩ := drop_arm (ε := ε) (α := α) release body.state
    rw [Task.andThen_of_panicked (congrArg Outcome.exit hopening), hopening, hdrop, hexit]
    simp [Exit.closedBy, closing, body]
  | inr hexit =>
    obtain ⟨outcome, hexit⟩ := hexit
    have hopening := opening_of_returned release s extra callback hexit
    rw [Task.andThen_of_done (congrArg Outcome.exit hopening), hopening, closing_arm, hexit]
    simp [closing, body]

end Guarded

/-- A scope is its callback and one release of what that leaves. -/
theorem runScopedWith_eq (release : Task σ ρ Unit) (extra : β) (callback : β → Task σ ε α) (s : σ) :
    let body := callback extra s
    let closing := release body.state
    runScopedWith release extra callback s =
      { exit := body.exit.closedBy closing.exit
        state := closing.state
        events := body.events ++ closing.events ++ body.exit.reportedBy closing.exit } := by
  intro body closing
  unfold runScopedWith Guarded.run
  rw [Guarded.scope_arm]

/-- What a scope itself reports, by the ends of its callback and of its release. The table of
results and the guard are never both heard. -/
structure Reported (body : Exit ε α) (closing : Exit ρ Unit) (reported : List Event) : Prop where
  single : reported = [] ∨ reported = [.superseded] ∨ reported = [.failedUnwinding]
  superseded : .superseded ∈ reported ↔ (∃ e, body = .failed e) ∧ ∃ r, closing = .failed r
  failedUnwinding : .failedUnwinding ∈ reported ↔ body = .panicked ∧ ∃ r, closing = .failed r

theorem Exit.reportedBy_reported (body : Exit ε α) (closing : Exit ρ Unit) :
    Reported body closing (body.reportedBy closing) := by
  cases body <;> cases closing <;> constructor <;> simp [reportedBy]

theorem runScopedWith_reported (release : Task σ ρ Unit) (extra : β) (callback : β → Task σ ε α)
    (s : σ) :
    let body := callback extra s
    let closing := release body.state
    ∃ reported, (runScopedWith release extra callback s).events
        = body.events ++ closing.events ++ reported ∧
      Reported body.exit closing.exit reported := by
  intro body closing
  rw [runScopedWith_eq]
  exact ⟨_, rfl, Exit.reportedBy_reported _ _⟩

end ScriptBuiltins
