import Mathlib.Data.List.Forall2
import ScriptBuiltins.Proofs.Output.Calls
import ScriptBuiltins.Proofs.Scope.Guard

/-! Two writers side by side. If every call ends alike on the one and on the other and leaves them
related, so does every output step, and so do a run of steps and a scope. -/
namespace ScriptBuiltins

variable {σ τ ε ε' ρ α β : Type} {R : σ → τ → Prop}

structure Outcome.Agrees (R : σ → τ → Prop) (a : Outcome σ ε α) (b : Outcome τ ε α) : Prop where
  exit : a.exit = b.exit
  state : R a.state b.state
  events : a.events = b.events

/-- From related states the tasks come to outcomes that agree. -/
def Task.Agrees (R : σ → τ → Prop) (f : Task σ ε α) (g : Task τ ε α) : Prop :=
  ∀ s t, R s t → (f s).Agrees R (g t)

namespace Task.Agrees

theorem done (value : α) : Agrees R (.done value : Task σ ε α) (.done value) :=
  fun _ _ h => ⟨rfl, h, rfl⟩

theorem andThen {first : Task σ ε α} {next : α → Task σ ε β} {first' : Task τ ε α}
    {next' : α → Task τ ε β} (hfirst : first.Agrees R first')
    (hnext : ∀ a, (next a).Agrees R (next' a)) :
    (first.andThen next).Agrees R (first'.andThen next') := by
  intro s t h
  obtain ⟨hexit, hstate, hevents⟩ := hfirst s t h
  cases hend : (first s).exit with
  | done a =>
    obtain ⟨hexit', hstate', hevents'⟩ := hnext a _ _ hstate
    rw [andThen_of_done hend, andThen_of_done (hexit ▸ hend)]
    exact ⟨hexit', hstate', by rw [hevents, hevents']⟩
  | failed e =>
    rw [andThen_of_failed hend, andThen_of_failed (hexit ▸ hend)]
    exact ⟨rfl, hstate, hevents⟩
  | panicked =>
    rw [andThen_of_panicked hend, andThen_of_panicked (hexit ▸ hend)]
    exact ⟨rfl, hstate, hevents⟩

theorem mapError {f : Task σ ε α} {g : Task τ ε α} (h : f.Agrees R g) (wrap : ε → ε') :
    (f.mapError wrap).Agrees R (g.mapError wrap) := by
  intro s t hrelated
  obtain ⟨hexit, hstate, hevents⟩ := h s t hrelated
  cases hend : (g t).exit <;> simp only [Task.mapError, hexit, hend] <;>
    exact ⟨rfl, hstate, hevents⟩

theorem runScoped {release : Task σ ρ Unit} {callback : Task σ ε α} {release' : Task τ ρ Unit}
    {callback' : Task τ ε α} (hrelease : release.Agrees R release')
    (hcallback : callback.Agrees R callback') :
    (runScoped release callback).Agrees R (ScriptBuiltins.runScoped release' callback') := by
  intro s t h
  obtain ⟨hexit, hstate, hevents⟩ := hcallback s t h
  obtain ⟨hexit', hstate', hevents'⟩ := hrelease _ _ hstate
  simp only [ScriptBuiltins.runScoped, runScopedWith_eq]
  rw [hexit, hexit', hevents, hevents']
  exact ⟨rfl, hstate', rfl⟩

end Task.Agrees

section Steps

variable [Writer σ] [Writer τ]

theorem WriterCall.runAll_agrees
    (hcall : ∀ call : WriterCall, (call.run : Task σ OutputError Unit).Agrees R call.run)
    (calls : List WriterCall) :
    (runAll calls : Task σ OutputError Unit).Agrees R (runAll calls) := by
  induction calls with
  | nil => exact .done ()
  | cons call rest ih => exact (hcall call).andThen fun () => ih

theorem OutputStep.run_agrees
    (hcall : ∀ call : WriterCall, (call.run : Task σ OutputError Unit).Agrees R call.run)
    (step : OutputStep) : (step.run : Task σ WriteError Unit).Agrees R step.run := by
  intro s t h
  rw [run_eq, run_eq]
  cases step.calls with
  | ok calls =>
    have hagrees := (WriterCall.runAll_agrees hcall calls).mapError WriteError.output s t h
    exact ⟨hagrees.exit, hagrees.state, congrArg (step.reported ++ ·) hagrees.events⟩
  | error e => exact ⟨rfl, h, rfl⟩

end Steps

namespace Session

/-- Sessions whose writers are related, now and after each step so far. -/
structure Alike (R : Buffered → Buffered → Prop) (s t : Session) : Prop where
  writer : R s.writer t.writer
  history : List.Forall₂ R s.history t.history

variable {R : Buffered → Buffered → Prop}

theorem onWriter_agrees {f g : Task Buffered ε α} (h : f.Agrees R g) :
    (onWriter f).Agrees (Alike R) (onWriter g) := by
  intro s t halike
  obtain ⟨hexit, hstate, hevents⟩ := h _ _ halike.writer
  exact ⟨hexit, ⟨hstate, halike.history⟩, hevents⟩

theorem step_agrees {step : OutputStep}
    (h : (step.run : Task Buffered WriteError Unit).Agrees R step.run) :
    (Session.step step).Agrees (Alike R) (Session.step step) := by
  intro s t halike
  obtain ⟨hexit, hstate, hevents⟩ := h _ _ halike.writer
  exact ⟨hexit, ⟨hstate, List.rel_append halike.history (.cons hstate .nil)⟩, hevents⟩

theorem run_agrees
    (hcall : ∀ call : WriterCall, (call.run : Task Buffered OutputError Unit).Agrees R call.run)
    (steps : List OutputStep) : (run steps).Agrees (Alike R) (run steps) := by
  have hsteps : (runAll steps).Agrees (Alike R) (runAll steps) := by
    induction steps with
    | nil => exact .done ()
    | cons step rest ih => exact (step_agrees (step.run_agrees hcall)).andThen fun () => ih
  exact .runScoped (onWriter_agrees (hcall .flush)) hsteps

end Session
end ScriptBuiltins
