import ScriptBuiltins.Task

/-!
Scopes: a callback on a resource, which is released once when the callback has ended, however it
ended. If both callback and release fail, the error of the release is reported and that of the
callback is kept with it.
-/
namespace ScriptBuiltins

inductive EntryError where
  | nullResource
  | notCallable
  deriving DecidableEq

def EntryError.message : EntryError → String
  | .nullResource => "cannot use null as a scoped resource"
  | .notCallable => "value is not callable"

inductive ScopeError (ε ρ : Type) where
  | entry (error : EntryError)
  | callback (error : ε)
  | release (error : ρ) (masked : Option ε)
  deriving DecidableEq

namespace ScopeError

variable {ε ρ : Type}

def isRelease : ScopeError ε ρ → Bool
  | .release .. => true
  | _ => false

def masked? : ScopeError ε ρ → Option ε
  | .release _ masked => masked
  | _ => none

def callback? : ScopeError ε ρ → Option ε
  | .callback error => some error
  | _ => none

def release? : ScopeError ε ρ → Option ρ
  | .release error _ => some error
  | _ => none

def message (ofCallback : ε → String) (ofRelease : ρ → String) : ScopeError ε ρ → String
  | .entry error => error.message
  | .callback error => ofCallback error
  | .release error _ => ofRelease error

def cause? (ofCallback : ε → Option String) (ofRelease : ρ → Option String) :
    ScopeError ε ρ → Option String
  | .entry _ => none
  | .callback error => ofCallback error
  | .release error _ => ofRelease error

end ScopeError

variable {σ ε ρ α β : Type}

/-- What a scope has in its hands, and whether it still owes it the release. -/
structure Guarded (σ : Type) where
  state : σ
  armed : Bool

namespace Guarded

def arm (s : σ) : Guarded σ := { state := s, armed := true }

def inside (task : Task σ ε α) : Task (Guarded σ) ε α := fun guard =>
  let a := task guard.state
  { exit := a.exit, state := { guard with state := a.state }, events := a.events }

def disarm : Task (Guarded σ) ε Unit := .modify fun guard => { guard with armed := false }

/-- A guard that goes away while it is armed releases what it guards. Nobody is there to take an
error of that release. -/
def drop (release : Task σ ρ Unit) : Task (Guarded σ) Empty Unit := do
  let guard ← .read
  if guard.armed then
    disarm
    let released ← (inside release).attempt
    if released.isOk then .done () else .report [.failedUnwinding]
  else .done ()

/-- The explicit release, at the end of which the guard goes away as well. -/
def release (release : Task σ ρ Unit) : Task (Guarded σ) ρ Unit :=
  Task.ensuring (do disarm; inside release) (drop release)

def run (task : Task (Guarded σ) ε α) : Task σ ε α := fun s =>
  let a := task (arm s)
  { exit := a.exit, state := a.state.state, events := a.events }

end Guarded

def settle : Except ε α → Except ρ Unit → Task σ (ScopeError ε ρ) α
  | .ok value, .ok () => .done value
  | .error error, .ok () => .fail (.callback error)
  | .ok _, .error error => .fail (.release error none)
  | .error masked, .error error => do
    .report [.superseded]
    .fail (.release error (some masked))

/-- Runs a callback with something extra for it, and then the release. A panic of the callback drops
the guard; otherwise the release takes it over. -/
def Guarded.scope (release : Task σ ρ Unit) (extra : β) (callback : β → Task σ ε α) :
    Task (Guarded σ) (ScopeError ε ρ) α := do
  let outcome ← (inside (callback extra)).attempt.unwinding (drop release)
  let released ← (Guarded.release release).attempt
  settle outcome released

def runScopedWith (release : Task σ ρ Unit) (extra : β) (callback : β → Task σ ε α) :
    Task σ (ScopeError ε ρ) α :=
  Guarded.run (Guarded.scope release extra callback)

def runScoped (release : Task σ ρ Unit) (callback : Task σ ε α) : Task σ (ScopeError ε ρ) α :=
  runScopedWith release () fun () => callback

def tryScoped (release : Option (Task σ ρ Unit)) (callback : Option (β → Task σ ε α)) (extra : β) :
    Task σ (ScopeError ε ρ) α :=
  match release, callback with
  | none, _ => .fail (.entry .nullResource)
  | some _, none => .fail (.entry .notCallable)
  | some release, some callback => runScopedWith release extra callback

/-- Releases what a slot holds and leaves it empty, whether or not that fails. An empty slot is
released without effect. -/
def releaseSlot {τ : Type} (release : τ → Task σ ρ Unit) : Task (σ × Option τ) ρ Unit
  | (s, none) => { exit := .done (), state := (s, none) }
  | (s, some held) => (release held).onFirst (s, none)

end ScriptBuiltins
