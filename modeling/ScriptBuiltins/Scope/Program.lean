import ScriptBuiltins.Json.Basic
import ScriptBuiltins.Scope.Basic

/-!
Programs of nested scopes over named resources, and the log of what they did.
-/
namespace ScriptBuiltins

inductive ReleaseAction where
  | ok
  | err
  | panic
  deriving DecidableEq

def ReleaseAction.name : ReleaseAction → String
  | .ok => "ok"
  | .err => "err"
  | .panic => "panic"

/-- A resource with the actions of its releases, in order; past them all releases succeed. -/
structure Resource where
  name : String
  value : Json
  script : List ReleaseAction
  releases : Nat := 0
  closed : Bool := false

def Resource.nextAction (r : Resource) : ReleaseAction := r.script[r.releases]?.getD .ok

structure Failure where
  message : String
  cause : Option String
  deriving DecidableEq

abbrev ScopeFailure := ScopeError Failure Failure

def ScopeError.toFailure (e : ScopeFailure) : Failure where
  message := e.message Failure.message Failure.message
  cause := e.cause? Failure.cause Failure.cause

inductive LogEntry where
  | text (text : String)
  | releasing (name : String) (action : ReleaseAction)
  | released (error : Option String)
  | caughtPanic
  | entered (name : String) (value : Json) (extra : Option String)
  | leftDone (name : String) (value : Json)
  | leftFailed (name : String) (error : ScopeFailure) (asRelease : Bool)
  | slotEmpty (empty : Bool)
  | releasedAgain (ok : Bool)

structure World where
  resources : List Resource
  log : List LogEntry := []

inductive Entrance where
  | plain
  | withExtra (extra : String)
  | checked (extra : String) (callable : Bool)

/-- A scope: the resource, if there is one, whether a slot holds it, the value of the callback, and
what is done with its error. -/
structure ScopeFrame where
  entrance : Entrance
  resource : Option Nat
  inSlot : Bool
  value : Json
  asRelease : Bool
  ignoresError : Bool

inductive Action where
  | log (text : String)
  | set (resource : Nat) (value : Json)
  | release (resource : Nat)
  | fail (failure : Failure)
  | panic
  | shield (body : List Action)
  | scope (frame : ScopeFrame) (body : List Action)

namespace World

variable {ε : Type}

def record (entry : LogEntry) : Task World ε Unit :=
  .modify fun w => { w with log := w.log ++ [entry] }

def update (i : Nat) (f : Resource → Resource) : Task World ε Unit :=
  .modify fun w => { w with resources := w.resources.modify i f }

def release (i : Nat) : Task World Failure Unit := do
  let w ← .read
  match w.resources[i]? with
  | none => .done ()
  | some r =>
    update i fun r => { r with releases := r.releases + 1 }
    record (.releasing r.name r.nextAction)
    match r.nextAction with
    | .ok => update i fun r => { r with closed := true }
    | .err => .fail ⟨s!"{r.name} close {r.releases + 1} failed", some "disk gone"⟩
    | .panic => .panic

def nameOf (w : World) (resource : Option Nat) : String :=
  ((resource.bind (w.resources[·]?)).map Resource.name).getD "null"

def valueOf (w : World) (resource : Option Nat) : Json :=
  ((resource.bind (w.resources[·]?)).map Resource.value).getD .null

end World

namespace ScopeFrame

variable {σ : Type}

def enter (frame : ScopeFrame) (release : Option (Task σ Failure Unit))
    (callback : Option String → Task σ Failure Json) : Task σ ScopeFailure Json :=
  match frame.entrance, release with
  | .plain, some release => runScoped release (callback none)
  | .withExtra extra, some release => runScopedWith release (some extra) callback
  | .checked extra callable, release =>
    tryScoped release (if callable then some callback else none) (some extra)
  | _, none => .fail (.entry .nullResource)

def leave (frame : ScopeFrame) (name : String) : Except ScopeFailure Json → Task World Failure Unit
  | .ok value => World.record (.leftDone name value)
  | .error error => do
    World.record (.leftFailed name error frame.asRelease)
    if frame.ignoresError then .done () else .fail error.toFailure

def callback (frame : ScopeFrame) (body : Task World Failure Unit) (extra : Option String) :
    Task World Failure Json := do
  let w ← .read
  World.record (.entered (w.nameOf frame.resource) (w.valueOf frame.resource) extra)
  body
  .done frame.value

def runPlain (frame : ScopeFrame) (body : Task World Failure Unit) : Task World Failure Unit := do
  let w ← .read
  let result ← (frame.enter (frame.resource.map World.release) (frame.callback body)).attempt
  frame.leave (w.nameOf frame.resource) result

/-- A scope on a resource in a fresh slot. After it the slot is looked at and, unless a failure goes
on, released once more. -/
def runInSlot (frame : ScopeFrame) (i : Nat) (body : Task World Failure Unit) :
    Task World Failure Unit :=
  let inSlot : Task (World × Option Nat) Failure Unit := do
    let (w, _) ← .read
    let result ← (frame.enter (some (releaseSlot World.release))
      fun extra => (frame.callback body extra).onFirst).attempt
    let left ← (frame.leave (w.nameOf frame.resource) result).onFirst.attempt
    let (_, slot) ← .read
    (World.record (.slotEmpty slot.isNone)).onFirst
    Task.ofExcept left
    let again ← (releaseSlot World.release).attempt
    (World.record (.releasedAgain again.isOk)).onFirst
  fun w =>
    let a := inSlot (w, some i)
    { exit := a.exit, state := a.state.1, events := a.events }

def run (frame : ScopeFrame) (body : Task World Failure Unit) : Task World Failure Unit :=
  match frame.inSlot, frame.resource with
  | true, some i => frame.runInSlot i body
  | _, _ => frame.runPlain body

end ScopeFrame

namespace Action

mutual

def run : Action → Task World Failure Unit
  | .log text => World.record (.text text)
  | .set i value => World.update i fun r => { r with value }
  | .release i => do
    let result ← (World.release i).attempt
    World.record (.released (match result with
      | .ok () => none
      | .error e => some e.message))
  | .fail failure => .fail failure
  | .panic => .panic
  | .shield body => fun w =>
    let a := runAll body w
    match a.exit with
    | .panicked =>
      let recorded := World.record .caughtPanic a.state
      { recorded with events := a.events }
    | _ => a
  | .scope frame body => frame.run (runAll body)

def runAll : List Action → Task World Failure Unit
  | [] => .done ()
  | action :: rest => do
    run action
    runAll rest

end

end Action
end ScriptBuiltins
