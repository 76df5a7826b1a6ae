import ScriptBuiltins.Scope.Program

/-! What programs of scopes do, told as episodes. A scope that was entered is one episode: its
callback with all that happens in it, and then the one release of its resource. -/
namespace ScriptBuiltins

namespace Resource

def releaseError? (r : Resource) : Option Failure :=
  if r.nextAction = .err then
    some ⟨s!"{r.name} close {r.releases + 1} failed", some "disk gone"⟩
  else none

def released (r : Resource) : Resource :=
  { r with releases := r.releases + 1, closed := r.closed || r.nextAction = .ok }

end Resource

inductive Episode where
  | note (entry : LogEntry)
  | release (resource : Nat) (before : Resource)
  /-- A scope: its resource as the callback found it, what the body of the callback did and how it
  ended, and the resource as the callback left it to the release. -/
  | scope (resource : Nat) (found : Resource) (extra : Option String) (body : List Episode)
      (ending : Exit Failure Unit) (left : Resource)

namespace Episode

mutual

/-- The log of an episode. That of a scope ends with its release. -/
def entries : Episode → List LogEntry
  | note entry => [entry]
  | release _ before => [.releasing before.name before.nextAction]
  | scope _ found extra body _ left =>
    .entered found.name found.value extra
      :: (entriesAll body ++ [.releasing left.name left.nextAction])

def entriesAll : List Episode → List LogEntry
  | [] => []
  | e :: es => entries e ++ entriesAll es

end

mutual

/-- How often a resource is released: once in each scope on it, and once in each release outside of
scopes. -/
def releasesOf (i : Nat) : Episode → Nat
  | note _ => 0
  | release j _ => if i = j then 1 else 0
  | scope j _ _ body _ _ => releasesOfAll i body + if i = j then 1 else 0

def releasesOfAll (i : Nat) : List Episode → Nat
  | [] => 0
  | e :: es => releasesOf i e + releasesOfAll i es

end

/-- What is reported of the errors of a callback and of a release when not both of them can be the
result of their scope. -/
def reportedOf : Exit Failure Unit → Option Failure → List Event
  | .failed _, some _ => [.superseded]
  | .panicked, some _ => [.failedUnwinding]
  | _, _ => []

mutual

def events : Episode → List Event
  | note _ => []
  | release _ _ => []
  | scope _ _ _ body ending left => eventsAll body ++ reportedOf ending left.releaseError?

def eventsAll : List Episode → List Event
  | [] => []
  | e :: es => events e ++ eventsAll es

end

theorem eventsAll_append (es fs : List Episode) :
    eventsAll (es ++ fs) = eventsAll es ++ eventsAll fs := by
  induction es with
  | nil => rfl
  | cons e es ih => simp [eventsAll, ih]

theorem entriesAll_append (es fs : List Episode) :
    entriesAll (es ++ fs) = entriesAll es ++ entriesAll fs := by
  induction es with
  | nil => rfl
  | cons e es ih => simp [entriesAll, ih]

theorem releasesOfAll_append (i : Nat) (es fs : List Episode) :
    releasesOfAll i (es ++ fs) = releasesOfAll i es + releasesOfAll i fs := by
  induction es with
  | nil => simp [releasesOfAll]
  | cons e es ih => simp [releasesOfAll, ih, Nat.add_assoc]

end Episode

namespace ScopeFrame

def refusal? (frame : ScopeFrame) : Option EntryError :=
  match frame.resource, frame.entrance with
  | none, _ => some .nullResource
  | some _, .checked _ false => some .notCallable
  | some _, _ => none

def extra? (frame : ScopeFrame) : Option String :=
  match frame.entrance with
  | .plain => none
  | .withExtra extra => some extra
  | .checked extra _ => some extra

/-- The result of a scope from the end of its callback, which has a value to give, and from the
error of its release. -/
inductive Settled (value : Json) :
    Exit Failure Unit → Option Failure → Exit ScopeFailure Json → Prop
  | value : Settled value (.done ()) none (.done value)
  | callback (e : Failure) : Settled value (.failed e) none (.failed (.callback e))
  | release (r : Failure) : Settled value (.done ()) (some r) (.failed (.release r none))
  | masking (e r : Failure) : Settled value (.failed e) (some r) (.failed (.release r (some e)))
  | panic (error : Option Failure) : Settled value .panicked error .panicked

/-- What goes on from a scope with a result, and what is noted of it. -/
inductive Left (frame : ScopeFrame) (name : String) :
    Exit ScopeFailure Json → List Episode → Exit Failure Unit → Prop
  | done (value : Json) : Left frame name (.done value) [.note (.leftDone name value)] (.done ())
  | ignored (error : ScopeFailure) (h : frame.ignoresError) :
    Left frame name (.failed error) [.note (.leftFailed name error frame.asRelease)] (.done ())
  | passed (error : ScopeFailure) (h : frame.ignoresError = false) :
    Left frame name (.failed error) [.note (.leftFailed name error frame.asRelease)]
      (.failed error.toFailure)
  | panicked : Left frame name .panicked [] .panicked

/-- How the slot of a scope is looked at and released again, unless a panic or a failure goes on.
The scope has emptied the slot if it was entered. -/
inductive Checked (entered : Bool) :
    Option Nat → Exit Failure Unit → List Resource → List Episode → List Resource → Prop
  | noSlot (exit : Exit Failure Unit) (resources : List Resource) :
    Checked entered none exit resources [] resources
  | panicked (i : Nat) (resources : List Resource) :
    Checked entered (some i) .panicked resources [] resources
  | failed (i : Nat) (error : Failure) (resources : List Resource) :
    Checked entered (some i) (.failed error) resources [.note (.slotEmpty entered)] resources
  | empty (i : Nat) (resources : List Resource) (h : entered) :
    Checked entered (some i) (.done ()) resources
      [.note (.slotEmpty true), .note (.releasedAgain true)] resources
  | full (i : Nat) (resources : List Resource) (r : Resource) (h : entered = false)
      (hr : resources[i]? = some r) :
    Checked entered (some i) (.done ()) resources
      [.note (.slotEmpty false), .release i r, .note (.releasedAgain r.releaseError?.isNone)]
      (resources.set i r.released)

def slot? (frame : ScopeFrame) : Option Nat := if frame.inSlot then frame.resource else none

end ScopeFrame

namespace Action

mutual

/-- Actions that take resources to episodes and to what the resources are then. A scope is entered
or refused; if it is entered its callback comes first, then its release, and then all else. -/
inductive Plays :
    Action → List Resource → List Episode → Exit Failure Unit → List Resource → Prop
  | log (text : String) (resources : List Resource) :
    Plays (.log text) resources [.note (.text text)] (.done ()) resources
  | set (i : Nat) (value : Json) (resources : List Resource) :
    Plays (.set i value) resources [] (.done ())
      (resources.modify i fun r => { r with value })
  | release (i : Nat) (resources : List Resource) (r : Resource) (hr : resources[i]? = some r) :
    Plays (.release i) resources
      [.release i r, .note (.released (r.releaseError?.map Failure.message))] (.done ())
      (resources.set i r.released)
  | fail (failure : Failure) (resources : List Resource) :
    Plays (.fail failure) resources [] (.failed failure) resources
  | panic (resources : List Resource) : Plays .panic resources [] .panicked resources
  | caught {body : List Action} {resources after : List Resource} {episodes : List Episode}
      (hbody : PlaysAll body resources episodes .panicked after) :
    Plays (.shield body) resources (episodes ++ [.note .caughtPanic]) (.done ()) after
  | shielded {body : List Action} {resources after : List Resource} {episodes : List Episode}
      {exit : Exit Failure Unit} (hbody : PlaysAll body resources episodes exit after)
      (hexit : exit ≠ .panicked) :
    Plays (.shield body) resources episodes exit after
  | refused {frame : ScopeFrame} {body : List Action} {resources after : List Resource}
      {error : EntryError} {notes checks : List Episode} {exit : Exit Failure Unit}
      (hrefused : frame.refusal? = some error)
      (hleft : frame.Left (World.nameOf ⟨resources, []⟩ frame.resource) (.failed (.entry error))
        notes exit)
      (hchecked : ScopeFrame.Checked false frame.slot? exit resources checks after) :
    Plays (.scope frame body) resources (notes ++ checks) exit after
  | entered {frame : ScopeFrame} {body : List Action} {resources between after : List Resource}
      {i : Nat} {found left : Resource} {episodes notes checks : List Episode}
      {ending exit : Exit Failure Unit} {result : Exit ScopeFailure Json}
      (hentered : frame.refusal? = none) (hresource : frame.resource = some i)
      (hfound : resources[i]? = some found)
      (hbody : PlaysAll body resources episodes ending between)
      (hreleased : between[i]? = some left)
      (hsettled : ScopeFrame.Settled frame.value ending left.releaseError? result)
      (hleft : frame.Left found.name result notes exit)
      (hchecked : ScopeFrame.Checked true frame.slot? exit (between.set i left.released)
        checks after) :
    Plays (.scope frame body) resources
      (.scope i found frame.extra? episodes ending left :: (notes ++ checks)) exit after

inductive PlaysAll :
    List Action → List Resource → List Episode → Exit Failure Unit → List Resource → Prop
  | nil (resources : List Resource) : PlaysAll [] resources [] (.done ()) resources
  | next {action : Action} {rest : List Action} {resources between after : List Resource}
      {first others : List Episode} {exit : Exit Failure Unit}
      (haction : Plays action resources first (.done ()) between)
      (hrest : PlaysAll rest between others exit after) :
    PlaysAll (action :: rest) resources (first ++ others) exit after
  | stop {action : Action} {rest : List Action} {resources after : List Resource}
      {episodes : List Episode} {exit : Exit Failure Unit}
      (haction : Plays action resources episodes exit after) (hexit : exit ≠ .done ()) :
    PlaysAll (action :: rest) resources episodes exit after

end

end Action
end ScriptBuiltins
