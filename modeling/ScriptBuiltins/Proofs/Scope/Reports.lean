import ScriptBuiltins.Proofs.Scope.Releases

/-! What a program of scopes reports: one event for each scope in which the release failed behind an
error or a panic of the callback, in the order of the releases. -/
namespace ScriptBuiltins

/-- A release, with the resource as it was left to it: outside of scopes, or of a scope whose
callback has ended so. -/
inductive Closing where
  | alone (left : Resource)
  | scope (ending : Exit Failure Unit) (left : Resource)

namespace Closing

def entry : Closing → LogEntry
  | alone left => .releasing left.name left.nextAction
  | scope _ left => .releasing left.name left.nextAction

/-- A scope is reported if its release fails while an error of its callback, or a panic, is on the
way already. -/
def report? : Closing → Option Event
  | alone _ => none
  | scope ending left =>
    if left.nextAction = .err then
      match ending with
      | .done () => none
      | .failed _ => some .superseded
      | .panicked => some .failedUnwinding
    else none

end Closing

def LogEntry.isReleasing : LogEntry → Bool
  | .releasing .. => true
  | _ => false

namespace Episode

mutual

/-- The releases of an episode in their order. That of a scope is behind those of its body. -/
def closings : Episode → List Closing
  | note _ => []
  | release _ before => [.alone before]
  | scope _ _ _ body ending left => closingsAll body ++ [.scope ending left]

def closingsAll : List Episode → List Closing
  | [] => []
  | e :: es => closings e ++ closingsAll es

end

theorem closingsAll_append (es fs : List Episode) :
    closingsAll (es ++ fs) = closingsAll es ++ closingsAll fs := by
  induction es with
  | nil => rfl
  | cons e es ih => simp [closingsAll, ih]

theorem reportedOf_eq (ending : Exit Failure Unit) (left : Resource) :
    reportedOf ending left.releaseError? = (Closing.scope ending left).report?.toList := by
  unfold Resource.releaseError? Closing.report?
  by_cases herr : left.nextAction = .err
  · cases ending <;> simp [herr, reportedOf]
  · cases ending <;> simp [herr, reportedOf]

mutual

theorem events_eq : ∀ e : Episode, e.events = e.closings.filterMap Closing.report?
  | note _ => rfl
  | release _ _ => rfl
  | scope _ _ _ body ending left => by
    rw [events, closings, List.filterMap_append, eventsAll_eq body, reportedOf_eq]
    cases h : (Closing.scope ending left).report? <;> simp [h]

theorem eventsAll_eq :
    ∀ es : List Episode, eventsAll es = (closingsAll es).filterMap Closing.report?
  | [] => rfl
  | e :: es => by
    rw [eventsAll, closingsAll, List.filterMap_append, events_eq e, eventsAll_eq es]

end

def Logged (es : List Episode) : Prop :=
  (entriesAll es).filter LogEntry.isReleasing = (closingsAll es).map Closing.entry

namespace Logged

theorem append {es fs : List Episode} (h : Logged es) (h' : Logged fs) : Logged (es ++ fs) := by
  rw [Logged] at h h' ⊢
  rw [entriesAll_append, closingsAll_append, List.filter_append, List.map_append, h, h']

theorem scope {body : List Episode} (h : Logged body) (i : Nat) (found : Resource)
    (extra : Option String) (ending : Exit Failure Unit) (left : Resource) :
    Logged [.scope i found extra body ending left] := by
  rw [Logged] at h ⊢
  simp [entriesAll, entries, closingsAll, closings, LogEntry.isReleasing, h, Closing.entry]

end Logged

end Episode

open Episode

theorem ScopeFrame.Left.logged {frame : ScopeFrame} {name : String}
    {result : Exit ScopeFailure Json} {notes : List Episode} {exit : Exit Failure Unit}
    (h : frame.Left name result notes exit) : Logged notes := by
  cases h <;> rfl

theorem ScopeFrame.Checked.logged {entered : Bool} {slot : Option Nat} {exit : Exit Failure Unit}
    {resources after : List Resource} {checks : List Episode}
    (h : Checked entered slot exit resources checks after) : Logged checks := by
  cases h <;> rfl

namespace Action

mutual

theorem Plays.logged {action : Action} {resources after : List Resource} {episodes : List Episode}
    {exit : Exit Failure Unit} (h : Plays action resources episodes exit after) :
    Logged episodes := by
  cases h with
  | log text => rfl
  | set i value => rfl
  | release i _ r hr => rfl
  | fail failure => rfl
  | panic => rfl
  | caught hbody => exact hbody.logged.append rfl
  | shielded hbody hexit => exact hbody.logged
  | refused hrefused hleft hchecked => exact hleft.logged.append hchecked.logged
  | entered hentered hresource hfound hbody hreleased hsettled hleft hchecked =>
    exact (hbody.logged.scope _ _ _ _ _).append (hleft.logged.append hchecked.logged)

theorem PlaysAll.logged {actions : List Action} {resources after : List Resource}
    {episodes : List Episode} {exit : Exit Failure Unit}
    (h : PlaysAll actions resources episodes exit after) : Logged episodes := by
  cases h with
  | nil => rfl
  | next haction hrest => exact haction.logged.append hrest.logged
  | stop haction hexit => exact haction.logged

end

/-- Whatever a program of scopes does, its releases are in the log in their order, and what it
reports is one event for each that failed at the end of a scope whose callback had not succeeded:
an error was superseded, or a panic was passing through. No scope reports both of itself. -/
theorem failures_reported (actions : List Action) (w : World)
    (hwithin : allWithin w.resources.length actions) (hquiet : w.Quiet) :
    (∃ episodes,
      PlaysAll actions w.resources episodes (runAll actions w).exit
        (runAll actions w).state.resources ∧
      (runAll actions w).state.log.filter LogEntry.isReleasing
        = w.log.filter LogEntry.isReleasing ++ (closingsAll episodes).map Closing.entry ∧
      (runAll actions w).events = (closingsAll episodes).filterMap Closing.report?) ∧
    ∀ {σ : Type} (release : Task σ Failure Unit) (extra : Option String)
      (callback : Option String → Task σ Failure Json) (s : σ),
      let body := callback extra s
      let closing := release body.state
      ∃ reported, (runScopedWith release extra callback s).events
          = body.events ++ closing.events ++ reported ∧
        Reported body.exit closing.exit reported := by
  refine ⟨?_, runScopedWith_reported⟩
  obtain ⟨episodes, hplays, htells⟩ := enacts_runAll _ actions hwithin w hquiet rfl
  refine ⟨episodes, hplays, ?_, ?_⟩
  · rw [htells.log, List.filter_append, hplays.logged]
  · rw [htells.events, eventsAll_eq]

/-- A panic passes through two scopes, of which the inner one fails to release, and is caught in a
third one, whose error is superseded. -/
theorem failures_reported_twice :
    let frame (i : Nat) : ScopeFrame := ⟨.plain, some i, false, .null, false, false⟩
    let actions := [.scope (frame 0)
      [.shield [.scope (frame 1) [.scope (frame 2) [.panic], .log "a"]], .fail ⟨"b", none⟩]]
    let w : World :=
      ⟨[⟨"p", .null, [.err], 0, false⟩, ⟨"q", .null, [], 0, false⟩, ⟨"r", .null, [.err], 0, false⟩],
        []⟩
    allWithin w.resources.length actions ∧ w.Quiet ∧ (∃ episodes,
      PlaysAll actions w.resources episodes (runAll actions w).exit
        (runAll actions w).state.resources ∧
      (runAll actions w).state.log.filter LogEntry.isReleasing
        = [] ++ (closingsAll episodes).map Closing.entry ∧
      (closingsAll episodes).filterMap Closing.report? = [.failedUnwinding, .superseded]) ∧
    ∃ reported, .superseded ∉ reported ∧ .failedUnwinding ∈ reported ∧
      (runScopedWith (World.release 2) none ((frame 2).callback .panic) w).events = reported := by
  intro frame actions w
  have hwithin : allWithin w.resources.length actions := by decide
  have hquiet : w.Quiet := by decide
  have hreported : (runAll actions w).events = [.failedUnwinding, .superseded] := by
    decide +kernel
  obtain ⟨⟨episodes, hplays, hlog, hevents⟩, hscopes⟩ :=
    failures_reported actions w hwithin hquiet
  obtain ⟨reported, hsum, hfires⟩ := hscopes (World.release 2) none ((frame 2).callback .panic) w
  have hbody : ((frame 2).callback .panic none w).exit = .panicked := rfl
  have hclosing : ∃ r,
      (World.release 2 ((frame 2).callback .panic none w).state).exit = .failed r := ⟨_, rfl⟩
  refine ⟨hwithin, hquiet, ⟨episodes, hplays, hlog, hevents.symm.trans hreported⟩, reported, ?_, ?_,
    hsum⟩
  · rw [hfires.superseded, hbody]
    simp
  · exact hfires.failedUnwinding.mpr ⟨hbody, hclosing⟩

end Action
end ScriptBuiltins
