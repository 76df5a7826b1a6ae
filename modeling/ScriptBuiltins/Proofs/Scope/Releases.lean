import ScriptBuiltins.Proofs.Scope.Guard
import ScriptBuiltins.Proofs.Scope.Running

/-! Every scope that is entered releases its resource once, right after its callback, and no error
gets lost on the way. -/
namespace ScriptBuiltins

/-- Whatever the world, a task plays as is said, and its episodes tell the world that it leaves. It
is asked of worlds of so many resources in which no release panics. -/
def Enacts
    (plays : List Resource → List Episode → Exit Failure Unit → List Resource → Prop)
    (task : Task World Failure Unit) (count : Nat) : Prop :=
  ∀ w : World, w.Quiet → w.resources.length = count → ∃ episodes,
    plays w.resources episodes (task w).exit (task w).state.resources ∧
    Tells w episodes (task w).state (task w).events

namespace ScopeFrame

variable {σ : Type} {frame : ScopeFrame}

theorem enter_of_refused {error : EntryError} (h : frame.refusal? = some error)
    {release : Option (Task σ Failure Unit)} (hrelease : release.isSome = frame.resource.isSome)
    (callback : Option String → Task σ Failure Json) (s : σ) :
    frame.enter release callback s = { exit := .failed (.entry error), state := s } := by
  obtain ⟨entrance, resource, inSlot, value, asRelease, ignoresError⟩ := frame
  cases resource with
  | none =>
    obtain rfl := Option.not_isSome_iff_eq_none.mp (by simp [hrelease] : ¬ release.isSome)
    obtain rfl := Option.some.inj h
    cases entrance <;> rfl
  | some i =>
    obtain ⟨release, rfl⟩ := Option.isSome_iff_exists.mp hrelease
    unfold refusal? at h
    split at h
    · contradiction
    · obtain rfl := Option.some.inj h
      simp_all [enter, tryScoped, Task.fail]
    · contradiction

theorem enter_of_entered (h : frame.refusal? = none) (release : Task σ Failure Unit)
    (callback : Option String → Task σ Failure Json) :
    frame.enter (some release) callback = runScopedWith release frame.extra? callback := by
  obtain ⟨entrance, resource, inSlot, value, asRelease, ignoresError⟩ := frame
  cases entrance with
  | plain => rfl
  | withExtra extra => rfl
  | checked extra callable =>
    cases callable with
    | true => rfl
    | false => cases resource <;> contradiction

def ending (value : Json) : Exit Failure Unit → Exit Failure Json
  | .done () => .done value
  | .failed e => .failed e
  | .panicked => .panicked

theorem callback_eq (frame : ScopeFrame) (body : Task World Failure Unit) (extra : Option String)
    (w : World) :
    let inside : World := { w with
      log := w.log ++ [.entered (w.nameOf frame.resource) (w.valueOf frame.resource) extra] }
    frame.callback body extra w =
      { exit := ending frame.value (body inside).exit
        state := (body inside).state
        events := (body inside).events } := by
  intro inside
  have hrun : frame.callback body extra w = body.andThen (fun () => .done frame.value) inside := rfl
  rw [hrun]
  cases h : (body inside).exit with
  | done value => simp [Task.andThen_of_done h, ending, Task.done]
  | failed e => simp [Task.andThen_of_failed h, ending]
  | panicked => simp [Task.andThen_of_panicked h, ending]

theorem settled_closedBy (value : Json) (exit : Exit Failure Unit) (error : Option Failure) :
    Settled value exit error ((ending value exit).closedBy (Exit.ofError? error)) ∧
      (ending value exit).reportedBy (Exit.ofError? error) = Episode.reportedOf exit error := by
  cases exit with
  | done value =>
    cases error with
    | none => exact ⟨.value, rfl⟩
    | some r => exact ⟨.release r, rfl⟩
  | failed e =>
    cases error with
    | none => exact ⟨.callback e, rfl⟩
    | some r => exact ⟨.masking e r, rfl⟩
  | panicked =>
    cases error with
    | none => exact ⟨.panic none, rfl⟩
    | some r => exact ⟨.panic (some r), rfl⟩

theorem leave_eq (frame : ScopeFrame) (name : String) (result : Except ScopeFailure Json)
    (w : World) : ∃ entry left,
      frame.Left name (.ofResult result) [.note entry] (.ofResult left) ∧
      frame.leave name result w =
        { exit := .ofResult left, state := { w with log := w.log ++ [entry] } } := by
  cases result with
  | ok value => exact ⟨_, .ok (), .done value, rfl⟩
  | error e =>
    cases hignores : frame.ignoresError with
    | true =>
      refine ⟨_, .ok (), .ignored e hignores, ?_⟩
      simp only [leave, World.record_bind, hignores, if_true]
      rfl
    | false =>
      refine ⟨_, .error e.toFailure, .passed e hignores, ?_⟩
      simp only [leave, World.record_bind, hignores, Bool.false_eq_true, if_false]
      rfl

def checkSlot (left : Except Failure Unit) : Task (World × Option Nat) Failure Unit := do
  let (_, slot) ← .read
  (World.record (.slotEmpty slot.isNone)).onFirst
  Task.ofExcept left
  let again ← (releaseSlot World.release).attempt
  (World.record (.releasedAgain again.isOk)).onFirst

theorem checkSlot_error (e : Failure) (w : World) (slot : Option Nat) :
    checkSlot (.error e) (w, slot) =
      { exit := .failed e, state := ({ w with log := w.log ++ [.slotEmpty slot.isNone] }, slot) } :=
  rfl

theorem checkSlot_empty (w : World) :
    checkSlot (.ok ()) (w, none) =
      { exit := .done ()
        state := ({ w with log := w.log ++ [.slotEmpty true] ++ [.releasedAgain true] }, none) } :=
  rfl

theorem checkSlot_full {w : World} {i : Nat} {r : Resource} (hr : w.resources[i]? = some r)
    (hquiet : r.nextAction ≠ .panic) :
    let noted : World := { w with log := w.log ++ [.slotEmpty false] }
    let released := noted.afterRelease i r
    checkSlot (.ok ()) (w, some i) =
      { exit := .done ()
        state := ({ released with
          log := released.log ++ [.releasedAgain r.releaseError?.isNone] }, none) } := by
  intro noted released
  have hrelease : World.release i noted
      = { exit := .ofError? r.releaseError?, state := released } := World.release_eq hr hquiet
  have hrun : checkSlot (.ok ()) (w, some i) = ((releaseSlot World.release).attempt.andThen
      fun again => (World.record (.releasedAgain again.isOk)).onFirst) (noted, some i) := rfl
  rw [hrun]
  cases herror : r.releaseError? <;>
    simp [Task.andThen, Task.attempt, releaseSlot, Task.onFirst, hrelease, herror, Exit.ofError?,
      World.record, Task.modify, Except.isOk, Except.toBool]

/-- A slot is full exactly if the scope on it was not entered. -/
theorem checkSlot_checked (left : Except Failure Unit) (entered : Bool) (i : Nat) (w : World)
    (hfull : entered = false → ∃ r, w.resources[i]? = some r ∧ r.nextAction ≠ .panic) :
    let final := checkSlot left (w, if entered then none else some i)
    ∃ checks, Checked entered (some i) final.exit w.resources checks final.state.1.resources ∧
      Tells w checks final.state.1 final.events ∧ final.exit = .ofResult left := by
  cases left with
  | error e =>
    rw [checkSlot_error]
    have hempty : (if entered then none else some i).isNone = entered := by cases entered <;> rfl
    rw [hempty]
    exact ⟨_, .failed i e _, .note w _, rfl⟩
  | ok =>
    cases entered with
    | true =>
      rw [if_pos rfl, checkSlot_empty]
      exact ⟨_, .empty i _ rfl, (Tells.note w _).append (.note _ _), rfl⟩
    | false =>
      obtain ⟨r, hr, hquiet⟩ := hfull rfl
      rw [if_neg Bool.false_ne_true, checkSlot_full hr hquiet]
      have hreleased := Tells.release (w := { w with log := w.log ++ [.slotEmpty false] }) hr
      exact ⟨_, .full i _ r rfl hr, (Tells.note w _).append (hreleased.append (.note _ _)), rfl⟩

structure Closes (frame : ScopeFrame) (name : String) (opened : Outcome World ScopeFailure Json)
    (notes checks : List Episode) (final : Outcome World Failure Unit) : Prop where
  left : frame.Left name opened.exit notes final.exit
  checked : Checked frame.refusal?.isNone frame.slot? final.exit opened.state.resources checks
    final.state.resources
  tells : ∃ more, final.events = opened.events ++ more ∧
    Tells opened.state (notes ++ checks) final.state more

theorem runPlain_closes (hslot : frame.slot? = none) (body : Task World Failure Unit) (w : World) :
    ∃ notes, frame.Closes (w.nameOf frame.resource)
      (frame.enter (frame.resource.map World.release) (frame.callback body) w) notes []
      (frame.runPlain body w) := by
  let opening := frame.enter (frame.resource.map World.release) (frame.callback body)
  have hrun : frame.runPlain body w
      = opening.attempt.andThen (frame.leave (w.nameOf frame.resource)) w := rfl
  rw [hrun]
  show ∃ notes, frame.Closes _ (opening w) _ _ _
  cases (opening w).exit.eq_panicked_or_ofResult with
  | inl hexit =>
    rw [Task.attempt_andThen_of_panicked hexit]
    exact ⟨[], hexit ▸ .panicked, hslot ▸ .noSlot _ _, [], (List.append_nil _).symm, .nil _⟩
  | inr hexit =>
    obtain ⟨result, hexit⟩ := hexit
    obtain ⟨entry, left, hleft, heq⟩ :=
      leave_eq frame (w.nameOf frame.resource) result (opening w).state
    rw [Task.attempt_andThen_of_result hexit, heq]
    exact ⟨[.note entry], hexit ▸ hleft, hslot ▸ .noSlot _ _, [], rfl, .note _ entry⟩

/-- In a slot a scope runs as it does without; if it is entered it leaves the slot empty. -/
theorem enter_inSlot {i : Nat} (hresource : frame.resource = some i)
    (body : Task World Failure Unit) (w : World) :
    let opened := frame.enter (some (World.release i)) (frame.callback body) w
    frame.enter (some (releaseSlot World.release))
        (fun extra => (frame.callback body extra).onFirst) (w, some i) =
      { exit := opened.exit
        state := (opened.state, if frame.refusal?.isNone then none else some i)
        events := opened.events } := by
  intro opened
  cases hrefusal : frame.refusal? with
  | some error =>
    have hopened : opened = { exit := .failed (.entry error), state := w } :=
      enter_of_refused hrefusal (by simp [hresource]) _ w
    rw [enter_of_refused hrefusal (by simp [hresource]), hopened]
    rfl
  | none =>
    have hopened : opened
        = runScopedWith (World.release i) frame.extra? (frame.callback body) w :=
      congrFun (enter_of_entered hrefusal _ _) w
    rw [enter_of_entered hrefusal, hopened, runScopedWith_eq, runScopedWith_eq]
    rfl

theorem runInSlot_closes {i : Nat} (hresource : frame.resource = some i)
    (hslot : frame.slot? = some i) (body : Task World Failure Unit) (w : World)
    (hfull : ∃ r, w.resources[i]? = some r ∧ r.nextAction ≠ .panic) :
    ∃ notes checks, frame.Closes (w.nameOf frame.resource)
      (frame.enter (some (World.release i)) (frame.callback body) w) notes checks
      (frame.runInSlot i body w) := by
  let opened := frame.enter (some (World.release i)) (frame.callback body) w
  let opening := frame.enter (some (releaseSlot World.release))
    fun extra => (frame.callback body extra).onFirst
  have hopening : opening (w, some i) =
      { exit := opened.exit
        state := (opened.state, if frame.refusal?.isNone then none else some i)
        events := opened.events } := enter_inSlot hresource body w
  have hrun : frame.runInSlot i body w =
      let a := (opening.attempt.andThen fun result =>
        (frame.leave (w.nameOf frame.resource) result).onFirst.attempt.andThen checkSlot)
          (w, some i)
      { exit := a.exit, state := a.state.1, events := a.events } := rfl
  rw [hrun]
  show ∃ notes checks, frame.Closes _ opened _ _ _
  have hsame : (opening (w, some i)).exit = opened.exit := by rw [hopening]
  cases opened.exit.eq_panicked_or_ofResult with
  | inl hexit =>
    rw [Task.attempt_andThen_of_panicked (hsame.trans hexit), hopening]
    refine ⟨[], [], hexit ▸ .panicked, ?_, [], (List.append_nil _).symm, .nil _⟩
    rw [hslot]
    exact .panicked i _
  | inr hexit =>
    obtain ⟨result, hexit⟩ := hexit
    obtain ⟨entry, left, hleft, heq⟩ :=
      leave_eq frame (w.nameOf frame.resource) result opened.state
    let noted : World := { opened.state with log := opened.state.log ++ [entry] }
    let slot : Option Nat := if frame.refusal?.isNone then none else some i
    have hleave : (frame.leave (w.nameOf frame.resource) result).onFirst (opened.state, slot)
        = { exit := .ofResult left, state := (noted, slot) } := by
      simp [Task.onFirst, heq, noted]
    have hkept : frame.refusal?.isNone = false →
        ∃ r, noted.resources[i]? = some r ∧ r.nextAction ≠ .panic := by
      intro hrefused
      obtain ⟨error, herror⟩ := Option.isSome_iff_exists.mp (by simpa using hrefused)
      have hopened : opened = { exit := .failed (.entry error), state := w } :=
        enter_of_refused herror (by simp [hresource]) _ w
      simpa [noted, hopened] using hfull
    obtain ⟨checks, hchecked, htells, hend⟩ :=
      checkSlot_checked left frame.refusal?.isNone i noted hkept
    rw [Task.attempt_andThen_of_result (hsame.trans hexit), hopening,
      Task.attempt_andThen_of_result (congrArg Outcome.exit hleave), hleave]
    refine ⟨[.note entry], checks, ?_, ?_, _, rfl, ?_⟩
    · rw [hexit]
      exact hend ▸ hleft
    · rw [hslot]
      exact hchecked
    · have hnote : Tells opened.state [.note entry] noted [] := .note _ entry
      exact hnote.append htells

theorem run_closes (frame : ScopeFrame) (body : Task World Failure Unit) (w : World)
    (hfull : ∀ i ∈ frame.resource, ∃ r, w.resources[i]? = some r ∧ r.nextAction ≠ .panic) :
    ∃ notes checks, frame.Closes (w.nameOf frame.resource)
      (frame.enter (frame.resource.map World.release) (frame.callback body) w) notes checks
      (frame.run body w) := by
  cases hslot : frame.slot? with
  | none =>
    have hrun : frame.run body = frame.runPlain body := by
      unfold run
      split
      · simp_all [slot?]
      · rfl
    rw [hrun]
    obtain ⟨notes, h⟩ := frame.runPlain_closes hslot body w
    exact ⟨notes, [], h⟩
  | some i =>
    obtain ⟨hinSlot, hresource⟩ : frame.inSlot = true ∧ frame.resource = some i := by
      simpa [slot?] using hslot
    have hrun : frame.run body = frame.runInSlot i body := by
      simp only [run, hinSlot, hresource]
    rw [hrun, show frame.resource.map World.release = some (World.release i) by rw [hresource]; rfl]
    exact frame.runInSlot_closes hresource hslot body w (hfull i hresource)

/-- A scope that is entered: its body plays from the world it finds, and its resource is released as
the body leaves it. -/
theorem exists_entered {actions : List Action} {body : Task World Failure Unit} {count i : Nat}
    (hbody : Enacts (Action.PlaysAll actions) body count) {w : World} (hquiet : w.Quiet)
    (hcount : w.resources.length = count) (hresource : frame.resource = some i) (hi : i < count)
    (hentered : frame.refusal? = none) :
    let opened := frame.enter (some (World.release i)) (frame.callback body) w
    ∃ found episodes ending between left, w.resources[i]? = some found ∧
      Action.PlaysAll actions w.resources episodes ending between ∧ between[i]? = some left ∧
      Settled frame.value ending left.releaseError? opened.exit ∧
      opened.state.resources = between.set i left.released ∧
      Tells w [.scope i found frame.extra? episodes ending left] opened.state opened.events := by
  intro opened
  have hfound : w.resources[i]? = some w.resources[i] := List.getElem?_eq_getElem (hcount ▸ hi)
  obtain ⟨found, hfound⟩ : ∃ found, w.resources[i]? = some found := ⟨_, hfound⟩
  let inside : World := { w with log := w.log ++ [.entered found.name found.value frame.extra?] }
  obtain ⟨episodes, hplays, htells⟩ := hbody inside hquiet hcount
  have hlength : i < (body inside).state.resources.length := htells.length_eq ▸ hcount ▸ hi
  obtain ⟨left, hleft⟩ : ∃ left, (body inside).state.resources[i]? = some left :=
    ⟨_, List.getElem?_eq_getElem hlength⟩
  have hrelease := World.release_eq hleft ((htells.quiet hquiet).nextAction_ne hleft)
  have hcallback : frame.callback body frame.extra? w =
      { exit := ending frame.value (body inside).exit
        state := (body inside).state
        events := (body inside).events } := by
    rw [callback_eq]
    simp [World.nameOf, World.valueOf, hresource, hfound, inside]
  obtain ⟨hsettled, hreported⟩ :=
    settled_closedBy frame.value (body inside).exit left.releaseError?
  have hopened : opened =
      { exit := (ending frame.value (body inside).exit).closedBy (.ofError? left.releaseError?)
        state := (body inside).state.afterRelease i left
        events := (body inside).events
          ++ Episode.reportedOf (body inside).exit left.releaseError? } := by
    show frame.enter _ _ w = _
    rw [enter_of_entered hentered]
    simp [runScopedWith_eq, hcallback, hrelease, hreported]
  rw [hopened]
  exact ⟨found, episodes, _, _, left, hfound, hplays, hleft, hsettled, rfl, .scope htells hleft⟩

theorem run_enacts {actions : List Action} {body : Task World Failure Unit} {count : Nat}
    (hbody : Enacts (Action.PlaysAll actions) body count)
    (hwithin : ∀ i ∈ frame.resource, i < count) :
    Enacts (Action.Plays (.scope frame actions)) (frame.run body) count := by
  intro w hquiet hcount
  have hfull : ∀ i ∈ frame.resource, ∃ r, w.resources[i]? = some r ∧ r.nextAction ≠ .panic := by
    intro i hi
    have hlength : i < w.resources.length := hcount ▸ hwithin i hi
    have hr := List.getElem?_eq_getElem hlength
    exact ⟨_, hr, hquiet.nextAction_ne hr⟩
  obtain ⟨notes, checks, hleft, hchecked, more, hevents, htells⟩ := frame.run_closes body w hfull
  cases hrefusal : frame.refusal? with
  | some error =>
    rw [enter_of_refused hrefusal (by simp)] at hleft hchecked hevents htells
    rw [hrefusal] at hchecked
    refine ⟨notes ++ checks, .refused hrefusal hleft hchecked, ?_⟩
    rw [hevents]
    exact htells
  | none =>
    obtain ⟨i, hresource⟩ : ∃ i, frame.resource = some i := by
      cases h : frame.resource with
      | none => simp [refusal?, h] at hrefusal
      | some i => exact ⟨i, rfl⟩
    obtain ⟨found, episodes, ending, between, left, hfound, hplays, hreleased, hsettled,
      hresources, hscope⟩ :=
      exists_entered hbody hquiet hcount hresource (hwithin i hresource) hrefusal
    have hmap : frame.resource.map World.release = some (World.release i) := by simp [hresource]
    rw [hmap] at hleft hchecked hevents htells
    rw [hrefusal, hresources] at hchecked
    have hname : w.nameOf frame.resource = found.name := by
      simp [World.nameOf, hresource, hfound]
    rw [hname] at hleft
    refine ⟨_, .entered hrefusal hresource hfound hplays hreleased hsettled hleft hchecked, ?_⟩
    rw [hevents]
    exact hscope.append htells

end ScopeFrame
namespace Action

mutual

def within (count : Nat) : Action → Bool
  | .set i _ => i < count
  | .release i => i < count
  | .shield body => allWithin count body
  | .scope frame body => frame.resource.all (· < count) && allWithin count body
  | _ => true

def allWithin (count : Nat) : List Action → Bool
  | [] => true
  | action :: rest => within count action && allWithin count rest

end

theorem enacts_release {i count : Nat} (hi : i < count) :
    Enacts (Plays (.release i)) (run (.release i)) count := by
  intro w hquiet hcount
  obtain ⟨r, hr⟩ : ∃ r, w.resources[i]? = some r := ⟨_, List.getElem?_eq_getElem (hcount ▸ hi)⟩
  have hrelease := World.release_eq hr (hquiet.nextAction_ne hr)
  have hrun : run (.release i) w = { exit := .done (), state := { w.afterRelease i r with
      log := (w.afterRelease i r).log
        ++ [.released (r.releaseError?.map Failure.message)] } } := by
    rw [run]
    cases herror : r.releaseError? with
    | none =>
      have hresult : (World.release i w).exit = .ofResult (.ok ()) := by
        rw [hrelease, herror]
        rfl
      refine (Task.attempt_andThen_of_result hresult _).trans ?_
      rw [hrelease]
      rfl
    | some e =>
      have hresult : (World.release i w).exit = .ofResult (.error e) := by
        rw [hrelease, herror]
        rfl
      refine (Task.attempt_andThen_of_result hresult _).trans ?_
      rw [hrelease]
      rfl
  rw [hrun]
  exact ⟨_, .release i _ r hr, (Tells.release hr).append (.note _ _)⟩

theorem enacts_shield {body : List Action} {count : Nat}
    (hbody : Enacts (PlaysAll body) (runAll body) count) :
    Enacts (Plays (.shield body)) (run (.shield body)) count := by
  intro w hquiet hcount
  obtain ⟨episodes, hplays, htells⟩ := hbody w hquiet hcount
  rw [run]
  cases hexit : (runAll body w).exit with
  | panicked =>
    simp only [hexit]
    rw [hexit] at hplays
    have hcaught := htells.append (.note _ .caughtPanic)
    rw [List.append_nil] at hcaught
    exact ⟨_, .caught hplays, hcaught⟩
  | done value =>
    simp only [hexit]
    rw [hexit] at hplays
    exact ⟨episodes, .shielded hplays (by simp), htells⟩
  | failed e =>
    simp only [hexit]
    rw [hexit] at hplays
    exact ⟨episodes, .shielded hplays (by simp), htells⟩

theorem enacts_cons {action : Action} {rest : List Action} {count : Nat}
    (haction : Enacts (Plays action) (run action) count)
    (hrest : Enacts (PlaysAll rest) (runAll rest) count) :
    Enacts (PlaysAll (action :: rest)) (runAll (action :: rest)) count := by
  intro w hquiet hcount
  obtain ⟨first, hplays, htells⟩ := haction w hquiet hcount
  have hrun : runAll (action :: rest) w = (run action).andThen (fun () => runAll rest) w := rfl
  rw [hrun]
  cases hexit : (run action w).exit with
  | done value =>
    rw [Task.andThen_of_done hexit]
    rw [hexit] at hplays
    obtain ⟨others, hothers, htells'⟩ :=
      hrest _ (htells.quiet hquiet) (htells.length_eq.trans hcount)
    exact ⟨first ++ others, .next hplays hothers, htells.append htells'⟩
  | failed e =>
    rw [Task.andThen_of_failed hexit]
    rw [hexit] at hplays
    exact ⟨first, .stop hplays (by simp), htells⟩
  | panicked =>
    rw [Task.andThen_of_panicked hexit]
    rw [hexit] at hplays
    exact ⟨first, .stop hplays (by simp), htells⟩

mutual

theorem enacts_run (count : Nat) : ∀ action : Action, action.within count →
    Enacts (Plays action) (run action) count
  | .log text, _ => fun w _ _ => ⟨_, .log text _, .note w _⟩
  | .set i value, _ => fun w _ _ => ⟨_, .set i value _, .set w i value⟩
  | .release _, h => enacts_release (by simpa [within] using h)
  | .fail failure, _ => fun w _ _ => ⟨_, .fail failure _, .nil w⟩
  | .panic, _ => fun w _ _ => ⟨_, .panic _, .nil w⟩
  | .shield body, h => enacts_shield (enacts_runAll count body (by simpa [within] using h))
  | .scope frame body, h => by
    rw [within, Bool.and_eq_true] at h
    rw [run]
    apply frame.run_enacts (enacts_runAll count body h.2)
    intro i hi
    simpa [Option.mem_def.mp hi] using h.1

theorem enacts_runAll (count : Nat) : ∀ actions : List Action, allWithin count actions →
    Enacts (PlaysAll actions) (runAll actions) count
  | [], _ => fun w _ _ => ⟨[], .nil _, .nil w⟩
  | action :: rest, h => by
    rw [allWithin, Bool.and_eq_true] at h
    exact enacts_cons (enacts_run count action h.1) (enacts_runAll count rest h.2)

end

/-- Whatever a program of scopes does, in any world it plays as episodes. Each scope that is entered
is one of them, with one release of its resource directly behind all that its callback did, and each
resource is released once for each scope on it and once for each release outside of scopes.
Whichever way a callback goes out, its guard is disarmed behind the one release of what the callback
left. -/
theorem releases_once (actions : List Action) (w : World)
    (hwithin : allWithin w.resources.length actions) (hquiet : w.Quiet) :
    (∃ episodes,
      PlaysAll actions w.resources episodes (runAll actions w).exit
        (runAll actions w).state.resources ∧
      (runAll actions w).state.log = w.log ++ Episode.entriesAll episodes ∧
      ∀ i, (runAll actions w).state.resources[i]?.map Resource.releases
        = w.resources[i]?.map fun r => r.releases + Episode.releasesOfAll i episodes) ∧
    ∀ {σ : Type} (release : Task σ Failure Unit) (extra : Option String)
      (callback : Option String → Task σ Failure Json) (s : σ),
      (Guarded.scope release extra callback (.arm s)).state
        = { state := (release (callback extra s).state).state, armed := false } := by
  refine ⟨?_, fun release extra callback s => by rw [Guarded.scope_arm]⟩
  obtain ⟨episodes, hplays, htells⟩ := enacts_runAll _ actions hwithin w hquiet rfl
  refine ⟨episodes, hplays, htells.log, ?_⟩
  intro i
  have hledger := congrArg (Option.map fun l => l.2.2) (htells.ledger i)
  rw [Option.map_map, Option.map_map] at hledger
  exact hledger

/-- A panic passes through two scopes, and the release of the inner one fails on the way. -/
theorem releases_once_unwinding :
    let inner : ScopeFrame := ⟨.checked "x" true, some 1, false, .null, false, false⟩
    let outer : ScopeFrame := ⟨.plain, some 0, true, .null, false, true⟩
    let actions := [.shield [.scope outer [.scope inner [.log "a", .panic], .log "b"]], .log "c"]
    let w : World := ⟨[⟨"p", .null, [], 0, false⟩, ⟨"q", .null, [.err], 0, false⟩], []⟩
    allWithin w.resources.length actions ∧ w.Quiet ∧ (∃ episodes,
      PlaysAll actions w.resources episodes (runAll actions w).exit
        (runAll actions w).state.resources ∧
      (runAll actions w).state.log = w.log ++ Episode.entriesAll episodes ∧
      ∀ i, (runAll actions w).state.resources[i]?.map Resource.releases
        = w.resources[i]?.map fun r => r.releases + Episode.releasesOfAll i episodes) ∧
    (Guarded.scope (World.release 1) (some "x") (inner.callback .panic) (.arm w)).state.armed
      = false := by
  intro inner outer actions w
  have hwithin : allWithin w.resources.length actions := by decide
  have hquiet : w.Quiet := by decide
  obtain ⟨hplays, hguard⟩ := releases_once actions w hwithin hquiet
  exact ⟨hwithin, hquiet, hplays, congrArg Guarded.armed (hguard _ _ _ w)⟩

end Action
end ScriptBuiltins
