import ScriptBuiltins.Proofs.Scope.Episode
import ScriptBuiltins.Proofs.Task

namespace ScriptBuiltins

def Resource.ledger (r : Resource) : String × List ReleaseAction × Nat :=
  (r.name, r.script, r.releases)

theorem Resource.ledger_released (r : Resource) :
    r.released.ledger = (r.name, r.script, r.releases + 1) := rfl

namespace World

variable {ε β : Type}

theorem record_bind (entry : LogEntry) (next : Unit → Task World ε β) (w : World) :
    (record entry >>= next) w = next () { w with log := w.log ++ [entry] } := rfl

theorem update_bind (i : Nat) (f : Resource → Resource) (next : Unit → Task World ε β) (w : World) :
    (update i f >>= next) w = next () { w with resources := w.resources.modify i f } := rfl

/-- No release panics. -/
def Quiet (w : World) : Prop := ∀ r ∈ w.resources, ReleaseAction.panic ∉ r.script

instance (w : World) : Decidable w.Quiet :=
  inferInstanceAs (Decidable (∀ r ∈ w.resources, ReleaseAction.panic ∉ r.script))

theorem Quiet.nextAction_ne {w : World} {i : Nat} {r : Resource} (h : w.Quiet)
    (hr : w.resources[i]? = some r) : r.nextAction ≠ .panic := by
  intro hpanic
  apply h r (List.mem_of_getElem? hr)
  unfold Resource.nextAction at hpanic
  cases hnext : r.script[r.releases]? with
  | none => simp [hnext] at hpanic
  | some action =>
    rw [hnext, Option.getD_some] at hpanic
    exact hpanic ▸ List.mem_of_getElem? hnext

def afterRelease (w : World) (i : Nat) (r : Resource) : World where
  resources := w.resources.set i r.released
  log := w.log ++ [.releasing r.name r.nextAction]

theorem modify_eq_set {i : Nat} {r : Resource} {resources : List Resource}
    (f : Resource → Resource) (h : resources[i]? = some r) :
    resources.modify i f = resources.set i (f r) := by
  obtain ⟨hlength, rfl⟩ := List.getElem?_eq_some_iff.mp h
  apply List.ext_getElem?
  intro j
  by_cases hj : i = j
  · subst hj
    simp [hlength]
  · simp [hj]

theorem release_eq {w : World} {i : Nat} {r : Resource} (hr : w.resources[i]? = some r)
    (hquiet : r.nextAction ≠ .panic) :
    release i w = { exit := .ofError? r.releaseError?, state := w.afterRelease i r } := by
  simp only [release, Task.read_bind, hr, update_bind, record_bind]
  cases haction : r.nextAction with
  | ok =>
    simp only [update, Task.modify, List.modify_modify_eq]
    simp [modify_eq_set _ hr, Resource.releaseError?, haction, Exit.ofError?, afterRelease,
      Resource.released]
  | err =>
    simp only [Task.fail, modify_eq_set _ hr]
    simp [Resource.releaseError?, haction, Exit.ofError?, afterRelease, Resource.released]
  | panic => contradiction

end World

open Episode

/-- Episodes tell how one world came from another: they give its log and what was reported, and each
resource was released as often as they say. -/
structure Tells (w : World) (episodes : List Episode) (after : World) (events : List Event) :
    Prop where
  log : after.log = w.log ++ entriesAll episodes
  events : events = eventsAll episodes
  ledger : ∀ i, after.resources[i]?.map Resource.ledger
    = w.resources[i]?.map fun r => (r.name, r.script, r.releases + releasesOfAll i episodes)

namespace Tells

variable {w between after : World} {first others episodes : List Episode}
  {events more : List Event}

theorem nil (w : World) : Tells w [] w [] := ⟨by simp [entriesAll], rfl, fun _ => rfl⟩

theorem append (h : Tells w first between events) (h' : Tells between others after more) :
    Tells w (first ++ others) after (events ++ more) where
  log := by rw [h'.log, h.log, entriesAll_append, List.append_assoc]
  events := by rw [h'.events, h.events, eventsAll_append]
  ledger := by
    intro i
    have hbetween := h.ledger i
    rw [h'.ledger i, releasesOfAll_append]
    cases hw : w.resources[i]? with
    | none =>
      rw [hw] at hbetween
      cases hb : between.resources[i]? with
      | none => rfl
      | some r => simp [hb] at hbetween
    | some r =>
      rw [hw] at hbetween
      obtain ⟨r', hr', hledger⟩ := Option.map_eq_some_iff.mp hbetween
      simp only [Resource.ledger, Prod.mk.injEq] at hledger
      obtain ⟨hname, hscript, hreleases⟩ := hledger
      simp [hr', hname, hscript, hreleases, Nat.add_assoc]

theorem note (w : World) (entry : LogEntry) :
    Tells w [.note entry] { w with log := w.log ++ [entry] } [] :=
  ⟨by simp [entriesAll, entries], rfl, fun _ => rfl⟩

theorem set (w : World) (i : Nat) (value : Json) :
    Tells w [] { w with resources := w.resources.modify i fun r => { r with value } } [] where
  log := by simp [entriesAll]
  events := rfl
  ledger := by
    intro j
    simp only [List.getElem?_modify]
    cases w.resources[j]? with
    | none => rfl
    | some r => by_cases hj : i = j <;> simp [hj, Resource.ledger, releasesOfAll]

theorem ledger_set {resources : List Resource} {i : Nat} {r : Resource}
    (hr : resources[i]? = some r) (j : Nat) :
    (resources.set i r.released)[j]?.map Resource.ledger = resources[j]?.map fun r =>
      (r.name, r.script, r.releases + if j = i then 1 else 0) := by
  obtain ⟨hlength, rfl⟩ := List.getElem?_eq_some_iff.mp hr
  by_cases hj : i = j
  · subst hj
    simp [hlength, Resource.ledger_released]
  · rw [List.getElem?_set_ne hj, if_neg (Ne.symm hj)]
    rfl

theorem release {w : World} {i : Nat} {r : Resource} (hr : w.resources[i]? = some r) :
    Tells w [.release i r] (w.afterRelease i r) [] where
  log := by simp [World.afterRelease, entriesAll, entries]
  events := rfl
  ledger := by simpa [World.afterRelease, releasesOfAll, releasesOf] using ledger_set hr

/-- A scope is told from its callback on, and by its body and its release. -/
theorem scope {i : Nat} {found left : Resource} {extra : Option String} {ending : Exit Failure Unit}
    (hbody : Tells { w with log := w.log ++ [.entered found.name found.value extra] } episodes
      between events)
    (hleft : between.resources[i]? = some left) :
    Tells w [.scope i found extra episodes ending left] (between.afterRelease i left)
      (events ++ reportedOf ending left.releaseError?) where
  log := by simp [World.afterRelease, entriesAll, entries, hbody.log]
  events := by simp [eventsAll, Episode.events, hbody.events]
  ledger := by
    intro j
    have hrelease := (hbody.append (release hleft)).ledger j
    simpa [releasesOfAll_append, releasesOfAll, releasesOf] using hrelease

theorem lt_length_iff (h : Tells w episodes after events) (i : Nat) :
    i < after.resources.length ↔ i < w.resources.length := by
  have hledger := congrArg Option.isSome (h.ledger i)
  rw [Option.isSome_map, Option.isSome_map, Bool.eq_iff_iff] at hledger
  simpa using hledger

theorem length_eq (h : Tells w episodes after events) :
    after.resources.length = w.resources.length := by
  apply Nat.le_antisymm
  · exact Nat.le_of_not_lt fun hlt => Nat.lt_irrefl _ ((h.lt_length_iff _).mp hlt)
  · exact Nat.le_of_not_lt fun hlt => Nat.lt_irrefl _ ((h.lt_length_iff _).mpr hlt)

theorem quiet (h : Tells w episodes after events) (hw : w.Quiet) : after.Quiet := by
  intro r hr
  obtain ⟨i, hi⟩ := List.mem_iff_getElem?.mp hr
  have hledger := h.ledger i
  rw [hi] at hledger
  obtain ⟨r', hr', heq⟩ := Option.map_eq_some_iff.mp hledger.symm
  simp only [Resource.ledger, Prod.mk.injEq] at heq
  rw [← heq.2.1]
  exact hw r' (List.mem_of_getElem? hr')

end Tells
end ScriptBuiltins
