import ScriptBuiltins.Proofs.Scope.Guard

/-! Slots: a resource that may be there or not. A scope on a slot releases what the slot holds when
the callback has ended, and leaves it empty. Values are moved and never copied, so that none is
released twice, however often the slot is scoped and whatever is put in it in between. -/
namespace ScriptBuiltins

variable {ω τ ρ : Type}

/-- How a scope is given its resource: as it is, or through borrows and boxes. -/
inductive Handing where
  | direct
  | borrowed (behind : Handing)
  | boxed (behind : Handing)

namespace Handing

variable {σ : Type}

def release (task : Task σ ρ Unit) : Handing → Task σ ρ Unit
  | direct => task
  | borrowed behind => behind.release task
  | boxed behind => behind.release task

theorem release_eq (handing : Handing) (task : Task σ ρ Unit) : handing.release task = task := by
  induction handing with
  | direct => rfl
  | borrowed behind ih => exact ih
  | boxed behind ih => exact ih

end Handing

/-- What a program has beside a slot: the values it holds elsewhere, those whose release was called,
in this order, and all else. What a value is like is part of the world: a value itself stands for
which one it is. -/
structure Estate (ω τ : Type) where
  world : ω
  held : List τ
  released : List τ := []

abbrev Holding (ω τ : Type) : Type := Estate ω τ × Option τ

def Estate.release (inner : τ → Task ω ρ Unit) (v : τ) : Task (Estate ω τ) ρ Unit := fun e =>
  let closing := inner v e.world
  { exit := closing.exit
    state := { e with world := closing.state, released := e.released ++ [v] }
    events := closing.events }

/-! ### Moves -/

/-- What a program can do to a slot and to its values, one thing after the other. A new value is
none of those that there are or that were released, and a value is released from the slot only,
which is empty then. -/
inductive Moves (s : Holding ω τ) : Holding ω τ → Prop
  | nil : Moves s s
  | world {e : Estate ω τ} {slot : Option τ} (h : Moves s (e, slot)) (world : ω) :
    Moves s ({ e with world }, slot)
  | make {e : Estate ω τ} {slot : Option τ} (h : Moves s (e, slot)) (v : τ)
      (hnew : v ∉ slot.toList ++ (e.held ++ e.released)) :
    Moves s ({ e with held := v :: e.held }, slot)
  | drop {w : ω} {front back released : List τ} {v : τ} {slot : Option τ}
      (h : Moves s (⟨w, front ++ v :: back, released⟩, slot)) :
    Moves s (⟨w, front ++ back, released⟩, slot)
  | put {w : ω} {front back released : List τ} {v : τ}
      (h : Moves s (⟨w, front ++ v :: back, released⟩, none)) :
    Moves s (⟨w, front ++ back, released⟩, some v)
  | take {e : Estate ω τ} {v : τ} (h : Moves s (e, some v)) :
    Moves s ({ e with held := v :: e.held }, none)
  | release {e : Estate ω τ} {v : τ} (h : Moves s (e, some v)) (world : ω) :
    Moves s ({ e with world, released := e.released ++ [v] }, none)

/-- No value is in two places, and none that was released is still there. -/
def Holding.Distinct (s : Holding ω τ) : Prop :=
  (s.2.toList ++ (s.1.held ++ s.1.released)).Nodup

theorem Holding.Distinct.released_nodup {s : Holding ω τ} (h : s.Distinct) :
    s.1.released.Nodup :=
  h.sublist ((List.sublist_append_right _ _).trans (List.sublist_append_right _ _))

namespace Moves

variable {s t u : Holding ω τ}

theorem put_first {w : ω} {v : τ} {held released : List τ}
    (h : Moves s (⟨w, v :: held, released⟩, none)) : Moves s (⟨w, held, released⟩, some v) :=
  @put _ _ _ w [] held released v h

theorem trans (h : Moves s t) (h' : Moves t u) : Moves s u := by
  induction h' with
  | nil => exact h
  | world _ w ih => exact ih.world w
  | make _ v hnew ih => exact ih.make v hnew
  | drop _ ih => exact ih.drop
  | put _ ih => exact ih.put
  | take _ ih => exact ih.take
  | release _ w ih => exact ih.release w

theorem distinct (h : Moves s t) (hs : s.Distinct) : t.Distinct := by
  induction h with
  | nil => exact hs
  | world _ _ ih => exact ih
  | @make e slot _ v hnew ih =>
    exact List.perm_middle.nodup_iff.mpr (List.nodup_cons.mpr ⟨hnew, ih⟩)
  | @drop w front back released v slot _ ih =>
    have hless : (front ++ back).Sublist (front ++ v :: back) :=
      (List.sublist_cons_self v back).append_left front
    exact ih.sublist ((hless.append_right released).append_left slot.toList)
  | @put w front back released v _ ih =>
    exact (List.perm_middle.append_right released).nodup_iff.mp ih
  | take _ ih => exact ih
  | @release e v _ _ ih =>
    have hmoved : (e.held ++ (e.released ++ [v])).Perm (v :: (e.held ++ e.released)) := by
      rw [← List.append_assoc]
      exact List.perm_append_singleton v _
    exact hmoved.nodup_iff.mpr ih

theorem released_prefix (h : Moves s t) : s.1.released <+: t.1.released := by
  induction h with
  | nil => exact List.prefix_refl _
  | release _ _ ih => exact ih.trans (List.prefix_append _ _)
  | world _ _ ih | make _ _ _ ih | drop _ ih | put _ ih | take _ ih => exact ih

end Moves

def Holding.swap : Holding ω τ → Holding ω τ
  | (⟨world, v :: held, released⟩, none) => (⟨world, held, released⟩, some v)
  | (⟨world, v :: held, released⟩, some u) => (⟨world, u :: held, released⟩, some v)
  | s => s

theorem Holding.swap_moves (s : Holding ω τ) : Moves s s.swap := by
  unfold swap
  split
  · exact Moves.nil.put_first
  · exact @Moves.put _ _ _ _ [_] _ _ _ Moves.nil.take
  · exact .nil

/-! ### Scopes -/

/-- A scope on a slot. Its callback may look at all that there is, do whatever a program can do, and
end in any way. It may also scope the slot itself. -/
structure SlotScope (ω τ : Type) where
  {ε : Type}
  {α : Type}
  {β : Type}
  handing : Handing
  extra : β
  callback : β → Task (Holding ω τ) ε α
  moves : ∀ s, Moves s (callback extra s).state

namespace SlotScope

variable (inner : τ → Task ω ρ Unit) (scope : SlotScope ω τ) (s : Holding ω τ)

def body : Outcome (Holding ω τ) scope.ε scope.α := scope.callback scope.extra s

def run : Task (Holding ω τ) (ScopeError scope.ε ρ) scope.α :=
  runScopedWith (scope.handing.release (releaseSlot (Estate.release inner))) scope.extra
    scope.callback

/-- What a scope comes to. It releases what its callback leaves in the slot, if there is something,
and leaves the slot empty, however callback and release end. -/
structure Closes : Prop where
  empty : (scope.run inner s).state.2 = none
  released : (scope.run inner s).state.1.released
    = (scope.body s).state.1.released ++ (scope.body s).state.2.toList
  ofEmpty : ∀ e, (scope.body s).state = (e, none) →
    (scope.run inner s).state = (e, none) ∧
    (scope.run inner s).exit = (scope.body s).exit.closedBy (.done () : Exit ρ Unit)
  ofFull : ∀ e v, (scope.body s).state = (e, some v) →
    let closing := inner v e.world
    (scope.run inner s).state
      = ({ e with world := closing.state, released := e.released ++ [v] }, none) ∧
    (scope.run inner s).exit = (scope.body s).exit.closedBy closing.exit

theorem run_eq : scope.run inner s =
    let closing := releaseSlot (Estate.release inner) (scope.body s).state
    { exit := (scope.body s).exit.closedBy closing.exit
      state := closing.state
      events := (scope.body s).events ++ closing.events
        ++ (scope.body s).exit.reportedBy closing.exit } := by
  rw [run, Handing.release_eq, runScopedWith_eq]
  rfl

theorem closes : scope.Closes inner s := by
  rcases hleft : (scope.body s).state with ⟨e, _ | v⟩ <;>
    constructor <;> simp [run_eq, hleft, releaseSlot, Task.onFirst, Estate.release]

/-- A scope is itself one of the things that a program can do. -/
theorem run_moves : Moves s (scope.run inner s).state := by
  have hbody : Moves s (scope.body s).state := scope.moves s
  rcases hleft : (scope.body s).state with ⟨e, _ | v⟩
  · rw [((closes inner scope s).ofEmpty e hleft).1, ← hleft]
    exact hbody
  · rw [((closes inner scope s).ofFull e v hleft).1]
    exact (hleft ▸ hbody).release _

end SlotScope

/-! ### Turns -/

/-- What a program does next: a scope on the slot, or something outside of scopes. -/
inductive Turn (ω τ : Type) where
  | outside (change : Holding ω τ → Holding ω τ) (moves : ∀ s, Moves s (change s))
  | within (scope : SlotScope ω τ)

namespace Turn

def next (inner : τ → Task ω ρ Unit) : Turn ω τ → Holding ω τ → Holding ω τ
  | outside change _, s => change s
  | within scope, s => (scope.run inner s).state

/-- Turns one after the other. The program goes on after a scope however that ends. -/
def after (inner : τ → Task ω ρ Unit) : List (Turn ω τ) → Holding ω τ → Holding ω τ
  | [], s => s
  | turn :: rest, s => after inner rest (turn.next inner s)

theorem next_moves (inner : τ → Task ω ρ Unit) (turn : Turn ω τ) (s : Holding ω τ) :
    Moves s (turn.next inner s) := by
  cases turn with
  | outside change moves => exact moves s
  | within scope => exact scope.run_moves inner s

theorem after_moves (inner : τ → Task ω ρ Unit) (turns : List (Turn ω τ)) (s : Holding ω τ) :
    Moves s (after inner turns s) := by
  induction turns generalizing s with
  | nil => exact .nil
  | cons turn rest ih => exact (turn.next_moves inner s).trans (ih _)

theorem after_append (inner : τ → Task ω ρ Unit) (earlier later : List (Turn ω τ))
    (s : Holding ω τ) :
    after inner (earlier ++ later) s = after inner later (after inner earlier s) := by
  induction earlier generalizing s with
  | nil => rfl
  | cons turn rest ih => exact ih _

/-- Whatever is done with a slot and with its values, every scope on it releases what it then holds
and empties it, and no value is released twice. -/
theorem released_once (inner : τ → Task ω ρ Unit) (turns : List (Turn ω τ)) {s : Holding ω τ}
    (hs : s.Distinct) :
    (∀ earlier scope later, turns = earlier ++ .within scope :: later →
      let found := after inner earlier s
      after inner turns s = after inner later (scope.run inner found).state ∧
        scope.Closes inner found) ∧
    s.1.released <+: (after inner turns s).1.released ∧
    (after inner turns s).1.released.Nodup := by
  have hmoves : Moves s (after inner turns s) := after_moves inner turns s
  refine ⟨?_, hmoves.released_prefix, (hmoves.distinct hs).released_nodup⟩
  rintro earlier scope later rfl
  exact ⟨after_append inner earlier _ s, scope.closes inner _⟩

/-- A value is put in another's place and fails to be released, a panic follows on the empty slot,
and the first value is put back to be released in its turn. -/
theorem released_once_refilled :
    let inner : Nat → Task Unit String Unit := fun v => if v = 1 then .fail "stuck" else .done ()
    let failing : SlotScope Unit Nat := {
      ε := String
      α := Unit
      handing := .borrowed .direct
      extra := ()
      callback := fun () s => { exit := .failed "stop", state := s.swap }
      moves := Holding.swap_moves }
    let panicking : SlotScope Unit Nat := {
      ε := String
      α := Unit
      handing := .direct
      extra := ()
      callback := fun () => .panic
      moves := fun _ => .nil }
    let closing : SlotScope Unit Nat := {
      ε := String
      α := Nat
      handing := .boxed .direct
      extra := 7
      callback := .done
      moves := fun _ => .nil }
    let turns : List (Turn Unit Nat) :=
      [.within failing, .within panicking, .outside Holding.swap Holding.swap_moves,
        .within closing]
    let s : Holding Unit Nat := (⟨(), [1], []⟩, some 0)
    s.Distinct ∧ (failing.run inner s).exit = .failed (.release "stuck" (some "stop")) ∧
      (failing.run inner s).state.2 = none ∧ (after inner turns s).1.released = [1, 0] ∧
      (after inner turns s).1.released.Nodup := by
  intro inner failing panicking closing turns s
  have hs : s.Distinct := show [0, 1].Nodup by decide
  obtain ⟨hscopes, -, hnodup⟩ := released_once inner turns hs
  obtain ⟨-, hfailing⟩ := hscopes [] failing _ rfl
  exact ⟨hs, (hfailing.ofFull _ 1 rfl).2, hfailing.empty, rfl, hnodup⟩

end Turn
end ScriptBuiltins
