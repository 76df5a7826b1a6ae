import ScriptBuiltins.Proofs.Output.Agreement
import ScriptBuiltins.Proofs.Output.Growth

/-! How a sink chops its writes is not to be seen. A payload is taken up to the room that the sink
has, in however many pieces and after however many interruptions, so that sinks that differ in
nothing else agree after every step, also with a buffer in front of them. -/
namespace ScriptBuiltins

namespace Sink

def room (s : Sink) (count : Nat) : Nat :=
  match s.limit with
  | some limit => min count (limit - s.data.length)
  | none => count

def piece (s : Sink) (count : Nat) : Nat :=
  match s.chunk with
  | some chunk => min count chunk
  | none => count

/-- A push in one piece. It fails if there is no room for all the bytes. -/
def pour (stuck : OutputError) (bytes : List UInt8) (s : Sink) :
    Option OutputError × List UInt8 × Sink :=
  let count := s.room bytes.length
  (if count < bytes.length then some (if s.quietWhenFull then stuck else .full) else none,
    bytes.drop count, { s with data := s.data ++ bytes.take count })

def unchopped (s : Sink) : Sink := { s with chunk := none, interrupts := 0 }

/-! ### Offers -/

variable {s s' t : Sink} {bytes : List UInt8} {n : Nat} {stuck : OutputError}

theorem capacityFor_eq (s : Sink) (n : Nat) : s.capacityFor n = s.room (s.piece n) := rfl

theorem room_le : s.room n ≤ n := by
  cases hlimit : s.limit <;> simp only [room, hlimit] <;> omega

theorem room_mono {m : Nat} (h : m ≤ n) : s.room m ≤ s.room n := by
  cases hlimit : s.limit <;> simp only [room, hlimit] <;> omega

theorem isFull_iff (hn : n ≠ 0) : s.isFull ↔ s.room n = 0 := by
  cases hlimit : s.limit with
  | none => simp [isFull, room, hlimit, hn]
  | some limit =>
    simp only [isFull, room, hlimit, decide_eq_true_eq]
    omega

theorem piece_le : s.piece n ≤ n := by
  cases hchunk : s.chunk <;> simp only [piece, hchunk] <;> omega

theorem piece_ne_zero (h : s.chunk ≠ some 0) (hn : n ≠ 0) : s.piece n ≠ 0 := by
  cases hchunk : s.chunk with
  | none => simpa only [piece, hchunk] using hn
  | some chunk =>
    rw [hchunk, ne_eq, Option.some.injEq] at h
    simp only [piece, hchunk]
    omega

theorem offer_spec {answer : Answer} (h : s.offer bytes = (answer, s')) :
    match answer with
    | .interrupted => s' = { s with interrupts := s.interrupts - 1 }
    | .refused error => error = .full ∧ s.isFull ∧ s.quietWhenFull = false ∧ s' = s
    | .took n => n = s.capacityFor bytes.length ∧ (s.isFull → s.quietWhenFull) ∧
      s' = { s with data := s.data ++ bytes.take n } := by
  unfold offer at h
  split at h
  · cases h
    rfl
  · split at h
    · rename_i hfull
      simp only [Bool.and_eq_true, Bool.not_eq_true'] at hfull
      cases h
      exact ⟨rfl, hfull.1, hfull.2, rfl⟩
    · rename_i hfull
      cases h
      exact ⟨rfl, fun hroom => by simpa [hroom] using hfull, rfl⟩

/-! ### Pushes -/

theorem pour_of_isFull (h : s.isFull) (hbytes : bytes ≠ []) :
    s.pour stuck bytes = (some (if s.quietWhenFull then stuck else .full), bytes, s) := by
  have hlength : bytes.length ≠ 0 := by simpa using hbytes
  simp [pour, (isFull_iff hlength).mp h, Nat.pos_of_ne_zero hlength]

theorem room_drop (h : n ≤ s.room bytes.length) :
    ({ s with data := s.data ++ bytes.take n } : Sink).room (bytes.length - n)
      = s.room bytes.length - n := by
  have hn : n ≤ bytes.length := Nat.le_trans h room_le
  cases hlimit : s.limit <;>
    simp only [room, hlimit, List.length_append, List.length_take] at h ⊢
  omega

theorem pour_drop (h : n ≤ s.room bytes.length) :
    ({ s with data := s.data ++ bytes.take n } : Sink).pour stuck (bytes.drop n)
      = s.pour stuck bytes := by
  have hn : n ≤ bytes.length := Nat.le_trans h room_le
  have hfront : bytes.take n ++ (bytes.drop n).take (s.room bytes.length - n)
      = bytes.take (s.room bytes.length) := by
    rw [← List.take_add, Nat.add_sub_cancel' h]
  have hrest : (bytes.drop n).drop (s.room bytes.length - n)
      = bytes.drop (s.room bytes.length) := by
    rw [List.drop_drop, Nat.add_sub_cancel' h]
  have hiff : s.room bytes.length - n < bytes.length - n ↔ s.room bytes.length < bytes.length := by
    omega
  simp only [pour, room_drop h, hrest, List.length_drop, hiff, List.append_assoc, hfront]

/-- Whatever a sink chops, a push comes to what it does in one piece. -/
theorem push_eq_pour (hchunk : s.chunk ≠ some 0) (stuck : OutputError) (bytes : List UInt8) :
    (s.push stuck bytes).1 = (s.pour stuck bytes).1 ∧
    (s.push stuck bytes).2.1 = (s.pour stuck bytes).2.1 ∧
    (s.push stuck bytes).2.2.unchopped = (s.pour stuck bytes).2.2.unchopped ∧
    (s.push stuck bytes).2.2.chunk = s.chunk := by
  fun_induction push stuck bytes s with
  | case1 bytes s h =>
    obtain rfl : bytes = [] := by simpa using h
    simp [pour]
  | case2 bytes s _ s' h ih =>
    obtain rfl : s' = { s with interrupts := s.interrupts - 1 } := offer_spec h
    exact ih hchunk
  | case3 bytes s hbytes error s' h =>
    obtain ⟨rfl, hfull, hquiet, rfl⟩ := offer_spec h
    rw [pour_of_isFull hfull (by simpa using hbytes), hquiet]
    exact ⟨rfl, rfl, rfl, rfl⟩
  | case4 bytes s hbytes s' h =>
    obtain ⟨hzero, hquiet, rfl⟩ := offer_spec h
    have hlength : bytes.length ≠ 0 := by simpa using hbytes
    -- A piece with something in it is not taken only if there is no room at all.
    have hfull : s.isFull :=
      (isFull_iff (piece_ne_zero hchunk hlength)).mpr (hzero.trans (s.capacityFor_eq _)).symm
    rw [pour_of_isFull hfull (by simpa using hbytes), if_pos (hquiet hfull), List.take_zero,
      List.append_nil]
    exact ⟨rfl, rfl, rfl, rfl⟩
  | case5 bytes s hbytes n s' h ih =>
    obtain ⟨hcount, _, rfl⟩ := offer_spec h
    have hroom : n + 1 ≤ s.room bytes.length :=
      Nat.le_trans (Nat.le_of_eq (hcount.trans (s.capacityFor_eq _))) (room_mono piece_le)
    rw [← pour_drop hroom]
    exact ih hchunk

/-! ### Sinks alike -/

/-- Sinks that differ in how they chop only, and that take something whenever they have room. -/
structure Alike (s t : Sink) : Prop where
  same : s.unchopped = t.unchopped
  chunk : s.chunk ≠ some 0
  chunk' : t.chunk ≠ some 0

namespace Alike

theorem data (h : s.Alike t) : s.data = t.data :=
  (congrArg Sink.data h.same :)

theorem flushes (h : s.Alike t) : s.flushes = t.flushes :=
  (congrArg Sink.flushes h.same :)

theorem push (h : s.Alike t) (stuck : OutputError) (bytes : List UInt8) :
    (s.push stuck bytes).1 = (t.push stuck bytes).1 ∧
    (s.push stuck bytes).2.1 = (t.push stuck bytes).2.1 ∧
    (s.push stuck bytes).2.2.Alike (t.push stuck bytes).2.2 := by
  obtain ⟨herror, hrest, hsink, hchunk⟩ := push_eq_pour h.chunk stuck bytes
  obtain ⟨herror', hrest', hsink', hchunk'⟩ := push_eq_pour h.chunk' stuck bytes
  have hpour : s.unchopped.pour stuck bytes = t.unchopped.pour stuck bytes := by rw [h.same]
  refine ⟨?_, ?_, ?_, hchunk ▸ h.chunk, hchunk' ▸ h.chunk'⟩
  · exact herror.trans ((congrArg Prod.fst hpour).trans herror'.symm)
  · exact hrest.trans ((congrArg (·.2.1) hpour).trans hrest'.symm)
  · exact hsink.trans ((congrArg (·.2.2) hpour).trans hsink'.symm)

end Alike

theorem writeAll_agrees (bytes : List UInt8) :
    (writeAll bytes).Agrees Alike (writeAll bytes) := by
  intro s t h
  obtain ⟨herror, _, hsink⟩ := h.push .tookNothing bytes
  rw [writeAll_eq, writeAll_eq, herror]
  exact ⟨rfl, hsink, rfl⟩

theorem flush_agrees : flush.Agrees Alike flush := by
  intro s t h
  have hfailing : s.failingFlushes = t.failingFlushes :=
    (congrArg Sink.failingFlushes h.same :)
  refine ⟨by simp only [flush, h.flushes, hfailing], ⟨?_, h.chunk, h.chunk'⟩, rfl⟩
  exact congrArg (fun sink : Sink => { sink with flushes := sink.flushes + 1 }) h.same

theorem call_agrees (call : WriterCall) :
    (call.run : Task Sink OutputError Unit).Agrees Alike call.run := by
  cases call with
  | write bytes => exact writeAll_agrees bytes
  | flush => exact flush_agrees

end Sink

namespace Buffered

structure Alike (b c : Buffered) : Prop where
  sink : b.sink.Alike c.sink
  capacity : b.capacity = c.capacity
  pending : b.pending = c.pending

theorem drain_agrees : drain.Agrees Alike drain := by
  intro b c h
  obtain ⟨herror, hrest, hsink⟩ := h.sink.push .drainedNothing b.pending
  rw [drain_eq, drain_eq, ← h.pending, herror]
  exact ⟨rfl, ⟨hsink, h.capacity, hrest⟩, rfl⟩

theorem onSink_agrees {ε α : Type} {task : Task Sink ε α} (h : task.Agrees Sink.Alike task) :
    (onSink task).Agrees Alike (onSink task) := by
  intro b c halike
  obtain ⟨hexit, hstate, hevents⟩ := h _ _ halike.sink
  exact ⟨hexit, ⟨hstate, halike.capacity, halike.pending⟩, hevents⟩

theorem place_agrees (capacity : Nat) (bytes : List UInt8) :
    (place capacity bytes).Agrees Alike (place capacity bytes) := by
  unfold place
  split
  · exact fun b c h => ⟨rfl, ⟨h.sink, h.capacity, congrArg (· ++ bytes) h.pending⟩, rfl⟩
  · exact onSink_agrees (Sink.writeAll_agrees bytes)

theorem call_agrees (call : WriterCall) :
    (call.run : Task Buffered OutputError Unit).Agrees Alike call.run := by
  cases call with
  | write bytes =>
    intro b c h
    have hspare : b.spare = c.spare := by rw [spare, spare, h.capacity, h.pending]
    change (writeAll bytes b).Agrees Alike (writeAll bytes c)
    rw [writeAll_eq, writeAll_eq, hspare, h.capacity]
    split
    · exact drain_agrees.andThen (fun _ => place_agrees c.capacity bytes) b c h
    · exact place_agrees c.capacity bytes b c h
  | flush => exact drain_agrees.andThen fun _ => onSink_agrees Sink.flush_agrees

end Buffered

/-! ### What is seen -/

/-- What is seen of steps on a sink: how each ends, what the sink has then, and how often it was
flushed. -/
def Sink.transcript (s : Sink) : List OutputStep → List (Exit WriteError Unit × List UInt8 × Nat)
  | [] => []
  | step :: rest =>
    let o := step.run s
    (o.exit, o.state.data, o.state.flushes) :: transcript o.state rest

theorem Sink.Alike.transcript_eq {s t : Sink} (h : s.Alike t) (steps : List OutputStep) :
    s.transcript steps = t.transcript steps := by
  induction steps generalizing s t with
  | nil => rfl
  | cons step rest ih =>
    obtain ⟨hexit, hstate, _⟩ := step.run_agrees call_agrees s t h
    rw [transcript, transcript, hexit, hstate.data, hstate.flushes, ih hstate]

def Buffered.view (b : Buffered) : List UInt8 × Nat × List UInt8 :=
  (b.sink.data, b.sink.flushes, b.pending)

theorem Buffered.Alike.view_eq {b c : Buffered} (h : b.Alike c) : b.view = c.view := by
  rw [view, view, h.sink.data, h.sink.flushes, h.pending]

theorem Buffered.map_view_eq {bs cs : List Buffered} (h : List.Forall₂ Alike bs cs) :
    bs.map view = cs.map view := by
  induction h with
  | nil => rfl
  | cons hfirst _ ih => rw [List.map_cons, List.map_cons, hfirst.view_eq, ih]

/-- Sinks that differ in their chunk size and in how often they interrupt come to the same, step by
step: on their own, and behind a buffer in a scope, before and after its release. -/
theorem Sink.chopping_unseen {s : Sink} {chunk : Option Nat} (hs : s.chunk ≠ some 0)
    (hchunk : chunk ≠ some 0) (interrupts : Nat) (steps : List OutputStep) :
    let t : Sink := { s with chunk, interrupts }
    s.transcript steps = t.transcript steps ∧
    ∀ capacity,
      let a := Session.run steps { writer := { sink := s, capacity } }
      let b := Session.run steps { writer := { sink := t, capacity } }
      a.exit = b.exit ∧ a.events = b.events ∧
      a.state.history.map Buffered.view = b.state.history.map Buffered.view ∧
      a.state.writer.view = b.state.writer.view := by
  intro t
  have halike : s.Alike t := ⟨rfl, hs, hchunk⟩
  refine ⟨halike.transcript_eq steps, fun capacity => ?_⟩
  intro a b
  have hstart : Session.Alike Buffered.Alike { writer := { sink := s, capacity } }
      { writer := { sink := t, capacity } } := ⟨⟨halike, rfl, rfl⟩, .nil⟩
  obtain ⟨hexit, hstate, hevents⟩ := Session.run_agrees Buffered.call_agrees steps _ _ hstart
  exact ⟨hexit, hevents, Buffered.map_view_eq hstate.history, hstate.writer.view_eq⟩

theorem Sink.chopping_unseen_full :
    let s : Sink := { limit := some 5, chunk := some 2, interrupts := 3, failingFlushes := [2] }
    let t : Sink := { s with chunk := none, interrupts := 1 }
    let steps : List OutputStep := [.write "ab" [], .writeln (some "cd") [], .raw [101, 102, 103]]
    let a := Session.run steps { writer := { sink := s, capacity := 3 } }
    let b := Session.run steps { writer := { sink := t, capacity := 3 } }
    s.chunk ≠ some 0 ∧ t.chunk ≠ some 0 ∧ s.transcript steps = t.transcript steps ∧
      t.transcript steps = [(.done (), [97, 98], 1),
        (.failed (.output .flushFailed), [97, 98, 99, 100], 2),
        (.failed (.output .full), [97, 98, 99, 100, 101], 2)] ∧
      a.exit = b.exit ∧ a.state.writer.view = b.state.writer.view := by
  have hseen : Sink.transcript { limit := some 5, interrupts := 1, failingFlushes := [2] }
      [.write "ab" [], .writeln (some "cd") [], .raw [101, 102, 103]]
        = [(.done (), [97, 98], 1), (.failed (.output .flushFailed), [97, 98, 99, 100], 2),
          (.failed (.output .full), [97, 98, 99, 100, 101], 2)] := by cbv
  intro s t steps a b
  have hs : s.chunk ≠ some 0 := by decide
  have ht : t.chunk ≠ some 0 := by decide
  obtain ⟨htranscript, hsession⟩ := chopping_unseen hs ht 1 steps
  obtain ⟨hexit, -, -, hview⟩ := hsession 3
  exact ⟨hs, ht, htranscript, hseen, hexit, hview⟩

end ScriptBuiltins
