import ScriptBuiltins.Task

/-!
Where output goes. A sink takes some of the bytes that it is offered, and may be interrupted, be
full or fail to flush.
-/
namespace ScriptBuiltins

inductive OutputError where
  | full
  | tookNothing
  | drainedNothing
  | flushFailed
  | other (text : String)
  deriving DecidableEq

def OutputError.message : OutputError → String
  | .full => "sink full"
  | .tookNothing => "failed to write whole buffer"
  | .drainedNothing => "failed to write the buffered data"
  | .flushFailed => "flush failed"
  | .other text => text

class Writer (σ : Type) where
  writeAll : List UInt8 → Task σ OutputError Unit
  flush : Task σ OutputError Unit

structure Sink where
  data : List UInt8 := []
  limit : Option Nat := none
  chunk : Option Nat := none
  interrupts : Nat := 0
  /-- Whether a full sink takes nothing instead of failing. -/
  quietWhenFull : Bool := false
  /-- The numbers of the flushes that fail, counted from one. -/
  failingFlushes : List Nat := []
  flushes : Nat := 0
  deriving DecidableEq

namespace Sink

inductive Answer where
  | interrupted
  | refused (error : OutputError)
  | took (count : Nat)
  deriving DecidableEq

def capacityFor (s : Sink) (count : Nat) : Nat :=
  let count := match s.chunk with
    | some n => min count n
    | none => count
  match s.limit with
  | some n => min count (n - s.data.length)
  | none => count

def isFull (s : Sink) : Bool :=
  match s.limit with
  | some n => n ≤ s.data.length
  | none => false

def offer (bytes : List UInt8) (s : Sink) : Answer × Sink :=
  if 0 < s.interrupts then (.interrupted, { s with interrupts := s.interrupts - 1 })
  else if s.isFull && !s.quietWhenFull then (.refused .full, s)
  else
    let count := s.capacityFor bytes.length
    (.took count, { s with data := s.data ++ bytes.take count })

theorem interrupts_offer {bytes : List UInt8} {s s' : Sink}
    (h : s.offer bytes = (.interrupted, s')) :
    s'.interrupts < s.interrupts := by
  unfold offer at h
  split at h
  · cases h
    simp
    omega
  · split at h <;> simp at h

/-- Offers bytes until all are taken. Interruptions are tried again, and a sink that takes nothing
is given up with the error `stuck`. Gives the error if there is one, and the bytes that were not
taken. -/
def push (stuck : OutputError) (bytes : List UInt8) (s : Sink) :
    Option OutputError × List UInt8 × Sink :=
  if bytes.isEmpty then (none, [], s)
  else
    match _answer : s.offer bytes with
    | (.interrupted, s') => push stuck bytes s'
    | (.refused error, s') => (some error, bytes, s')
    | (.took 0, s') => (some stuck, bytes, s')
    | (.took (n + 1), s') => push stuck (bytes.drop (n + 1)) s'
termination_by (bytes.length, s.interrupts)
decreasing_by
  · exact Prod.Lex.right _ (interrupts_offer _answer)
  · apply Prod.Lex.left
    cases bytes with
    | nil => contradiction
    | cons b bs =>
      simp only [List.length_drop, List.length_cons]
      omega

theorem data_offer {bytes : List UInt8} {s s' : Sink} {n : Nat}
    (h : s.offer bytes = (.took n, s')) : s'.data = s.data ++ bytes.take n := by
  unfold offer at h
  split at h
  · cases h
  · split at h
    · cases h
    · cases h
      rfl

theorem data_offer_eq {bytes : List UInt8} {s s' : Sink} {answer : Answer}
    (h : s.offer bytes = (answer, s')) (untaken : ∀ n, answer ≠ .took n) : s'.data = s.data := by
  unfold offer at h
  split at h
  · cases h
    rfl
  · split at h
    · cases h
      rfl
    · cases h
      exact absurd rfl (untaken _)

theorem data_push (stuck : OutputError) (bytes : List UInt8) (s : Sink) :
    ∃ taken, bytes = taken ++ (s.push stuck bytes).2.1
      ∧ (s.push stuck bytes).2.2.data = s.data ++ taken := by
  fun_induction push stuck bytes s with
  | case1 bytes s h => exact ⟨[], by simpa using h, by simp⟩
  | case2 bytes s _ s' h ih =>
    obtain ⟨taken, h₁, h₂⟩ := ih
    exact ⟨taken, h₁, by rw [h₂, data_offer_eq h (by simp)]⟩
  | case3 bytes s _ error s' h => exact ⟨[], rfl, by simpa using data_offer_eq h (by simp)⟩
  | case4 bytes s _ s' h => exact ⟨[], rfl, by simpa using data_offer h⟩
  | case5 bytes s _ n s' h ih =>
    obtain ⟨taken, h₁, h₂⟩ := ih
    refine ⟨bytes.take (n + 1) ++ taken, ?_, ?_⟩
    · rw [List.append_assoc, ← h₁, List.take_append_drop]
    · rw [h₂, data_offer h, List.append_assoc]

theorem push_eq_nil {stuck : OutputError} {bytes : List UInt8} {s : Sink}
    (h : (s.push stuck bytes).1 = none) : (s.push stuck bytes).2.1 = [] := by
  fun_induction push stuck bytes s with
  | case1 => rfl
  | case2 bytes s _ s' _ ih => exact ih h
  | case3 => simp at h
  | case4 => simp at h
  | case5 bytes s _ n s' _ ih => exact ih h

def exitOf : Option OutputError → Exit OutputError Unit
  | some error => .failed error
  | none => .done ()

def writeAll (bytes : List UInt8) : Task Sink OutputError Unit := fun s =>
  let (error, _, s) := s.push .tookNothing bytes
  { exit := exitOf error, state := s }

def flush : Task Sink OutputError Unit := fun s =>
  let count := s.flushes + 1
  { exit := if count ∈ s.failingFlushes then .failed .flushFailed else .done ()
    state := { s with flushes := count } }

instance : Writer Sink := ⟨writeAll, flush⟩

end Sink
end ScriptBuiltins
