import ScriptBuiltins.Proofs.Output.Calls

/-! What calls do to the content of a writer. A completed call appends all its bytes, and a failed
one a front part of them. The content of a buffered writer is what its sink holds, and then what is
pending. -/
namespace ScriptBuiltins

/-- A call that was to bring some bytes, and what it did to the content. -/
def Appends {σ : Type} (content : σ → List UInt8) (bytes : List UInt8) (s : σ)
    (o : Outcome σ OutputError Unit) : Prop :=
  o.exit ≠ .panicked ∧ ∃ part, part <+: bytes ∧ content o.state = content s ++ part ∧
    (o.exit = .done () → part = bytes)

def Growing {σ : Type} [Writer σ] (content : σ → List UInt8) : Prop :=
  ∀ (call : WriterCall) (s : σ), Appends content call.bytes s (call.run s)

section Calls

variable {σ : Type} [Writer σ] {content : σ → List UInt8}

namespace WriterCall

theorem Made.keeps {P : σ → Prop}
    (hcall : ∀ (call : WriterCall) (s : σ), P s → P (call.run s).state)
    {calls completed : List WriterCall} {failure : Option (WriterCall × OutputError)} {s after : σ}
    (h : Made calls s completed failure after) (hs : P s) : P after := by
  induction h with
  | nil => exact hs
  | next _ _ ih => exact ih (hcall _ _ hs)
  | stop => exact hcall _ _ hs

theorem Made.grows (hgrowing : Growing content) {calls completed : List WriterCall}
    {failure : Option (WriterCall × OutputError)} {s after : σ}
    (h : Made calls s completed failure after) :
    ∃ part, part <+: (failure.map Prod.fst).elim [] bytes ∧
      content after = content s ++ completed.flatMap bytes ++ part := by
  induction h with
  | nil s => exact ⟨[], List.nil_prefix, by simp⟩
  | @next call rest completed s after failure hcall _ ih =>
    obtain ⟨_, part, _, hcontent, hwhole⟩ := hgrowing call s
    obtain ⟨last, hfront, hafter⟩ := ih
    refine ⟨last, hfront, ?_⟩
    rw [hafter, hcontent, hwhole hcall, List.flatMap_cons, List.append_assoc (content s)]
  | @stop call s error rest hcall =>
    obtain ⟨_, part, hfront, hcontent, _⟩ := hgrowing call s
    exact ⟨part, hfront, by simp [hcontent]⟩

theorem Made.front {calls completed : List WriterCall} {call : WriterCall} {error : OutputError}
    {s after : σ} (h : Made calls s completed (some (call, error)) after) :
    completed ++ [call] <+: calls := by
  generalize hfailure : some (call, error) = failure at h
  induction h with
  | nil => contradiction
  | next _ _ ih => exact List.cons_prefix_cons.mpr ⟨rfl, ih hfailure⟩
  | stop rest =>
    obtain rfl : call = _ := congrArg Prod.fst (Option.some.inj hfailure)
    exact ⟨rest, rfl⟩

end WriterCall

theorem OutputStep.Stepped.grows (hgrowing : Growing content) {step : OutputStep} {s after : σ}
    {completed : List WriterCall} {failing : Option WriterCall} {exit : Exit WriteError Unit}
    (h : Stepped step s completed failing exit after) :
    ∃ part, part <+: failing.elim [] WriterCall.bytes ∧
      content after = content s ++ completed.flatMap WriterCall.bytes ++ part := by
  cases h with
  | refused => exact ⟨[], List.nil_prefix, by simp⟩
  | completed _ hmade => exact hmade.grows hgrowing
  | cut _ hmade => exact hmade.grows hgrowing

theorem OutputStep.Stepped.keeps {P : σ → Prop}
    (hcall : ∀ (call : WriterCall) (s : σ), P s → P (call.run s).state) {step : OutputStep}
    {s after : σ} {completed : List WriterCall} {failing : Option WriterCall}
    {exit : Exit WriteError Unit} (h : Stepped step s completed failing exit after) (hs : P s) :
    P after := by
  cases h with
  | refused => exact hs
  | completed _ hmade => exact hmade.keeps hcall hs
  | cut _ hmade => exact hmade.keeps hcall hs

theorem OutputStep.exists_stepped (hgrowing : Growing content) (step : OutputStep) (s : σ) :
    ∃ completed failing, Stepped step s completed failing (step.run s).exit (step.run s).state :=
  stepped_run (fun call s => (hgrowing call s).1) step s

end Calls

namespace Sink

theorem exitOf_ne_panicked (error : Option OutputError) : exitOf error ≠ .panicked := by
  cases error <;> simp [exitOf]

theorem exitOf_eq_done {error : Option OutputError} : exitOf error = .done () ↔ error = none := by
  cases error <;> simp [exitOf]

theorem push_ne_nil {stuck error : OutputError} {bytes : List UInt8} {s : Sink}
    (h : (s.push stuck bytes).1 = some error) : (s.push stuck bytes).2.1 ≠ [] := by
  fun_induction push stuck bytes s with
  | case1 => contradiction
  | case2 bytes s _ s' _ ih => exact ih h
  | case3 bytes s hbytes => simpa using hbytes
  | case4 bytes s hbytes => simpa using hbytes
  | case5 bytes s _ n s' _ ih => exact ih h

theorem writeAll_eq (bytes : List UInt8) (s : Sink) : writeAll bytes s =
    { exit := exitOf (s.push .tookNothing bytes).1
      state := (s.push .tookNothing bytes).2.2 } := rfl

theorem writeAll_appends (bytes : List UInt8) (s : Sink) :
    Appends data bytes s (writeAll bytes s) := by
  obtain ⟨taken, hbytes, hdata⟩ := data_push .tookNothing bytes s
  rw [writeAll_eq]
  refine ⟨exitOf_ne_panicked _, taken, ⟨_, hbytes.symm⟩, hdata, fun hexit => ?_⟩
  have hrest := push_eq_nil (exitOf_eq_done.mp hexit)
  rw [hrest, List.append_nil] at hbytes
  exact hbytes.symm

theorem growing : Growing data := by
  intro call s
  cases call with
  | write bytes => exact writeAll_appends bytes s
  | flush =>
    refine ⟨?_, [], List.nil_prefix, (List.append_nil _).symm, fun _ => rfl⟩
    simp only [WriterCall.run, Writer.flush, flush]
    split <;> simp

end Sink

namespace Buffered

def content (b : Buffered) : List UInt8 := b.sink.data ++ b.pending

structure Fits (capacity : Nat) (b : Buffered) : Prop where
  capacity_eq : b.capacity = capacity
  pending_le : b.pending.length ≤ capacity

theorem drain_eq (b : Buffered) : drain b =
    { exit := Sink.exitOf (b.sink.push .drainedNothing b.pending).1
      state := { b with
        sink := (b.sink.push .drainedNothing b.pending).2.2
        pending := (b.sink.push .drainedNothing b.pending).2.1 } } := rfl

/-- A drain moves bytes from the front of what is pending to the end of the sink. -/
theorem drain_moves (b : Buffered) : ∃ sent, b.pending = sent ++ (drain b).state.pending ∧
    (drain b).state.sink.data = b.sink.data ++ sent :=
  Sink.data_push .drainedNothing b.pending b.sink

theorem drain_content (b : Buffered) : (drain b).state.content = b.content := by
  obtain ⟨sent, hpending, hdata⟩ := drain_moves b
  rw [content, content, hdata, hpending, List.append_assoc]

theorem drain_fits {capacity : Nat} {b : Buffered} (h : b.Fits capacity) :
    (drain b).state.Fits capacity := by
  obtain ⟨sent, hpending, _⟩ := drain_moves b
  have hlength := congrArg List.length hpending
  rw [List.length_append] at hlength
  exact ⟨h.capacity_eq, by have := h.pending_le; omega⟩

/-- After a drain either nothing is pending and the next task runs, or there is an error and
something is. -/
theorem drain_andThen (next : Unit → Task Buffered OutputError Unit) (b : Buffered) :
    (drain b).state.pending = [] ∧ drain.andThen next b = next () (drain b).state ∨
    (drain b).state.pending ≠ [] ∧ ∃ error,
      drain.andThen next b = { exit := .failed error, state := (drain b).state } := by
  cases hpush : (b.sink.push .drainedNothing b.pending).1 with
  | none =>
    have hexit : (drain b).exit = .done () := by rw [drain_eq, hpush]; rfl
    exact .inl ⟨Sink.push_eq_nil hpush, Task.andThen_of_done hexit⟩
  | some error =>
    have hexit : (drain b).exit = .failed error := by rw [drain_eq, hpush]; rfl
    exact .inr ⟨Sink.push_ne_nil hpush, error, Task.andThen_of_failed hexit⟩

theorem drain_andThen_appends {bytes : List UInt8} {b : Buffered}
    {next : Unit → Task Buffered OutputError Unit}
    (h : (drain b).state.pending = [] →
      Appends content bytes (drain b).state (next () (drain b).state)) :
    Appends content bytes b (drain.andThen next b) := by
  obtain ⟨hnil, hrun⟩ | ⟨_, error, hrun⟩ := drain_andThen next b
  · have happends := h hnil
    rw [Appends, drain_content] at happends
    rw [hrun]
    exact happends
  · rw [hrun]
    exact ⟨by simp, [], List.nil_prefix, by simp [drain_content], by simp⟩

theorem drain_andThen_fits {capacity : Nat} {b : Buffered}
    {next : Unit → Task Buffered OutputError Unit} (hfits : b.Fits capacity)
    (h : (drain b).state.pending = [] → (drain b).state.Fits capacity →
      (next () (drain b).state).state.Fits capacity) :
    (drain.andThen next b).state.Fits capacity := by
  obtain ⟨hnil, hrun⟩ | ⟨_, error, hrun⟩ := drain_andThen next b
  · rw [hrun]
    exact h hnil (drain_fits hfits)
  · rw [hrun]
    exact drain_fits hfits

def place (capacity : Nat) (bytes : List UInt8) : Task Buffered OutputError Unit :=
  if bytes.length < capacity then .modify fun b => { b with pending := b.pending ++ bytes }
  else onSink (Sink.writeAll bytes)

theorem writeAll_eq (bytes : List UInt8) (b : Buffered) : writeAll bytes b =
    if b.spare < bytes.length then drain.andThen (fun () => place b.capacity bytes) b
    else place b.capacity bytes b := by
  rw [writeAll, Task.read_bind]
  split <;> rfl

theorem flush_eq : (flush : Task Buffered OutputError Unit)
    = drain.andThen fun () => onSink Sink.flush := rfl

/-- A payload is sent on past the buffer only when nothing is pending, or nothing is sent. -/
theorem place_appends {bytes : List UInt8} {b : Buffered}
    (h : b.pending = [] ∨ bytes.length ≤ b.spare) :
    Appends content bytes b (place b.capacity bytes b) := by
  rw [place]
  split
  · refine ⟨by simp [Task.modify], bytes, List.prefix_rfl, ?_, fun _ => rfl⟩
    simp [content, Task.modify]
  · rename_i hlarge
    obtain ⟨hpanic, part, hfront, hdata, hwhole⟩ := Sink.writeAll_appends bytes b.sink
    -- A payload at least as large as the buffer that still fits in it leaves no room for any
    -- other byte.
    have hempty : b.pending = [] ∨ part = [] := by
      obtain hpending | hroom := h
      · exact .inl hpending
      · rw [spare] at hroom
        obtain hzero | hzero : b.pending.length = 0 ∨ bytes.length = 0 := by omega
        · exact .inl (List.length_eq_zero_iff.mp hzero)
        · rw [List.length_eq_zero_iff.mp hzero] at hfront
          exact .inr (List.prefix_nil.mp hfront)
    refine ⟨hpanic, part, hfront, ?_, hwhole⟩
    simp only [content, onSink, hdata]
    obtain hnil | hnil := hempty <;> simp [hnil]

theorem place_fits {capacity : Nat} {bytes : List UInt8} {b : Buffered} (hfits : b.Fits capacity)
    (h : b.pending = [] ∨ bytes.length ≤ b.spare) :
    (place b.capacity bytes b).state.Fits capacity := by
  obtain ⟨hcapacity, hpending⟩ := hfits
  rw [place]
  split
  · rename_i hsmall
    refine ⟨hcapacity, ?_⟩
    simp only [Task.modify, List.length_append]
    obtain hnil | hroom := h
    · simp only [hnil, List.length_nil]
      omega
    · rw [spare] at hroom
      omega
  · exact ⟨hcapacity, hpending⟩

theorem growing : Growing content := by
  intro call b
  cases call with
  | write bytes =>
    change Appends content bytes b (writeAll bytes b)
    rw [writeAll_eq]
    split
    · exact drain_andThen_appends fun hnil => place_appends (.inl hnil)
    · rename_i hroom
      exact place_appends (.inr (by omega))
  | flush =>
    change Appends content [] b (flush b)
    rw [flush_eq]
    have hpanic := (Sink.growing .flush (drain b).state.sink).1
    exact drain_andThen_appends fun _ =>
      ⟨hpanic, [], List.nil_prefix, (List.append_nil _).symm, fun _ => rfl⟩

theorem run_fits {capacity : Nat} (call : WriterCall) (b : Buffered) (h : b.Fits capacity) :
    (call.run b).state.Fits capacity := by
  cases call with
  | write bytes =>
    change (writeAll bytes b).state.Fits capacity
    rw [writeAll_eq]
    split
    · exact drain_andThen_fits h fun hnil hfits => place_fits hfits (.inl hnil)
    · rename_i hroom
      exact place_fits h (.inr (by omega))
  | flush =>
    exact drain_andThen_fits h fun _ hfits => ⟨hfits.capacity_eq, hfits.pending_le⟩

end Buffered
end ScriptBuiltins
