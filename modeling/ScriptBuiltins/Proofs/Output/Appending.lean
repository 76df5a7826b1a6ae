import ScriptBuiltins.Proofs.Output.Growth

namespace ScriptBuiltins

namespace OutputStep

/-- What a step is to append: the text of a `writeln` and its newline in UTF-8, or the error that it
fails with before it appends anything. -/
def bytes : OutputStep → Except WriteError (List UInt8)
  | write template arguments =>
    match textOf template arguments with
    | .ok text => .ok (String.ofList text).toUTF8.data.toList
    | .error e => .error (.format e)
  | writeln (some template) arguments =>
    match textOf template arguments with
    | .ok text => .ok ((String.ofList text).toUTF8.data.toList ++ [10])
    | .error e => .error (.format e)
  | writeln none _ => .ok [10]
  | raw bytes => .ok bytes
  | fail text => .error (.output (.other text))

def flushes : OutputStep → Nat
  | write .. => 1
  | writeln (some _) _ => 2
  | writeln none _ => 1
  | raw _ => 0
  | fail _ => 0

theorem bytes_eq (step : OutputStep) :
    step.bytes = step.calls.map fun calls => calls.flatMap WriterCall.bytes := by
  have hnewline : newline = [10] := utf8Encode_newline
  cases step with
  | write template arguments =>
    rw [bytes, calls]
    cases textOf template arguments <;>
      simp [Except.map, WriterCall.bytes, utf8Encode_eq_toUTF8]
  | writeln template arguments =>
    cases template with
    | none => simp [bytes, calls, Except.map, WriterCall.bytes, hnewline]
    | some template =>
      rw [bytes, calls]
      cases textOf template arguments <;>
        simp [Except.map, WriterCall.bytes, hnewline, utf8Encode_eq_toUTF8]
  | raw bytes => simp [OutputStep.bytes, calls, Except.map, WriterCall.bytes]
  | fail text => rfl

theorem count_flush {step : OutputStep} {calls : List WriterCall} (h : step.calls = .ok calls) :
    calls.count .flush = step.flushes := by
  cases step with
  | write template arguments =>
    cases htext : textOf template arguments <;> simp only [OutputStep.calls, htext] at h <;> cases h
    simp [flushes]
  | writeln template arguments =>
    cases template with
    | none =>
      cases h
      simp [flushes]
    | some template =>
      cases htext : textOf template arguments <;> simp only [OutputStep.calls, htext] at h <;>
        cases h
      simp [flushes]
  | raw bytes =>
    cases h
    simp [flushes]
  | fail text => cases h

end OutputStep

namespace Sink

/-- A sink after some steps, each run whatever became of the one before. -/
def after (s : Sink) (steps : List OutputStep) : Sink :=
  steps.foldl (fun s step => (step.run s).state) s

theorem after_append (s : Sink) (steps later : List OutputStep) :
    s.after (steps ++ later) = (s.after steps).after later := List.foldl_append

theorem data_prefix_run (s : Sink) (step : OutputStep) : s.data <+: (step.run s).state.data := by
  obtain ⟨completed, failing, hstep⟩ := OutputStep.exists_stepped growing step s
  obtain ⟨part, _, hdata⟩ := hstep.grows growing
  rw [hdata, List.append_assoc]
  exact List.prefix_append _ _

theorem data_prefix_after (s : Sink) (steps : List OutputStep) :
    s.data <+: (s.after steps).data := by
  induction steps generalizing s with
  | nil => exact List.prefix_rfl
  | cons step rest ih => exact (data_prefix_run s step).trans (ih (step.run s).state)

theorem offer_flushes {bytes : List UInt8} {s s' : Sink} {answer : Answer}
    (h : s.offer bytes = (answer, s')) :
    s'.flushes = s.flushes ∧ s'.failingFlushes = s.failingFlushes := by
  unfold offer at h
  split at h
  · cases h
    exact ⟨rfl, rfl⟩
  · split at h <;> cases h <;> exact ⟨rfl, rfl⟩

theorem push_flushes (stuck : OutputError) (bytes : List UInt8) (s : Sink) :
    (s.push stuck bytes).2.2.flushes = s.flushes ∧
      (s.push stuck bytes).2.2.failingFlushes = s.failingFlushes := by
  fun_induction push stuck bytes s with
  | case1 => exact ⟨rfl, rfl⟩
  | case2 bytes s _ s' h ih => exact (offer_flushes h).imp ih.1.trans ih.2.trans
  | case3 bytes s _ error s' h => exact offer_flushes h
  | case4 bytes s _ s' h => exact offer_flushes h
  | case5 bytes s _ n s' h ih => exact (offer_flushes h).imp ih.1.trans ih.2.trans

structure Flushed (s after : Sink) (count : Nat) : Prop where
  failing : after.failingFlushes = s.failingFlushes
  flushes : after.flushes = s.flushes + count
  succeeded : ∀ n, s.flushes < n → n ≤ after.flushes → n ∉ s.failingFlushes

theorem Flushed.trans {s between after : Sink} {m n : Nat} (hfirst : Flushed s between m)
    (hlast : Flushed between after n) : Flushed s after (m + n) where
  failing := hlast.failing.trans hfirst.failing
  flushes := by rw [hlast.flushes, hfirst.flushes, Nat.add_assoc]
  succeeded k hlow hhigh := by
    by_cases hk : k ≤ between.flushes
    · exact hfirst.succeeded k hlow hk
    · rw [← hfirst.failing]
      exact hlast.succeeded k (by omega) hhigh

theorem run_flushed {call : WriterCall} {s : Sink} (h : (call.run s).exit = .done ()) :
    Flushed s (call.run s).state ([call].count .flush) := by
  cases call with
  | write bytes =>
    obtain ⟨hflushes, hfailing⟩ := push_flushes .tookNothing bytes s
    have hsame : (WriterCall.run (.write bytes) s).state.flushes = s.flushes := hflushes
    exact ⟨hfailing, by simp [hsame], fun n hlow hhigh => by omega⟩
  | flush =>
    have hnot : s.flushes + 1 ∉ s.failingFlushes := by
      intro hmem
      simp [WriterCall.run, Writer.flush, flush, hmem] at h
    refine ⟨rfl, rfl, fun n hlow hhigh => ?_⟩
    have hcount : (WriterCall.run .flush s).state.flushes = s.flushes + 1 := rfl
    obtain rfl : n = s.flushes + 1 := by omega
    exact hnot

theorem made_flushed {calls completed : List WriterCall} {s after : Sink}
    (h : WriterCall.Made calls s completed none after) :
    Flushed s after (completed.count .flush) := by
  generalize hfailure : (none : Option (WriterCall × OutputError)) = failure at h
  induction h with
  | nil s => exact ⟨rfl, rfl, fun n hlow hhigh => by omega⟩
  | @next call _ completed _ _ _ hcall _ ih =>
    rw [← List.singleton_append, List.count_append]
    exact (run_flushed hcall).trans (ih hfailure)
  | stop => contradiction

/-- What a step did to a sink, by how it ended: all that it was to append and all its flushes,
nothing at all, or a front part of what it was to append. -/
def Appended (s : Sink) (step : OutputStep) (completed : List WriterCall)
    (failing : Option WriterCall) (after : Sink) : Exit WriteError Unit → Prop
  | .done () => ∃ bytes, step.bytes = .ok bytes ∧ after.data = s.data ++ bytes ∧
      Flushed s after step.flushes
  | .failed (.format error) => step.bytes = .error (.format error) ∧ completed = [] ∧
      failing = none ∧ after = s
  | .failed (.output error) => (step.bytes = .error (.output error) ∧ after = s) ∨
      ∃ bytes part, step.bytes = .ok bytes ∧ part <+: bytes ∧ after.data = s.data ++ part
  | .panicked => False

end Sink

theorem OutputStep.Stepped.appended {step : OutputStep} {s after : Sink}
    {completed : List WriterCall} {failing : Option WriterCall} {exit : Exit WriteError Unit}
    (h : step.Stepped s completed failing exit after) :
    s.Appended step completed failing after exit := by
  have hgrown := h.grows Sink.growing
  cases h with
  | @refused error hcalls =>
    have hbytes : step.bytes = .error error := by rw [bytes_eq, hcalls]; rfl
    cases error with
    | format error => exact ⟨hbytes, rfl, rfl, rfl⟩
    | output error => exact .inl ⟨hbytes, rfl⟩
  | completed hcalls hmade =>
    obtain ⟨part, hfront, hdata⟩ := hgrown
    obtain rfl := List.prefix_nil.mp hfront
    rw [List.append_nil] at hdata
    refine ⟨_, by rw [bytes_eq, hcalls]; rfl, hdata, ?_⟩
    rw [← count_flush hcalls]
    exact Sink.made_flushed hmade
  | @cut calls completed call error after hcalls hmade =>
    -- The completed calls and the front part of the one that failed are together a front part of
    -- what all the calls of the step were to bring.
    obtain ⟨part, hfront, hdata⟩ := hgrown
    obtain ⟨rest, hrest⟩ := hmade.front
    obtain ⟨last, hlast⟩ := hfront
    have hbytes : step.bytes = .ok (calls.flatMap WriterCall.bytes) := by
      rw [bytes_eq, hcalls]
      rfl
    have hcall : call.bytes = part ++ last := hlast.symm
    refine .inr ⟨_, completed.flatMap WriterCall.bytes ++ part, hbytes, ?_, ?_⟩
    · refine ⟨last ++ rest.flatMap WriterCall.bytes, ?_⟩
      rw [← hrest, List.flatMap_append, List.flatMap_append, List.flatMap_singleton, hcall]
      simp only [List.append_assoc]
    · rw [hdata, List.append_assoc]

/-- Steps on a sink only ever append to it. Each appends all that it was to if it succeeds, with its
flushes, nothing if its text cannot be formatted, and a front part if an output error ends it. -/
theorem Sink.steps_append (s : Sink) (earlier later : List OutputStep) (step : OutputStep) :
    (s.after earlier).data <+: (s.after (earlier ++ later)).data ∧
    ∃ completed failing,
      step.Stepped (s.after earlier) completed failing (step.run (s.after earlier)).exit
        (s.after (earlier ++ [step])) ∧
      (s.after earlier).Appended step completed failing (s.after (earlier ++ [step]))
        (step.run (s.after earlier)).exit := by
  refine ⟨?_, ?_⟩
  · rw [after_append]
    exact data_prefix_after _ later
  · obtain ⟨completed, failing, hstep⟩ := OutputStep.exists_stepped growing step (s.after earlier)
    rw [after_append]
    exact ⟨completed, failing, hstep, hstep.appended⟩

end ScriptBuiltins
