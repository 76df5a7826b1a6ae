import ScriptBuiltins.Proofs.Output.Growth
import ScriptBuiltins.Proofs.Scope.Guard

/-! Output steps on a buffered writer in a scope. No byte is lost, brought twice or moved before an
earlier one, and what a failed release has not sent is still pending. -/
namespace ScriptBuiltins

structure StepRecord where
  completed : List WriterCall
  failing : Option WriterCall
  after : Buffered

/-- Steps up to the first that fails: what each did, the end they came to, and what they left. -/
inductive Trail :
    List OutputStep → Buffered → List StepRecord → Exit WriteError Unit → Buffered → Prop
  | nil (b : Buffered) : Trail [] b [] (.done ()) b
  | next {step : OutputStep} {rest : List OutputStep} {start left : Buffered} {r : StepRecord}
      {records : List StepRecord} {ending : Exit WriteError Unit}
      (hstep : step.Stepped start r.completed r.failing (.done ()) r.after)
      (hrest : Trail rest r.after records ending left) :
    Trail (step :: rest) start (r :: records) ending left
  | stop {step : OutputStep} {start : Buffered} {r : StepRecord} {error : WriteError}
      (rest : List OutputStep)
      (hstep : step.Stepped start r.completed r.failing (.failed error) r.after) :
    Trail (step :: rest) start [r] (.failed error) r.after

def lastFailing (records : List StepRecord) : Option WriterCall :=
  records.getLast?.bind StepRecord.failing

/-- A writer after some steps has all that their completed calls brought, in order, and a front part
of what the failed one was to bring. -/
structure Accounted (start : Buffered) (records : List StepRecord) (b : Buffered) : Prop where
  content : ∃ part, part <+: (lastFailing records).elim [] WriterCall.bytes ∧
    b.sink.data ++ b.pending = start.sink.data ++ start.pending
      ++ (records.flatMap StepRecord.completed).flatMap WriterCall.bytes ++ part
  fits : b.Fits start.capacity

theorem lastFailing_cons {r : StepRecord} (h : r.failing = none) (records : List StepRecord) :
    lastFailing (r :: records) = lastFailing records := by
  cases records with
  | nil => exact h
  | cons => simp [lastFailing, List.getLast?_cons_cons]

namespace OutputStep.Stepped

theorem failing_eq_none {σ : Type} [Writer σ] {step : OutputStep} {s after : σ}
    {completed : List WriterCall} {failing : Option WriterCall}
    (h : step.Stepped s completed failing (.done ()) after) : failing = none := by
  cases h
  rfl

theorem accounted {step : OutputStep} {start : Buffered} {r : StepRecord}
    {exit : Exit WriteError Unit} (h : step.Stepped start r.completed r.failing exit r.after)
    (hfits : start.Fits start.capacity) : Accounted start [r] r.after := by
  obtain ⟨part, hfront, hcontent⟩ := h.grows Buffered.growing
  refine ⟨⟨part, hfront, ?_⟩, h.keeps Buffered.run_fits hfits⟩
  rw [List.flatMap_singleton]
  exact hcontent

end OutputStep.Stepped

theorem Accounted.cons {start b : Buffered} {r : StepRecord} {records : List StepRecord}
    (hfirst : Accounted start [r] r.after) (hnone : r.failing = none)
    (h : Accounted r.after records b) : Accounted start (r :: records) b := by
  obtain ⟨⟨early, hnil, hcontent⟩, hfits⟩ := hfirst
  obtain ⟨⟨part, hfront, hafter⟩, hleft⟩ := h
  -- Only the last of some steps can have failed, so the first of them has no part of a write.
  obtain rfl : early = [] := by
    rw [lastFailing_cons hnone] at hnil
    exact List.prefix_nil.mp hnil
  refine ⟨⟨part, by rwa [lastFailing_cons hnone], ?_⟩, hfits.capacity_eq ▸ hleft⟩
  rw [hafter, hcontent]
  simp only [List.flatMap_cons, List.flatMap_append, List.flatMap_nil, List.append_nil,
    List.append_assoc]

namespace Trail

variable {steps : List OutputStep} {start left : Buffered} {records : List StepRecord}
  {ending : Exit WriteError Unit}

theorem accounted_step (h : Trail steps start records ending left)
    (hfits : start.Fits start.capacity) (before : List StepRecord) (r : StepRecord)
    (hbefore : before ++ [r] <+: records) : Accounted start (before ++ [r]) r.after := by
  induction h generalizing before with
  | nil => simp at hbefore
  | @next step rest start left first records ending hstep _ ih =>
    have hfirst := hstep.accounted hfits
    cases before with
    | nil =>
      obtain rfl : r = first := (List.cons_prefix_cons.mp hbefore).1
      exact hfirst
    | cons earliest before =>
      obtain ⟨rfl, hlater⟩ := List.cons_prefix_cons.mp hbefore
      have hsame := hfirst.fits.capacity_eq
      exact hfirst.cons hstep.failing_eq_none (ih (hsame ▸ hfirst.fits) before hlater)
  | @stop step start first error rest hstep =>
    cases before with
    | nil =>
      obtain rfl : r = first := (List.cons_prefix_cons.mp hbefore).1
      exact hstep.accounted hfits
    | cons earliest before => simp at hbefore

theorem accounted (h : Trail steps start records ending left)
    (hfits : start.Fits start.capacity) : Accounted start records left := by
  induction h with
  | nil b => exact ⟨⟨[], List.nil_prefix, by simp⟩, hfits⟩
  | next hstep _ ih =>
    have hfirst := hstep.accounted hfits
    have hsame := hfirst.fits.capacity_eq
    exact hfirst.cons hstep.failing_eq_none (ih (hsame ▸ hfirst.fits))
  | stop rest hstep => exact hstep.accounted hfits

theorem ending_ne_panicked (h : Trail steps start records ending left) : ending ≠ .panicked := by
  induction h with
  | nil => simp
  | next _ _ ih => exact ih
  | stop => simp

end Trail

namespace Buffered

/-- What a flush did to a buffered writer. Bytes are moved from the front of what was pending to the
end of the sink: all of them, unless they were refused. -/
structure Released (b after : Buffered) (exit : Exit OutputError Unit) : Prop where
  moved : ∃ sent, b.pending = sent ++ after.pending ∧ after.sink.data = b.sink.data ++ sent
  done : exit = .done () → after.pending = []
  failed : ∀ error, exit = .failed error → after.pending = [] → error = .flushFailed
  steady : exit ≠ .panicked

theorem flush_released (b : Buffered) : Released b (flush b).state (flush b).exit := by
  rw [flush_eq]
  obtain ⟨hnil, hrun⟩ | ⟨hpending, error, hrun⟩ := drain_andThen (fun () => onSink Sink.flush) b
  · rw [hrun]
    refine ⟨drain_moves b, fun _ => hnil, fun error herror _ => ?_,
      (Sink.growing .flush (drain b).state.sink).1⟩
    simp only [onSink, Sink.flush] at herror
    split at herror <;> cases herror
    rfl
  · rw [hrun]
    exact ⟨drain_moves b, by simp, fun _ _ hnil => absurd hnil hpending, by simp⟩

end Buffered

theorem Accounted.released {start b after : Buffered} {records : List StepRecord}
    {exit : Exit OutputError Unit} (h : Accounted start records b)
    (hreleased : b.Released after exit) (hfits : after.Fits start.capacity) :
    Accounted start records after := by
  obtain ⟨⟨part, hfront, hcontent⟩, _⟩ := h
  obtain ⟨sent, hpending, hdata⟩ := hreleased.moved
  refine ⟨⟨part, hfront, ?_⟩, hfits⟩
  rw [hdata, List.append_assoc, ← hpending, hcontent]

namespace Session

theorem step_eq (step : OutputStep) (s : Session) : Session.step step s =
    { exit := (step.run s.writer).exit
      state := { writer := (step.run s.writer).state
                 history := s.history ++ [(step.run s.writer).state] }
      events := (step.run s.writer).events } := rfl

theorem exists_trail (steps : List OutputStep) (s : Session) : ∃ records,
    Trail steps s.writer records (runAll steps s).exit (runAll steps s).state.writer ∧
      (runAll steps s).state.history = s.history ++ records.map StepRecord.after := by
  induction steps generalizing s with
  | nil => exact ⟨[], .nil _, (List.append_nil _).symm⟩
  | cons step rest ih =>
    have hrun : runAll (step :: rest) = (Session.step step).andThen fun () => runAll rest := rfl
    obtain ⟨completed, failing, hstep⟩ :=
      OutputStep.exists_stepped Buffered.growing step s.writer
    have hsame : (Session.step step s).exit = (step.run s.writer).exit := rfl
    rw [hrun]
    cases hexit : (step.run s.writer).exit with
    | done value =>
      rw [hexit] at hstep
      obtain ⟨records, htrail, hhistory⟩ := ih (Session.step step s).state
      rw [Task.andThen_of_done (hsame.trans hexit)]
      refine ⟨⟨completed, failing, (step.run s.writer).state⟩ :: records, .next hstep htrail, ?_⟩
      rw [hhistory, step_eq, List.map_cons, List.append_assoc]
      rfl
    | failed error =>
      rw [hexit] at hstep
      rw [Task.andThen_of_failed (hsame.trans hexit)]
      exact ⟨[⟨completed, failing, (step.run s.writer).state⟩], .stop rest hstep, rfl⟩
    | panicked => rw [hexit] at hstep; cases hstep

/-- What a session leaves of the writer that its steps left, by its end. The release has moved bytes
from the front of what was pending to the end of the sink. Unless it failed, nothing is pending. -/
def Closed (ending : Exit WriteError Unit) (left after : Buffered) :
    Exit (ScopeError WriteError OutputError) Unit → Prop
  | .done () => ending = .done () ∧ after.pending = []
  | .failed (.callback error) => ending = .failed error ∧ after.pending = []
  | .failed (.release error masked) => ending = .ofError? masked ∧
      (∃ sent, left.pending = sent ++ after.pending ∧ after.sink.data = left.sink.data ++ sent) ∧
      (after.pending = [] → error = .flushFailed)
  | .failed (.entry _) => False
  | .panicked => False

theorem closed_closedBy {ending : Exit WriteError Unit} {left after : Buffered}
    {exit : Exit OutputError Unit} (hsteady : ending ≠ .panicked)
    (h : left.Released after exit) : Closed ending left after (ending.closedBy exit) := by
  cases exit with
  | done value =>
    cases ending with
    | done value => exact ⟨rfl, h.done rfl⟩
    | failed error => exact ⟨rfl, h.done rfl⟩
    | panicked => contradiction
  | failed error =>
    cases ending with
    | done value => exact ⟨rfl, h.moved, h.failed error rfl⟩
    | failed masked => exact ⟨rfl, h.moved, h.failed error rfl⟩
    | panicked => contradiction
  | panicked => exact absurd rfl h.steady

/-- Through all the steps and the release, the writer has what the completed writes brought, in
order, and then a front part of the write that failed. -/
theorem run_accounted (steps : List OutputStep) (sink : Sink) (capacity : Nat) :
    ∃ records ending left,
      Trail steps { sink, capacity } records ending left ∧
      (run steps { writer := { sink, capacity } }).state.history
        = records.map StepRecord.after ∧
      (∀ before r, before ++ [r] <+: records →
        Accounted { sink, capacity } (before ++ [r]) r.after) ∧
      Accounted { sink, capacity } records
        (run steps { writer := { sink, capacity } }).state.writer ∧
      Closed ending left (run steps { writer := { sink, capacity } }).state.writer
        (run steps { writer := { sink, capacity } }).exit := by
  obtain ⟨records, htrail, hhistory⟩ := exists_trail steps { writer := { sink, capacity } }
  let body := runAll steps { writer := { sink, capacity } }
  have hrun : run steps { writer := { sink, capacity } } =
      { exit := body.exit.closedBy (Buffered.flush body.state.writer).exit
        state := { body.state with writer := (Buffered.flush body.state.writer).state }
        events := body.events ++ (Buffered.flush body.state.writer).events
          ++ body.exit.reportedBy (Buffered.flush body.state.writer).exit } := by
    unfold run runScoped
    rw [runScopedWith_eq]
    rfl
  have hfits : Buffered.Fits capacity { sink, capacity } := ⟨rfl, Nat.zero_le _⟩
  have hleft := htrail.accounted hfits
  have hreleased := Buffered.flush_released body.state.writer
  rw [hrun]
  exact ⟨records, body.exit, body.state.writer, htrail, hhistory, htrail.accounted_step hfits,
    hleft.released hreleased (Buffered.run_fits .flush _ hleft.fits),
    closed_closedBy htrail.ending_ne_panicked hreleased⟩

end Session
end ScriptBuiltins
