import ScriptBuiltins.Output.Session
import ScriptBuiltins.Proofs.Task

/-! What an output step asks of a writer: some calls, made one after the other up to the first that
fails. A step that fails of its own makes none. -/
namespace ScriptBuiltins

inductive WriterCall where
  | write (bytes : List UInt8)
  | flush
  deriving DecidableEq

namespace WriterCall

def bytes : WriterCall → List UInt8
  | write bytes => bytes
  | flush => []

variable {σ : Type} [Writer σ]

def run : WriterCall → Task σ OutputError Unit
  | write bytes => Writer.writeAll bytes
  | flush => Writer.flush

def runAll : List WriterCall → Task σ OutputError Unit
  | [] => .done ()
  | call :: rest => call.run.andThen fun () => runAll rest

/-- Calls made from a state on: those that were completed, the one that failed, if one did, with its
error, and the state that was left. -/
inductive Made :
    List WriterCall → σ → List WriterCall → Option (WriterCall × OutputError) → σ → Prop
  | nil (s : σ) : Made [] s [] none s
  | next {call : WriterCall} {rest completed : List WriterCall} {s after : σ}
      {failure : Option (WriterCall × OutputError)} (hcall : (call.run s).exit = .done ())
      (hrest : Made rest (call.run s).state completed failure after) :
    Made (call :: rest) s (call :: completed) failure after
  | stop {call : WriterCall} {s : σ} {error : OutputError} (rest : List WriterCall)
      (hcall : (call.run s).exit = .failed error) :
    Made (call :: rest) s [] (some (call, error)) (call.run s).state

theorem made_runAll (hsteady : ∀ (call : WriterCall) (s : σ), (call.run s).exit ≠ .panicked)
    (calls : List WriterCall) (s : σ) : ∃ completed failure,
      Made calls s completed failure (runAll calls s).state ∧
      (runAll calls s).exit = match failure with
        | none => .done ()
        | some (_, error) => .failed error := by
  induction calls generalizing s with
  | nil => exact ⟨[], none, .nil s, rfl⟩
  | cons call rest ih =>
    rw [runAll]
    cases hcall : (call.run s).exit with
    | done value =>
      obtain ⟨completed, failure, hmade, hexit⟩ := ih (call.run s).state
      rw [Task.andThen_of_done hcall]
      exact ⟨call :: completed, failure, .next hcall hmade, hexit⟩
    | failed error =>
      rw [Task.andThen_of_failed hcall]
      exact ⟨[], some (call, error), .stop rest hcall, rfl⟩
    | panicked => exact absurd hcall (hsteady call s)

theorem runAll_append (calls others : List WriterCall) :
    (runAll (calls ++ others) : Task σ OutputError Unit)
      = (runAll calls).andThen fun () => runAll others := by
  induction calls with
  | nil => rfl
  | cons call rest ih => rw [List.cons_append, runAll, runAll, ih, Task.andThen_assoc]

theorem Made.completed_eq {calls completed : List WriterCall} {s after : σ}
    (h : Made calls s completed none after) : completed = calls := by
  generalize hfailure : (none : Option (WriterCall × OutputError)) = failure at h
  induction h with
  | nil => rfl
  | next _ _ ih => rw [ih hfailure]
  | stop => contradiction

end WriterCall

/-- A text with arguments is formatted; without any it is taken as it is. -/
def textOf (template : String) : List Value → Except FormatError (List Char)
  | [] => .ok template.toList
  | arguments => (format template arguments).result

namespace OutputStep

def newline : List UInt8 := utf8Encode ['\n']

/-- What a step asks of its writer, or how it fails without asking anything. -/
def calls : OutputStep → Except WriteError (List WriterCall)
  | write template arguments =>
    match textOf template arguments with
    | .ok text => .ok [.write (utf8Encode text), .flush]
    | .error e => .error (.format e)
  | writeln (some template) arguments =>
    match textOf template arguments with
    | .ok text => .ok [.write (utf8Encode text), .flush, .write newline, .flush]
    | .error e => .error (.format e)
  | writeln none _ => .ok [.write newline, .flush]
  | raw bytes => .ok [.write bytes]
  | fail text => .error (.output (.other text))

def reported : OutputStep → List Event
  | write template arguments => (payload template arguments).events
  | writeln (some template) arguments => (payload template arguments).events
  | _ => []

end OutputStep

theorem result_payload (template : String) (arguments : List Value) :
    (payload template arguments).result = textOf template arguments := by
  cases arguments <;> rfl

theorem Rendering.toTask_andThen {σ β : Type} (r : Rendering)
    (next : List Char → Task σ WriteError β) (s : σ) : r.toTask.andThen next s =
      match r.result with
      | .ok text => { next text s with events := r.events ++ (next text s).events }
      | .error e => { exit := .failed (.format e), state := s, events := r.events } := by
  obtain ⟨events, result⟩ := r
  have htask : (toTask ⟨events, result⟩ : Task σ WriteError (List Char))
      = (Task.report events).andThen fun () => (Task.ofExcept result).mapError .format := rfl
  cases result with
  | ok text =>
    simp [htask, Task.andThen, Task.report, Task.ofExcept, Task.mapError, Task.done]
  | error e => simp [htask, Task.andThen, Task.report, Task.ofExcept, Task.mapError, Task.fail]

namespace OutputStep

variable {σ : Type} [Writer σ]

theorem send_eq (text : List Char) : (send text : Task σ WriteError Unit)
    = (WriterCall.runAll [.write (utf8Encode text), .flush]).mapError .output := by
  rw [WriterCall.runAll, WriterCall.runAll, WriterCall.runAll, Task.andThen_done,
    Task.mapError_andThen]
  rfl

theorem write_eq (template : String) (arguments : List Value) :
    (ScriptBuiltins.write template arguments : Task σ WriteError Unit)
      = (payload template arguments).toTask.andThen send := rfl

theorem run_eq (step : OutputStep) (s : σ) : step.run s =
    match step.calls with
    | .ok calls =>
      let o := (WriterCall.runAll calls).mapError .output s
      { o with events := step.reported ++ o.events }
    | .error e => { exit := .failed e, state := s, events := step.reported } := by
  cases step with
  | write template arguments =>
    rw [run, write_eq, Rendering.toTask_andThen, result_payload, calls]
    cases textOf template arguments with
    | ok text => simp only [send_eq]; rfl
    | error e => rfl
  | writeln template arguments =>
    cases template with
    | none =>
      have hrun : run (writeln none arguments) s = (send ['\n'] : Task σ WriteError Unit) s := rfl
      rw [hrun, send_eq]
      rfl
    | some template =>
      have hrun : run (writeln (some template) arguments) s
          = (ScriptBuiltins.write template arguments).andThen (fun () => send ['\n']) s := rfl
      rw [hrun, write_eq, Task.andThen_assoc, Rendering.toTask_andThen, result_payload, calls]
      cases textOf template arguments with
      | ok text =>
        -- The text and the newline are two runs of calls, and the newline comes only after both of
        -- the first are completed.
        have hcalls : (send text : Task σ WriteError Unit).andThen (fun () => send ['\n'])
            = (WriterCall.runAll ([.write (utf8Encode text), .flush] ++ [.write newline, .flush])
                ).mapError .output := by
          rw [WriterCall.runAll_append, Task.mapError_andThen, send_eq, send_eq]
          rfl
        simp only [hcalls]
        rfl
      | error e => rfl
  | raw bytes =>
    simp only [calls, WriterCall.runAll, Task.andThen_done]
    rfl
  | fail text => rfl

/-- A step on a writer: it fails of its own before any call, or all its calls are completed, or one
of them fails and ends it. -/
inductive Stepped (step : OutputStep) (s : σ) :
    List WriterCall → Option WriterCall → Exit WriteError Unit → σ → Prop
  | refused {error : WriteError} (hcalls : step.calls = .error error) :
    Stepped step s [] none (.failed error) s
  | completed {calls : List WriterCall} {after : σ} (hcalls : step.calls = .ok calls)
      (hmade : WriterCall.Made calls s calls none after) :
    Stepped step s calls none (.done ()) after
  | cut {calls completed : List WriterCall} {call : WriterCall} {error : OutputError} {after : σ}
      (hcalls : step.calls = .ok calls)
      (hmade : WriterCall.Made calls s completed (some (call, error)) after) :
    Stepped step s completed (some call) (.failed (.output error)) after

theorem stepped_run (hsteady : ∀ (call : WriterCall) (s : σ), (call.run s).exit ≠ .panicked)
    (step : OutputStep) (s : σ) : ∃ completed failing,
      Stepped step s completed failing (step.run s).exit (step.run s).state := by
  rw [run_eq]
  cases hcalls : step.calls with
  | error e => exact ⟨[], none, .refused hcalls⟩
  | ok calls =>
    obtain ⟨completed, failure, hmade, hexit⟩ := WriterCall.made_runAll hsteady calls s
    cases failure with
    | none =>
      rw [hmade.completed_eq] at hmade
      refine ⟨calls, none, ?_⟩
      simp only [Task.mapError, hexit]
      exact .completed hcalls hmade
    | some failure =>
      refine ⟨completed, some failure.1, ?_⟩
      simp only [Task.mapError, hexit]
      exact .cut hcalls hmade

end OutputStep
end ScriptBuiltins
