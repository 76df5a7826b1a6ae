import ScriptBuiltins.Output.Buffered
import ScriptBuiltins.Output.Write
import ScriptBuiltins.Scope.Basic

/-!
Output steps run one after the other against a buffered writer inside a scope, which flushes it at
the end.
-/
namespace ScriptBuiltins

inductive OutputStep where
  | write (template : String) (arguments : List Value)
  | writeln (template : Option String) (arguments : List Value)
  | raw (bytes : List UInt8)
  | fail (text : String)

def OutputStep.run {σ : Type} [Writer σ] : OutputStep → Task σ WriteError Unit
  | .write template arguments => ScriptBuiltins.write template arguments
  | .writeln template arguments => ScriptBuiltins.writeln template arguments
  | .raw bytes => (Writer.writeAll bytes).mapError .output
  | .fail text => .fail (.output (.other text))

structure Session where
  writer : Buffered
  history : List Buffered := []

namespace Session

def onWriter {ε α : Type} (task : Task Buffered ε α) : Task Session ε α := fun s =>
  let a := task s.writer
  { exit := a.exit, state := { s with writer := a.state }, events := a.events }

def step (step : OutputStep) : Task Session WriteError Unit := fun s =>
  let a := onWriter step.run s
  { a with state := { a.state with history := a.state.history ++ [a.state.writer] } }

def runAll : List OutputStep → Task Session WriteError Unit
  | [] => .done ()
  | s :: rest => do
    step s
    runAll rest

def run (steps : List OutputStep) : Task Session (ScopeError WriteError OutputError) Unit :=
  runScoped (onWriter Buffered.flush) (runAll steps)

end Session
end ScriptBuiltins
