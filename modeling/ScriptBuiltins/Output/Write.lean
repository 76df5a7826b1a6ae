import ScriptBuiltins.Output.Sink
import ScriptBuiltins.Render.Rendering

namespace ScriptBuiltins

inductive WriteError where
  | format (error : FormatError)
  | output (error : OutputError)
  deriving DecidableEq

def WriteError.message : WriteError → String
  | .format e => e.message
  | .output e => e.message

variable {σ : Type}

/-- The rendering of a template, or the template itself if there is nothing to put into it. -/
def payload (template : String) (arguments : List Value) : Rendering :=
  if arguments.isEmpty then ⟨[], .ok template.toList⟩ else format template arguments

def Rendering.toTask (r : Rendering) : Task σ WriteError (List Char) := do
  .report r.events
  (Task.ofExcept r.result).mapError .format

def send [Writer σ] (text : List Char) : Task σ WriteError Unit := do
  (Writer.writeAll (utf8Encode text)).mapError .output
  Writer.flush.mapError .output

def write [Writer σ] (template : String) (arguments : List Value) : Task σ WriteError Unit := do
  let text ← (payload template arguments).toTask
  send text

def writeln [Writer σ] (template : Option String) (arguments : List Value) :
    Task σ WriteError Unit := do
  match template with
  | some template => write template arguments
  | none => .done ()
  send ['\n']

end ScriptBuiltins
