import ScriptBuiltins.Render.Arguments
import ScriptBuiltins.Render.Conversion
import ScriptBuiltins.Template.Basic

/-!
Rendering templates. A rendering is the text or the error of the first directive that fails,
together with what was reported on the way.
-/
namespace ScriptBuiltins

structure Rendering where
  events : List Event
  result : Except FormatError (List Char)

namespace Rendering

def failed (error : FormatError) : Rendering := ⟨[], .error error⟩

def prepend (text : List Char) (r : Rendering) : Rendering :=
  { r with result := r.result.map (text ++ ·) }

def report (event : Event) (r : Rendering) : Rendering := { r with events := event :: r.events }

end Rendering

namespace Segment

/-- Renders segments in order. Limits are checked before a value is bound. -/
def renderAll (config : Config) : Arguments → List Segment → Rendering
  | arguments, [] =>
    ⟨if arguments.queue.isEmpty then [] else [.leftOver arguments.queue.length], .ok []⟩
  | arguments, .literal text :: rest => (renderAll config arguments rest).prepend text.toList
  | arguments, .percent :: rest => (renderAll config arguments rest).prepend ['%']
  | arguments, .directive d offset :: rest =>
    match config.check d with
    | .error fault => .failed (.template ⟨fault, offset⟩)
    | .ok () =>
      match arguments.bind d.name with
      | .error error => .failed (.argument error)
      | .ok (v, event, arguments) =>
        match d.render v config with
        | none => (Rendering.failed .tooManyDigits).report event
        | some text => ((renderAll config arguments rest).prepend text).report event

end Segment

def Template.render (t : Template) (arguments : List Value) (config : Config) : Rendering :=
  Segment.renderAll config (.ofValues arguments t.hasNamed) t.segments

def formatWith (template : String) (arguments : List Value) (config : Config) : Rendering :=
  match Template.parse template with
  | .error error => .failed (.template error)
  | .ok t => (t.render arguments config).report t.parsedEvent

def format (template : String) (arguments : List Value) : Rendering :=
  formatWith template arguments {}

end ScriptBuiltins
