import ScriptBuiltins.Value.Outline
import ScriptBuiltins.Json.Reader
import ScriptBuiltins.Output.Session
import ScriptBuiltins.Scope.Program
import ScriptBuiltins.CallSite
import ScriptBuiltins.Proofs.Text.Runs
import ScriptBuiltins.Proofs.Text.Utf8
import ScriptBuiltins.Proofs.Template.Form
import ScriptBuiltins.Proofs.Template.Reading
import ScriptBuiltins.Proofs.Template.Pieces
import ScriptBuiltins.Proofs.Number.Digits
import ScriptBuiltins.Proofs.Template.Canonical
import ScriptBuiltins.Proofs.Render.Binding
import ScriptBuiltins.Proofs.Number.Nearest
import ScriptBuiltins.Proofs.Number.Literal
import ScriptBuiltins.Proofs.Number.Shortest
import ScriptBuiltins.Proofs.Json.Grammar
import ScriptBuiltins.Proofs.Json.Reading
import ScriptBuiltins.Proofs.Json.Decoding
import ScriptBuiltins.Proofs.Scope.Guard
import ScriptBuiltins.Proofs.Scope.Episode
import ScriptBuiltins.Proofs.Scope.Running
import ScriptBuiltins.Proofs.Scope.Releases
import ScriptBuiltins.Proofs.Scope.Slot
import ScriptBuiltins.Proofs.Output.Calls
import ScriptBuiltins.Proofs.Output.Growth
import ScriptBuiltins.Proofs.Output.Appending
import ScriptBuiltins.Proofs.Output.Buffering
import ScriptBuiltins.Proofs.Output.Agreement
import ScriptBuiltins.Proofs.Output.Chopping
import ScriptBuiltins.Proofs.CallSite.Checking
import ScriptBuiltins.Proofs.Number.RoundTrip
import ScriptBuiltins.Proofs.Template.Front
import ScriptBuiltins.Proofs.Template.Cut
import ScriptBuiltins.Proofs.Number.Decimal
import ScriptBuiltins.Proofs.Render.Length
import ScriptBuiltins.Proofs.Number.Radix
import ScriptBuiltins.Proofs.Number.Word
import ScriptBuiltins.Proofs.Render.Integer
import ScriptBuiltins.Proofs.Number.Expansion
import ScriptBuiltins.Proofs.Number.Whole
import ScriptBuiltins.Proofs.Render.Float
import ScriptBuiltins.Proofs.Render.Padding
import ScriptBuiltins.Proofs.Render.ReadBack
import ScriptBuiltins.Proofs.Template.Joining
import ScriptBuiltins.Proofs.Template.Incomplete
import ScriptBuiltins.Proofs.Render.Magnitude
import ScriptBuiltins.Proofs.Render.Trimming
import ScriptBuiltins.Proofs.Render.General
import ScriptBuiltins.Proofs.Template.Parts
import ScriptBuiltins.Proofs.Template.Escaping
import ScriptBuiltins.Proofs.Number.Spelling
import ScriptBuiltins.Proofs.Number.Marked
import ScriptBuiltins.Proofs.Number.Numeral
import ScriptBuiltins.Proofs.Render.Surplus
import ScriptBuiltins.Proofs.Render.Trace
import ScriptBuiltins.Proofs.Value.Equality
import ScriptBuiltins.Proofs.Value.Equivalence
import ScriptBuiltins.Proofs.Value.History
import ScriptBuiltins.Proofs.Render.EqualValues
import ScriptBuiltins.Proofs.Scope.Reports
import ScriptBuiltins.Proofs.Render.ExactInteger
import ScriptBuiltins.Proofs.Render.Zero
import ScriptBuiltins.Proofs.Text.Literal
import ScriptBuiltins.Proofs.CallSite.Expansion
import ScriptBuiltins.Proofs.CallSite.Shape
