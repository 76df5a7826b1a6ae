import ScriptBuiltins.Event
import ScriptBuiltins.Template.Directive
import ScriptBuiltins.Template.Lexeme
import ScriptBuiltins.Text.Utf8

/-!
Templates: texts read into segments. Reading stops at the leftmost directive that is no good.
-/
namespace ScriptBuiltins

inductive Segment where
  | literal (text : String)
  | percent
  | directive (directive : Directive) (offset : Nat)
  deriving DecidableEq

namespace Segment

def ofDirective (offset : Nat) (cs : List Char) : Except TemplateError Segment :=
  match Directive.parse cs with
  | .ok d => .ok (.directive d offset)
  | .error fault => .error ⟨fault, offset⟩

def ofLexeme (offset : Nat) : Lexeme → Except TemplateError Segment
  | .literal cs => .ok (.literal (String.ofList cs))
  | .escape => .ok .percent
  | .directive body => ofDirective offset ('%' :: body)
  | .broken rest => .error ⟨Lexeme.faultOf rest, offset⟩

/-- The segments of lexemes, the first of which stands at a byte offset. -/
def ofLexemes (offset : Nat) : List Lexeme → Except TemplateError (List Segment)
  | [] => .ok []
  | lexeme :: rest => do
    let segment ← ofLexeme offset lexeme
    let segments ← ofLexemes (offset + utf8Length lexeme.text) rest
    .ok (segment :: segments)

def directive? : Segment → Option Directive
  | .directive d _ => some d
  | _ => none

end Segment

structure Template where
  source : String
  segments : List Segment
  deriving DecidableEq

namespace Template

def parse (source : String) : Except TemplateError Template := do
  let segments ← Segment.ofLexemes 0 (Lexeme.ofText source.toList)
  .ok ⟨source, segments⟩

def directives (t : Template) : List Directive := t.segments.filterMap Segment.directive?

def positionalCount (t : Template) : Nat := t.directives.countP (!·.isNamed)

def hasNamed (t : Template) : Bool := t.directives.any (·.isNamed)

def parsedEvent (t : Template) : Event := .parsed t.directives.length t.hasNamed

end Template
end ScriptBuiltins
