import ScriptBuiltins.Template.Basic
import ScriptBuiltins.Text.Quoted

/-!
Call sites of the formatter in source text: a template literal and its arguments, checked against
each other before the program runs.
-/
namespace ScriptBuiltins

inductive Token where
  | string (text : String)
  | integer (value : Int)
  | identifier (name : String)
  | comma
  deriving DecidableEq

def Token.text : Token → List Char
  | .string text => literalQuoted text.toList
  | .integer n => signed (n < 0) (digits n.natAbs)
  | .identifier name => name.toList
  | .comma => [',']

inductive CallError where
  | nothing
  | noTemplate
  | noCommaAfterTemplate
  | noExpression
  | noComma
  | template (error : TemplateError)
  | tooFew (directives arguments : Nat)
  deriving DecidableEq

def CallError.message : CallError → String
  | .nothing => "unexpected end of input, expected string literal"
  | .noTemplate => "expected string literal"
  | .noCommaAfterTemplate => "expected `,` after format template"
  | .noExpression => "expected an expression"
  | .noComma => "expected `,`"
  | .template error => error.message
  | .tooFew directives arguments =>
    s!"too few parameters for format: template has {directives} directives, "
      ++ s!"{arguments} arguments given"

structure CallSite where
  template : String
  arguments : List Token
  deriving DecidableEq

namespace CallSite

def parseArguments : List Token → Except CallError (List Token)
  | [] => .ok []
  | .comma :: _ => .error .noExpression
  | [argument] => .ok [argument]
  | argument :: .comma :: rest => (parseArguments rest).map (argument :: ·)
  | _ => .error .noComma

def parse : List Token → Except CallError CallSite
  | [] => .error .nothing
  | [.string template] => .ok ⟨template, []⟩
  | .string template :: .comma :: rest =>
    (parseArguments rest).map fun arguments => ⟨template, arguments⟩
  | .string _ :: _ => .error .noCommaAfterTemplate
  | _ => .error .noTemplate

/-- Whether the template takes more arguments than there are. One with named directives may take its
values from an object. -/
def lacksArguments (site : CallSite) (t : Template) : Bool :=
  !t.hasNamed && site.arguments.length < t.positionalCount

def joined : List (List Char) → List Char
  | [] => []
  | [text] => text
  | text :: rest => text ++ " , ".toList ++ joined rest

def expansion (site : CallSite) : List Char :=
  ":: hostkit :: format (".toList ++ literalQuoted site.template.toList ++ " , & [".toList
    ++ joined (site.arguments.map fun argument =>
      ":: hostkit :: Value :: from (".toList ++ argument.text ++ [')'])
    ++ "])".toList

end CallSite

structure CallCheck where
  events : List Event
  result : Except CallError CallSite

/-- Reads a call site from its tokens. Its shape is checked first, then its template, and then the
number of its arguments. -/
def CallSite.check (tokens : List Token) : CallCheck :=
  match parse tokens with
  | .error error => ⟨[], .error error⟩
  | .ok site =>
    match Template.parse site.template with
    | .error error => ⟨[], .error (.template error)⟩
    | .ok t =>
      ⟨[t.parsedEvent],
        if site.lacksArguments t then .error (.tooFew t.positionalCount site.arguments.length)
        else .ok site⟩

end ScriptBuiltins
