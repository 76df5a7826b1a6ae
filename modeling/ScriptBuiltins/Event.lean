namespace ScriptBuiltins

inductive Event where
  | parsed (directives : Nat) (named : Bool)
  | boundPositional (index : Nat)
  | boundNamed (name : String)
  | leftOver (unused : Nat)
  /-- A release failed after its callback had, and its error was reported instead. -/
  | superseded
  /-- A release failed while a panic passed through its scope. -/
  | failedUnwinding
  deriving DecidableEq

namespace Event

inductive Level where
  | trace
  | debug
  | warn
  | error
  deriving DecidableEq

def level : Event → Level
  | .parsed .. | .boundPositional _ | .boundNamed _ => .trace
  | .leftOver _ => .debug
  | .superseded => .warn
  | .failedUnwinding => .error

def message : Event → String
  | .parsed .. => "parsed format template"
  | .boundPositional _ => "bound positional argument"
  | .boundNamed _ => "bound named argument"
  | .leftOver _ => "format arguments left unconsumed"
  | .superseded => "scoped resource release failed; callback error superseded"
  | .failedUnwinding => "scoped resource release failed during panic unwind"

end Event
end ScriptBuiltins
