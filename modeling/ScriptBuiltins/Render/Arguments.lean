import ScriptBuiltins.Event
import ScriptBuiltins.Template.Fault
import ScriptBuiltins.Value.Basic

namespace ScriptBuiltins

structure Arguments where
  queue : List Value
  taken : Nat := 0
  lookup : Option (Object Value) := none

namespace Arguments

def splitObject : List Value → Option (Object Value) × List Value
  | [] => (none, [])
  | .object o :: rest => (some o, rest)
  | v :: rest =>
    let (found, others) := splitObject rest
    (found, v :: others)

def ofValues (values : List Value) (named : Bool) : Arguments :=
  if named then
    let (lookup, queue) := splitObject values
    { queue, lookup }
  else { queue := values }

/-- The value for a directive, the event of binding it, and the arguments left. -/
def bind (arguments : Arguments) : Option String → Except ArgumentError (Value × Event × Arguments)
  | none =>
    match arguments.queue with
    | [] => .error (.missingPositional arguments.taken)
    | v :: queue =>
      let left := { arguments with queue, taken := arguments.taken + 1 }
      .ok (v, .boundPositional arguments.taken, left)
  | some name =>
    match arguments.lookup with
    | none => .error (.missingObject name)
    | some o =>
      match o.get? name with
      | none => .error (.missingProperty name)
      | some v => .ok (v, .boundNamed name, arguments)

end Arguments
end ScriptBuiltins
