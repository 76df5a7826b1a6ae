import ScriptBuiltins.Bytes
import ScriptBuiltins.Number.Basic
import ScriptBuiltins.Object

/-!
Values of the host, and when two of them are equal.
-/
namespace ScriptBuiltins

/-- A value of the host's own, known by its identity and seen through its two representations. -/
structure Custom where
  identity : Nat
  number : Option Number
  text : Option String
  deriving DecidableEq

inductive Value where
  | null
  | bool (flag : Bool)
  | number (number : Number)
  | string (text : String)
  | bytes (bytes : Bytes)
  | array (items : List Value)
  | object (object : Object Value)
  | custom (custom : Custom)
  deriving Inhabited

namespace Value

def isNull : Value → Bool
  | .null => true
  | _ => false

def asObject? : Value → Option (Object Value)
  | .object o => some o
  | _ => none

def isObject (v : Value) : Bool := v.asObject?.isSome

mutual

/-- Equality of values. Numbers compare by value, objects entry by entry in order, and a custom
value is equal to itself only. -/
def equals : Value → Value → Bool
  | .null, .null => true
  | .bool a, .bool b => a == b
  | .number a, .number b => a.equals b
  | .string a, .string b => a == b
  | .bytes a, .bytes b => a == b
  | .array as, .array bs => equalItems as bs
  | .object ⟨as⟩, .object ⟨bs⟩ => equalEntries as bs
  | .custom a, .custom b => a == b
  | _, _ => false

def equalItems : List Value → List Value → Bool
  | [], [] => true
  | a :: as, b :: bs => equals a b && equalItems as bs
  | _, _ => false

def equalEntries : List (String × Value) → List (String × Value) → Bool
  | [], [] => true
  | (j, a) :: as, (k, b) :: bs => j == k && equals a b && equalEntries as bs
  | _, _ => false

end

end Value
end ScriptBuiltins
