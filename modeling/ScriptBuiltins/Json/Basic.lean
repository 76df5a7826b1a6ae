import ScriptBuiltins.Number.Numeral
import ScriptBuiltins.Value.Basic

/-!
JSON trees. Numbers are kept as they are written, since a count and a measurement are told apart by
their form; members are kept in order, repeated names included.
-/
namespace ScriptBuiltins

inductive Json where
  | null
  | bool (flag : Bool)
  | number (literal : DecimalLiteral)
  | string (text : String)
  | array (items : List Json)
  | object (members : List (String × Json))
  deriving Inhabited

namespace DecimalLiteral

def integer? (l : DecimalLiteral) : Option Int :=
  if l.fraction.isEmpty && l.exponent.isNone then
    some (if l.negative then -(decimalValue l.whole : Int) else decimalValue l.whole)
  else none

/-- The value of a literal that is a count: digits alone, less than `2^64`. -/
def count? (l : DecimalLiteral) : Option Nat :=
  if l.negative then none
  else (l.integer?.map Int.toNat).filter (· < wordLimit)

def takeWord (value : Nat) : List Char → Nat × List Char
  | [] => (value, [])
  | c :: cs =>
    let next := 10 * value + (c.toNat - '0'.toNat)
    if next < wordLimit then takeWord next cs else (value, c :: cs)

/-- The product of `coefficient` and a power of ten, both rounded to doubles first. Powers past
`10^308` are divided off in steps. The result is the nearest double whenever coefficient and power
are exact. -/
def scaled (negative : Bool) (coefficient : Nat) (scale : Int) : Number :=
  let rounded (n : Nat) : Nat := units (nearestRank (n * unitsPerOne) 1)
  let power := scale.natAbs
  if coefficient = 0 then .ofRank negative 0
  else if 0 ≤ scale then
    if 308 < power then .infinite negative
    else .ofUnits negative (rounded coefficient * rounded (Nat.pow 10 power)) unitsPerOne
  else if power ≤ 308 then
    .ofUnits negative (rounded coefficient * unitsPerOne) (rounded (Nat.pow 10 power))
  else if power ≤ 2 * 308 then
    let first := units (nearestRank (rounded coefficient * unitsPerOne) (rounded (Nat.pow 10 308)))
    .ofUnits negative (first * unitsPerOne) (rounded (Nat.pow 10 (power - 308)))
  else .ofRank negative 0

/-- The number of a JSON document. Its coefficient is a word: digits before the point that do not
fit into it count as places, and digits after the point that do not fit are left out. -/
def documentNumber (l : DecimalLiteral) : Number :=
  let (whole, places) := takeWord 0 l.whole
  let (coefficient, dropped) := takeWord whole l.fraction
  let fraction := l.fraction.length - dropped.length
  scaled l.negative coefficient (l.exponent.getD 0 + places.length - fraction)

end DecimalLiteral

namespace Json

def putSorted {α : Type} (key : String) (value : α) : List (String × α) → List (String × α)
  | [] => [(key, value)]
  | (k, v) :: rest =>
    if k = key then (key, value) :: rest
    else if key < k then (key, value) :: (k, v) :: rest
    else (k, v) :: putSorted key value rest

/-- Members sorted by name, the last of each name. -/
def sortMembers {α : Type} (members : List (String × α)) : List (String × α) :=
  members.foldl (fun sorted member => putSorted member.1 member.2 sorted) []

def member? : Json → String → Option Json
  | object members, name => Object.find? name members.reverse
  | _, _ => none

mutual

def toValue : Json → Value
  | .null => .null
  | .bool flag => .bool flag
  | .number l => .number l.documentNumber
  | .string text => .string text
  | .array items => .array (itemValues items)
  | .object members => .object ⟨sortMembers (memberValues members)⟩

def itemValues : List Json → List Value
  | [] => []
  | item :: items => toValue item :: itemValues items

def memberValues : List (String × Json) → List (String × Value)
  | [] => []
  | (key, value) :: members => (key, toValue value) :: memberValues members

end

end Json
end ScriptBuiltins
