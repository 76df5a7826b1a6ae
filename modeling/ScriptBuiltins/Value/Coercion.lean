import ScriptBuiltins.Number.Numeral
import ScriptBuiltins.Value.Json

/-!
The number side and the text side of a value. Numeric use asks for the number first and reads the
text only without one; textual use asks for the text first.
-/
namespace ScriptBuiltins.Value

def asNumber? : Value → Option Number
  | .null => some .zero
  | .bool flag => some (.ofNat flag.toNat)
  | .number x => some x
  | .custom c => c.number
  | .string _ | .bytes _ | .array _ | .object _ => none

def asText? : Value → Option (List Char)
  | .number _ => none
  | .string text => some text.toList
  | .bytes b => some b.decode
  | .custom c => c.text.map String.toList
  | v => some v.toJson

/-- The number of a value, that of its text, or a NaN. -/
def toNumber (v : Value) : Number :=
  match v.asNumber? with
  | some x => x
  | none => ((v.asText?).map Number.ofText).getD .nan

/-- The text of a value, that of its number, or nothing. -/
def toText (v : Value) : List Char :=
  match v.asText? with
  | some t => t
  | none => ((v.asNumber?).map Number.toText).getD []

end ScriptBuiltins.Value
