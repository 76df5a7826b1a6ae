import ScriptBuiltins.Number.Text
import ScriptBuiltins.Text.Quoted
import ScriptBuiltins.Value.Basic

namespace ScriptBuiltins

def commaSeparated : List (List Char) → List Char
  | [] => []
  | [text] => text
  | text :: rest => text ++ ',' :: commaSeparated rest

namespace Custom

/-- A custom value is its number if it has one, else its text. -/
def toJson (c : Custom) : List Char :=
  match c.number, c.text with
  | some number, _ => number.toJson
  | none, some text => jsonQuoted text.toList
  | none, none => "null".toList

end Custom

namespace Value

mutual

def toJson : Value → List Char
  | .null => "null".toList
  | .bool flag => (if flag then "true" else "false").toList
  | .number x => x.toJson
  | .string text => jsonQuoted text.toList
  | .bytes b => jsonQuoted b.decode
  | .array items => '[' :: commaSeparated (itemsJson items) ++ [']']
  | .object ⟨entries⟩ => '\x7b' :: commaSeparated (entriesJson entries) ++ ['\x7d']
  | .custom c => c.toJson

def itemsJson : List Value → List (List Char)
  | [] => []
  | item :: items => toJson item :: itemsJson items

def entriesJson : List (String × Value) → List (List Char)
  | [] => []
  | (key, value) :: entries =>
    (jsonQuoted key.toList ++ ':' :: toJson value) :: entriesJson entries

end

theorem itemsJson_eq_map (items : List Value) : itemsJson items = items.map toJson := by
  induction items with
  | nil => rfl
  | cons item items ih => rw [itemsJson, ih, List.map_cons]

theorem entriesJson_eq_map (entries : List (String × Value)) :
    entriesJson entries
      = entries.map fun entry => jsonQuoted entry.1.toList ++ ':' :: toJson entry.2 := by
  induction entries with
  | nil => rfl
  | cons entry entries ih => rw [entriesJson, ih, List.map_cons]

end Value
end ScriptBuiltins
