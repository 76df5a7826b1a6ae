import ScriptBuiltins.Number.Text
import ScriptBuiltins.Text.Quoted
import ScriptBuiltins.Value.Basic

/-!
Outlines of values for debugging, on one line or with one item a line.
-/
namespace ScriptBuiltins

/-- A text, or labelled items between brackets. On one line the brackets of a record stand apart
from what they hold. -/
inductive Outline where
  | atom (text : List Char)
  | group (opening closing : List Char) (apart : Bool) (items : List (List Char × Outline))

namespace Outline

def unlabelled (items : List Outline) : List (List Char × Outline) :=
  items.map fun item => ([], item)

def call (name : String) (arguments : List Outline) : Outline :=
  .group (name.toList ++ ['(']) [')'] false (unlabelled arguments)

def list (items : List Outline) : Outline := .group ['['] [']'] false (unlabelled items)

mutual

def compact : Outline → List Char
  | .atom text => text
  | .group opening closing apart items =>
    let pad := if apart then [' '] else []
    opening ++ pad ++ compactItems items ++ pad ++ closing

def compactItems : List (List Char × Outline) → List Char
  | [] => []
  | [(label, item)] => label ++ compact item
  | (label, item) :: items => label ++ compact item ++ ',' :: ' ' :: compactItems items

end

mutual

def pretty (indent : Nat) : Outline → List Char
  | .atom text => text
  | .group opening closing _ [] => opening ++ closing
  | .group opening closing _ (item :: items) =>
    opening ++ '\n' :: prettyItems (indent + 4) (item :: items)
      ++ List.replicate indent ' ' ++ closing

def prettyItems (indent : Nat) : List (List Char × Outline) → List Char
  | [] => []
  | (label, item) :: items =>
    List.replicate indent ' ' ++ label ++ pretty indent item
      ++ ',' :: '\n' :: prettyItems indent items

end

end Outline

namespace Value

mutual

def outline : Value → Outline
  | .null => .atom "Null".toList
  | .bool flag => .call "Bool" [.atom (if flag then "true" else "false").toList]
  | .number x => .call "Number" [.atom x.toOutline]
  | .string text => .call "String" [.atom (outlineQuoted text.toList)]
  | .bytes b =>
    .call "Bytes" [.call "Bytes" [.list (b.toList.map fun byte => .atom (digits byte.toNat))]]
  | .array items => .call "Array" [.list (itemOutlines items)]
  | .object ⟨entries⟩ =>
    .call "Object" [.group "Object \x7b".toList ['\x7d'] true
      [("entries: ".toList, .list (entryOutlines entries))]]
  | .custom _ => .atom "Custom(..)".toList

def itemOutlines : List Value → List Outline
  | [] => []
  | item :: items => outline item :: itemOutlines items

def entryOutlines : List (String × Value) → List Outline
  | [] => []
  | (key, value) :: entries =>
    .call "" [.atom (outlineQuoted key.toList), outline value] :: entryOutlines entries

end

def describe (v : Value) (onOneLine : Bool) : List Char :=
  if onOneLine then v.outline.compact else v.outline.pretty 0

end Value
end ScriptBuiltins
