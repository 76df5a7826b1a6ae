import Mathlib.Data.List.Forall2
import ScriptBuiltins.Proofs.Json.Number
import ScriptBuiltins.Proofs.Json.Reading
import ScriptBuiltins.Proofs.Json.Tokens
import ScriptBuiltins.Proofs.Text.Blank
import ScriptBuiltins.Proofs.Value.Keys
import ScriptBuiltins.Value.Json

/-!
The JSON text of a value is a text of the grammar, and what it decodes to is the image of the value.
-/
namespace ScriptBuiltins

namespace Json

mutual

/-- The value that a tree stands for: numbers are the nearest doubles, and members stay as they
come. -/
def decoded : Json → Value
  | .null => .null
  | .bool flag => .bool flag
  | .number l => .number l.toNumber
  | .string text => .string text
  | .array items => .array (decodedItems items)
  | .object members => .object ⟨decodedMembers members⟩

def decodedItems : List Json → List Value
  | [] => []
  | item :: items => decoded item :: decodedItems items

def decodedMembers : List (String × Json) → List (String × Value)
  | [] => []
  | (key, value) :: members => (key, decoded value) :: decodedMembers members

end

end Json

/-- What JSON keeps of a number: no sign of a zero, and nothing of what is not finite. -/
def Number.image : Number → Value
  | .nan => .null
  | .infinite _ => .null
  | .finite negative rank => .number (.finite (negative && rank.val != 0) rank)

def Custom.image (c : Custom) : Value :=
  match c.number, c.text with
  | some number, _ => number.image
  | none, some text => .string text
  | none, none => .null

namespace Value

mutual

def image : Value → Value
  | .null => .null
  | .bool flag => .bool flag
  | .number x => x.image
  | .string text => .string text
  | .bytes b => .string (String.ofList b.decode)
  | .array items => .array (imageItems items)
  | .object ⟨entries⟩ => .object ⟨imageEntries entries⟩
  | .custom c => c.image

def imageItems : List Value → List Value
  | [] => []
  | item :: items => image item :: imageItems items

def imageEntries : List (String × Value) → List (String × Value)
  | [] => []
  | (key, value) :: entries => (key, image value) :: imageEntries entries

end

end Value

open Json (ValueText ListText MemberText StringText NumberText)

structure Spelled (image : Value) (text : List Char) (tree : Json) : Prop where
  spells : ValueText tree text
  printed : Printed text
  decoded : tree.decoded = image

theorem spelled_null : Spelled .null "null".toList .null where
  spells := .null
  printed := by decide
  decoded := rfl

theorem spelled_string (cs : List Char) :
    Spelled (.string (String.ofList cs)) (jsonQuoted cs) (.string (String.ofList cs)) where
  spells := .string (Json.stringText_jsonQuoted cs)
  printed := (Json.stringText_jsonQuoted cs).printed
  decoded := rfl

theorem Number.exists_spelled (x : Number) : ∃ tree, Spelled x.image x.toJson tree := by
  cases x with
  | nan => exact ⟨.null, spelled_null⟩
  | infinite negative => exact ⟨.null, spelled_null⟩
  | finite negative rank =>
    obtain ⟨l, htext, hvalue⟩ := Number.exists_literal_toJson negative rank
    refine ⟨.number l, .number htext, htext.isNumeral.printed, ?_⟩
    rw [Json.decoded, hvalue, Number.image]

theorem Custom.exists_spelled (c : Custom) : ∃ tree, Spelled c.image c.toJson tree := by
  obtain ⟨identity, number, text⟩ := c
  cases number with
  | some x => exact x.exists_spelled
  | none =>
    cases text with
    | none => exact ⟨.null, spelled_null⟩
    | some text =>
      have h := spelled_string text.toList
      rw [String.ofList_toList] at h
      exact ⟨_, h⟩

theorem listText_commaSeparated {α : Type} {P : α → List Char → Prop} {xs : List α}
    {texts : List (List Char)} (h : List.Forall₂ P xs texts) (hne : xs ≠ []) :
    ListText P xs (commaSeparated texts) := by
  induction h with
  | nil => contradiction
  | @cons x text xs texts hx htail ih =>
    cases htail with
    | nil =>
      have hlast := ListText.last Json.spaces_nil hx Json.spaces_nil
      rwa [List.nil_append, List.append_nil] at hlast
    | cons hy htail =>
      have hmore := ListText.more Json.spaces_nil hx Json.spaces_nil (ih (List.cons_ne_nil _ _))
      rwa [List.nil_append, List.nil_append] at hmore

theorem printed_commaSeparated {texts : List (List Char)} (h : ∀ text ∈ texts, Printed text) :
    Printed (commaSeparated texts) := by
  induction texts with
  | nil => decide
  | cons text texts ih =>
    obtain ⟨htext, htail⟩ := List.forall_mem_cons.mp h
    cases texts with
    | nil => exact htext
    | cons next texts => exact htext.append (.cons (by decide) (ih htail))

theorem spelled_array {images : List Value} {texts : List (List Char)} {trees : List Json}
    (h : List.Forall₂ ValueText trees texts) (hprinted : ∀ text ∈ texts, Printed text)
    (hdecoded : Json.decodedItems trees = images) :
    Spelled (.array images) ('[' :: commaSeparated texts ++ [']']) (.array trees) where
  spells := by
    cases h with
    | nil => exact .emptyArray Json.spaces_nil
    | cons hx htail => exact .array (listText_commaSeparated (.cons hx htail) (List.cons_ne_nil _ _))
  printed := .cons (by decide) ((printed_commaSeparated hprinted).append (by decide))
  decoded := by rw [Json.decoded, hdecoded]

theorem spelled_object {images : List (String × Value)} {texts : List (List Char)}
    {members : List (String × Json)} (h : List.Forall₂ (MemberText ValueText) members texts)
    (hprinted : ∀ text ∈ texts, Printed text) (hdecoded : Json.decodedMembers members = images) :
    Spelled (.object ⟨images⟩) ('\x7b' :: commaSeparated texts ++ ['\x7d']) (.object members) where
  spells := by
    cases h with
    | nil => exact .emptyObject Json.spaces_nil
    | cons hx htail =>
      exact .object (listText_commaSeparated (.cons hx htail) (List.cons_ne_nil _ _))
  printed := .cons (by decide) ((printed_commaSeparated hprinted).append (by decide))
  decoded := by rw [Json.decoded, hdecoded]

theorem memberText_entry {key : String} {value : Json} {text : List Char}
    (h : ValueText value text) :
    MemberText ValueText (key, value) (jsonQuoted key.toList ++ ':' :: text) := by
  have hkey := Json.stringText_jsonQuoted key.toList
  rw [String.ofList_toList] at hkey
  exact .mk hkey Json.spaces_nil Json.spaces_nil h

namespace Value

mutual

theorem exists_spelled : (v : Value) → ∃ tree, Spelled v.image v.toJson tree
  | .null => ⟨.null, spelled_null⟩
  | .bool true => ⟨.bool true, .yes, by decide, rfl⟩
  | .bool false => ⟨.bool false, .no, by decide, rfl⟩
  | .number x => x.exists_spelled
  | .string text => by
    have h := spelled_string text.toList
    rw [String.ofList_toList] at h
    exact ⟨_, h⟩
  | .bytes b => ⟨_, spelled_string b.decode⟩
  | .array items => by
    obtain ⟨trees, h, hprinted, hdecoded⟩ := exists_spelled_items items
    exact ⟨_, spelled_array h hprinted hdecoded⟩
  | .object ⟨entries⟩ => by
    obtain ⟨members, h, hprinted, hdecoded⟩ := exists_spelled_entries entries
    exact ⟨_, spelled_object h hprinted hdecoded⟩
  | .custom c => c.exists_spelled

theorem exists_spelled_items : (items : List Value) →
    ∃ trees, List.Forall₂ ValueText trees (itemsJson items) ∧
      (∀ text ∈ itemsJson items, Printed text) ∧ Json.decodedItems trees = imageItems items
  | [] => ⟨[], .nil, by simp [itemsJson], rfl⟩
  | item :: items => by
    obtain ⟨tree, hspells, hprinted, hdecoded⟩ := exists_spelled item
    obtain ⟨trees, h, hall, hrest⟩ := exists_spelled_items items
    refine ⟨tree :: trees, .cons hspells h, List.forall_mem_cons.mpr ⟨hprinted, hall⟩, ?_⟩
    rw [Json.decodedItems, imageItems, hdecoded, hrest]

theorem exists_spelled_entries : (entries : List (String × Value)) →
    ∃ members, List.Forall₂ (MemberText ValueText) members (entriesJson entries) ∧
      (∀ text ∈ entriesJson entries, Printed text) ∧
      Json.decodedMembers members = imageEntries entries
  | [] => ⟨[], .nil, by simp [entriesJson], rfl⟩
  | (key, value) :: entries => by
    obtain ⟨tree, hspells, hprinted, hdecoded⟩ := exists_spelled value
    obtain ⟨members, h, hall, hrest⟩ := exists_spelled_entries entries
    have hentry : Printed (jsonQuoted key.toList ++ ':' :: value.toJson) :=
      (Json.stringText_jsonQuoted key.toList).printed.append (.cons (by decide) hprinted)
    refine ⟨(key, tree) :: members, .cons (memberText_entry hspells) h,
      List.forall_mem_cons.mpr ⟨hentry, hall⟩, ?_⟩
    rw [Json.decodedMembers, imageEntries, hdecoded, hrest]

end

theorem map_fst_imageEntries (entries : List (String × Value)) :
    (imageEntries entries).map Prod.fst = entries.map Prod.fst := by
  induction entries with
  | nil => rfl
  | cons entry entries ih => rw [imageEntries, List.map_cons, List.map_cons, ih]

theorem keysDistinct_imageNumber (x : Number) : KeysDistinct x.image := by
  cases x <;> exact trivial

theorem keysDistinct_imageCustom (c : Custom) : KeysDistinct c.image := by
  obtain ⟨identity, number, text⟩ := c
  cases number with
  | some x => exact keysDistinct_imageNumber x
  | none => cases text <;> exact trivial

mutual

theorem KeysDistinct.image : (v : Value) → v.KeysDistinct → v.image.KeysDistinct
  | .null, _ => trivial
  | .bool _, _ => trivial
  | .number x, _ => keysDistinct_imageNumber x
  | .string _, _ => trivial
  | .bytes _, _ => trivial
  | .array items, h => ItemsDistinct.image items h
  | .object ⟨entries⟩, h => by
    refine ⟨?_, EntriesDistinct.image entries h.2⟩
    rw [map_fst_imageEntries]
    exact h.1
  | .custom c, _ => keysDistinct_imageCustom c

theorem ItemsDistinct.image : (items : List Value) → ItemsDistinct items →
    ItemsDistinct (imageItems items)
  | [], _ => trivial
  | item :: items, h => ⟨KeysDistinct.image item h.1, ItemsDistinct.image items h.2⟩

theorem EntriesDistinct.image : (entries : List (String × Value)) → EntriesDistinct entries →
    EntriesDistinct (imageEntries entries)
  | [], _ => trivial
  | (_, value) :: entries, h =>
    ⟨KeysDistinct.image value h.1, EntriesDistinct.image entries h.2⟩

end

end Value

theorem Json.ValueText.trimBlanks {tree : Json} {text : List Char} (h : ValueText tree text) :
    trimBlanks text = text := by
  have hends {first last : Char} {inside : List Char} (hfirst : isBlank first = false)
      (hlast : isBlank last = false) :
      ScriptBuiltins.trimBlanks (first :: (inside ++ [last])) = first :: (inside ++ [last]) := by
    refine Trimmed.trimBlanks_eq ⟨stops_cons.mpr hfirst, ?_⟩
    rw [List.reverse_cons, List.reverse_concat]
    exact stops_cons.mpr hlast
  cases h with
  | null => rfl
  | yes => rfl
  | no => rfl
  | number h => exact (trimmed_of_forall h.isNumeral.not_blank).trimBlanks_eq
  | string h =>
    cases h
    exact hends (by decide) (by decide)
  | emptyArray => exact hends (by decide) (by decide)
  | array => exact hends (by decide) (by decide)
  | emptyObject => exact hends (by decide) (by decide)
  | object => exact hends (by decide) (by decide)

/-- The JSON text of a value is a single value of the grammar without space around it or a control
in it, and it is read as a tree that stands for the image of the value. Keys that are distinct stay
so, and in a value that a host can make they are. -/
theorem Value.toJson_decodes (v : Value) :
    ∃ tree, ValueText tree v.toJson ∧ trimBlanks v.toJson = v.toJson ∧ Printed v.toJson ∧
      Json.parse? v.toJson = some tree ∧ tree.decoded = v.image ∧
      (v.KeysDistinct → tree.decoded.KeysDistinct) ∧
      (v.Built → tree.decoded.KeysDistinct) := by
  obtain ⟨tree, hspells, hprinted, hdecoded⟩ := v.exists_spelled
  have hkeys : v.KeysDistinct → tree.decoded.KeysDistinct := by
    intro h
    rw [hdecoded]
    exact KeysDistinct.image v h
  have htext := Json.Text.mk Json.spaces_nil hspells Json.spaces_nil
  rw [List.nil_append, List.append_nil] at htext
  exact ⟨tree, hspells, hspells.trimBlanks, hprinted, htext.parse?, hdecoded, hkeys,
    fun hbuilt => hkeys hbuilt.keysDistinct⟩

theorem Value.toJson_decodes_nested :
    ∃ v : Value, v.Built ∧ v.KeysDistinct ∧
      v.toJson = "\x7b\"k\":[0,\"\\u0001\\n\"],\"l\":\"\uFFFD\"\x7d".toList ∧
      ∃ tree, Json.parse? v.toJson = some tree ∧ tree.decoded.KeysDistinct := by
  let items : List Value := [.number (.finite true ⟨0, by decide⟩), .string "\x01\n"]
  let o : Object Value := (Object.empty.insert "k" (.array items)).insert "l" (.bytes ⟨[0xFF]⟩)
  have hitems : ∀ item ∈ items, item.Built := by
    simp [items, Built.number, Built.string]
  have hbuilt : (Value.object o).Built :=
    (Built.empty.insert (.array hitems) "k").insert (.bytes _) "l"
  obtain ⟨tree, -, -, -, hparse, -, -, hdistinct⟩ := (Value.object o).toJson_decodes
  exact ⟨.object o, hbuilt, hbuilt.keysDistinct, by decide +kernel, tree, hparse,
    hdistinct hbuilt⟩

end ScriptBuiltins
