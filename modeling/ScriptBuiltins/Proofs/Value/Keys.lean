import ScriptBuiltins.Value.Basic

/-!
An object that is built by inserting never has a key twice, and neither has one inside another.
-/
namespace ScriptBuiltins

namespace Object
variable {α : Type}

theorem nodup_keys_empty : (empty : Object α).keys.Nodup := List.nodup_nil

theorem nodup_keys_insert {o : Object α} (h : o.keys.Nodup) (key : String) (value : α) :
    (o.insert key value).keys.Nodup := by
  rw [keys_insert]
  split
  · exact h
  · next hnew =>
    refine List.nodup_append.mpr ⟨h, by simp, ?_⟩
    intro a ha b hb heq
    rw [heq, List.mem_singleton.mp hb] at ha
    exact hnew ha

theorem nodup_keys_ofList (pairs : List (String × α)) : (ofList pairs).keys.Nodup := by
  have hfold (o : Object α) (ho : o.keys.Nodup) :
      (pairs.foldl (fun o pair => o.insert pair.1 pair.2) o).keys.Nodup := by
    induction pairs generalizing o with
    | nil => exact ho
    | cons pair pairs ih => exact ih _ (nodup_keys_insert ho pair.1 pair.2)
  exact hfold empty nodup_keys_empty

end Object

namespace Value

mutual

/-- No object in the value has a key twice. -/
def KeysDistinct : Value → Prop
  | .array items => ItemsDistinct items
  | .object ⟨entries⟩ => (entries.map Prod.fst).Nodup ∧ EntriesDistinct entries
  | _ => True

def ItemsDistinct : List Value → Prop
  | [] => True
  | item :: items => KeysDistinct item ∧ ItemsDistinct items

def EntriesDistinct : List (String × Value) → Prop
  | [] => True
  | (_, value) :: entries => KeysDistinct value ∧ EntriesDistinct entries

end

theorem entriesDistinct_put {value : Value} (h : value.KeysDistinct) (key : String)
    {entries : List (String × Value)} (hentries : EntriesDistinct entries) :
    EntriesDistinct (Object.put key value entries) := by
  induction entries with
  | nil => exact ⟨h, trivial⟩
  | cons entry entries ih =>
    obtain ⟨hvalue, hrest⟩ := hentries
    rw [Object.put]
    split
    · exact ⟨h, hrest⟩
    · exact ⟨hvalue, ih hrest⟩

theorem keysDistinct_empty : (Value.object .empty).KeysDistinct :=
  ⟨Object.nodup_keys_empty, trivial⟩

theorem keysDistinct_insert {o : Object Value} {value : Value} (ho : (object o).KeysDistinct)
    (h : value.KeysDistinct) (key : String) : (object (o.insert key value)).KeysDistinct :=
  ⟨Object.nodup_keys_insert ho.1 key value, entriesDistinct_put h key ho.2⟩

theorem itemsDistinct_of_forall {items : List Value} (h : ∀ item ∈ items, item.KeysDistinct) :
    ItemsDistinct items := by
  induction items with
  | nil => exact trivial
  | cons item items ih => exact ⟨h item (by simp), ih fun _ hmem => h _ (by simp [hmem])⟩

/-- The values that a host can make. An object starts empty and gets its entries by insertion. -/
inductive Built : Value → Prop
  | null : Built .null
  | bool (flag : Bool) : Built (.bool flag)
  | number (x : Number) : Built (.number x)
  | string (text : String) : Built (.string text)
  | bytes (bytes : Bytes) : Built (.bytes bytes)
  | custom (c : Custom) : Built (.custom c)
  | array {items : List Value} (h : ∀ item ∈ items, Built item) : Built (.array items)
  | empty : Built (.object .empty)
  | insert {o : Object Value} {value : Value} (ho : Built (.object o)) (h : Built value)
    (key : String) : Built (.object (o.insert key value))

theorem Built.keysDistinct {v : Value} (h : v.Built) : v.KeysDistinct := by
  induction h with
  | null | bool _ | number _ | string _ | bytes _ | custom _ => exact trivial
  | array _ ih => exact itemsDistinct_of_forall ih
  | empty => exact keysDistinct_empty
  | insert _ _ key iho ih => exact keysDistinct_insert iho ih key

end Value
end ScriptBuiltins
