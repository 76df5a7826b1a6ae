import Mathlib.Data.Finset.Card
import ScriptBuiltins.Proofs.Value.Equality
import ScriptBuiltins.Proofs.Value.Keys
import ScriptBuiltins.Value.Json

/-! What an object is after any calls that make it or put values into it. The pairs that were put in
tell everything: the order of the keys is that of their first pairs, and the values are those of
their last pairs. -/
namespace ScriptBuiltins.Object

variable {α : Type}

/-! ### Calls -/

inductive Call (α : Type) where
  | exchange (key : String) (value : α)
  | insert (key : String) (value : α)
  | ofList (pairs : List (String × α))

namespace Call

def run (o : Object α) : Call α → Object α
  | exchange key value => (o.exchange key value).2
  | insert key value => o.insert key value
  | ofList pairs => .ofList pairs

/-- The pairs put into an object since it was made, this call being the last. -/
def record (before : List (String × α)) : Call α → List (String × α)
  | exchange key value => before ++ [(key, value)]
  | insert key value => before ++ [(key, value)]
  | ofList pairs => pairs

end Call

def after (calls : List (Call α)) : Object α := calls.foldl Call.run empty

def insertions (calls : List (Call α)) : List (String × α) := calls.foldl Call.record []

theorem ofList_concat (pairs : List (String × α)) (key : String) (value : α) :
    ofList (pairs ++ [(key, value)]) = (ofList pairs).insert key value := by
  simp [ofList]

theorem Call.run_ofList (call : Call α) (pairs : List (String × α)) :
    call.run (.ofList pairs) = .ofList (call.record pairs) := by
  cases call with
  | exchange key value => rw [run, record, exchange_eq, ofList_concat]
  | insert key value => rw [run, record, ofList_concat]
  | ofList pairs => rfl

theorem after_eq_ofList (calls : List (Call α)) : after calls = ofList (insertions calls) := by
  have hfold (pairs : List (String × α)) :
      calls.foldl Call.run (ofList pairs) = ofList (calls.foldl Call.record pairs) := by
    induction calls generalizing pairs with
    | nil => rfl
    | cons call calls ih => rw [List.foldl_cons, List.foldl_cons, call.run_ofList, ih]
  exact hfold []

/-! ### Pairs -/

def lastValue? (pairs : List (String × α)) (key : String) : Option α := pairs.reverse.lookup key

/-- The distinct keys of pairs in the order in which they first come, each with its last value. -/
def settled (pairs : List (String × α)) : List (String × α) :=
  (pairs.map Prod.fst).eraseDups.filterMap fun key => (lastValue? pairs key).map (key, ·)

theorem keys_ofList (pairs : List (String × α)) :
    (ofList pairs).keys = (pairs.map Prod.fst).eraseDups := by
  induction pairs using List.reverseRecOn with
  | nil => rfl
  | append_singleton pairs pair ih =>
    obtain ⟨key, value⟩ := pair
    rw [ofList_concat, keys_insert, ih, List.map_append, List.eraseDups_append]
    simp only [List.mem_eraseDups, List.map_cons, List.map_nil]
    by_cases hkey : key ∈ pairs.map Prod.fst
    · rw [if_pos hkey]
      simp [List.removeAll, hkey]
    · rw [if_neg hkey]
      simp [List.removeAll, hkey, List.eraseDups_cons]

theorem get?_ofList (pairs : List (String × α)) (key : String) :
    (ofList pairs).get? key = lastValue? pairs key := by
  induction pairs using List.reverseRecOn with
  | nil => rfl
  | append_singleton pairs pair ih =>
    obtain ⟨k, v⟩ := pair
    rw [lastValue?] at ih ⊢
    rw [ofList_concat, get?_insert, ih, List.reverse_append, List.reverse_singleton,
      List.singleton_append, List.lookup_cons]
    by_cases hkey : k = key
    · simp [hkey]
    · have hne : (key == k) = false := beq_eq_false_iff_ne.mpr (Ne.symm hkey)
      rw [if_neg hkey, hne]

theorem find?_isSome_iff {key : String} {entries : List (String × α)} :
    (find? key entries).isSome ↔ key ∈ entries.map Prod.fst := by
  induction entries with
  | nil => simp [find?]
  | cons entry rest ih =>
    obtain ⟨k, v⟩ := entry
    by_cases hkey : k = key
    · simp [find?, hkey]
    · rw [find?, if_neg hkey, ih, List.map_cons, List.mem_cons]
      simp [Ne.symm hkey]

theorem filterMap_find?_eq {entries : List (String × α)} (h : (entries.map Prod.fst).Nodup) :
    ((entries.map Prod.fst).filterMap fun key => (find? key entries).map (key, ·)) = entries := by
  induction entries with
  | nil => rfl
  | cons entry rest ih =>
    obtain ⟨k, v⟩ := entry
    obtain ⟨hnew, hrest⟩ := List.nodup_cons.mp h
    have hothers : ((rest.map Prod.fst).filterMap fun key =>
        (find? key ((k, v) :: rest)).map (key, ·))
          = (rest.map Prod.fst).filterMap fun key => (find? key rest).map (key, ·) := by
      refine List.filterMap_congr fun key hkey => ?_
      have hne : k ≠ key := fun heq => hnew (heq ▸ hkey)
      rw [find?, if_neg hne]
    rw [List.map_cons, List.filterMap_cons, hothers, ih hrest]
    simp [find?]

theorem entries_ofList (pairs : List (String × α)) : (ofList pairs).entries = settled pairs := by
  have hentries := filterMap_find?_eq (nodup_keys_ofList pairs)
  have hkeys : (ofList pairs).entries.map Prod.fst = (pairs.map Prod.fst).eraseDups :=
    keys_ofList pairs
  rw [hkeys] at hentries
  rw [← hentries, settled]
  exact congrArg (List.filterMap · _) (funext fun key => by rw [← get?_ofList, get?])

/-- An object with nothing but the pairs put into it, and with them all. -/
structure Records (pairs : List (String × α)) (o : Object α) : Prop where
  nodup : o.keys.Nodup
  keys : o.keys = (pairs.map Prod.fst).eraseDups
  entries : o.entries = settled pairs
  get : ∀ key, o.get? key = lastValue? pairs key
  get_none : ∀ key, o.get? key = none ↔ key ∉ pairs.map Prod.fst
  contains : ∀ key, o.contains key = decide (key ∈ pairs.map Prod.fst)
  size : o.size = (pairs.map Prod.fst).toFinset.card

theorem get?_isSome_iff {o : Object α} {key : String} : (o.get? key).isSome ↔ key ∈ o.keys :=
  find?_isSome_iff

theorem records_ofList (pairs : List (String × α)) : Records pairs (ofList pairs) where
  nodup := nodup_keys_ofList pairs
  keys := keys_ofList pairs
  entries := entries_ofList pairs
  get := get?_ofList pairs
  get_none := by
    intro key
    rw [← Option.not_isSome_iff_eq_none, get?_isSome_iff, keys_ofList, List.mem_eraseDups]
  contains := by
    intro key
    rw [Bool.eq_iff_iff, decide_eq_true_iff, contains, get?_isSome_iff, keys_ofList,
      List.mem_eraseDups]
  size := by
    have hlength : (ofList pairs).size = (ofList pairs).keys.length := (List.length_map _).symm
    rw [hlength, ← List.toFinset_card_of_nodup (nodup_keys_ofList pairs)]
    congr 1
    ext key
    rw [List.mem_toFinset, List.mem_toFinset, keys_ofList, List.mem_eraseDups]

/-! ### One more pair -/

theorem getElem?_put {key other : String} (h : other ≠ key) (value v : α)
    (entries : List (String × α)) (i : ℕ) :
    (put key value entries)[i]? = some (other, v) ↔ entries[i]? = some (other, v) := by
  induction entries generalizing i with
  | nil =>
    cases i with
    | zero => simp [put, Ne.symm h]
    | succ i => simp [put]
  | cons entry rest ih =>
    obtain ⟨k, w⟩ := entry
    by_cases hkey : k = key
    · subst hkey
      cases i with
      | zero => simp [put, Ne.symm h]
      | succ i => simp [put]
    · rw [put, if_neg hkey]
      cases i with
      | zero => rfl
      | succ i => exact ih i

/-- An object with one more pair than before: no entry under another key has changed or moved. -/
structure Extends (key : String) (value : α) (before after : Object α) : Prop where
  get : after.get? key = some value
  get_other : ∀ other, other ≠ key → after.get? other = before.get? other
  place_other : ∀ (i : ℕ) (other : String) (v : α), other ≠ key →
    (after.entries[i]? = some (other, v) ↔ before.entries[i]? = some (other, v))
  order : before.keys <+: after.keys

theorem extends_insert (o : Object α) (key : String) (value : α) :
    Extends key value o (o.insert key value) where
  get := by rw [get?_insert, if_pos rfl]
  get_other := fun other hother => by rw [get?_insert, if_neg (Ne.symm hother)]
  place_other := fun i other v hother => getElem?_put hother value v o.entries i
  order := by
    rw [keys_insert]
    split
    · exact List.prefix_refl _
    · exact List.prefix_append _ _

/-! ### Objects of values -/

/-- After any calls an object holds what was put into it: each key once, in the order of the first
pairs and with the values of the last ones. One more pair gives back the value that it replaces and
leaves all others in place, and JSON and equality go through the entries in this order. -/
theorem history_ordered (calls : List (Call Value)) :
    let o := after calls
    let pairs := insertions calls
    Records pairs o ∧
    (∀ key value, o.exchange key value = (o.get? key, o.insert key value) ∧
      Extends key value o (o.insert key value)) ∧
    (Value.object o).toJson = '\x7b' :: commaSeparated ((settled pairs).map fun entry =>
      jsonQuoted entry.1.toList ++ ':' :: entry.2.toJson) ++ ['\x7d'] ∧
    ∀ others, (Value.object o).equals (.object (after others)) ↔
      List.Forall₂ (fun a b => a.1 = b.1 ∧ a.2.equals b.2) (settled pairs)
        (settled (insertions others)) := by
  intro o pairs
  have ho : o = ofList pairs := after_eq_ofList calls
  have hentries : o.entries = settled pairs := by rw [ho, entries_ofList]
  refine ⟨ho ▸ records_ofList pairs, ?_, ?_, ?_⟩
  · exact fun key value => ⟨exchange_eq o key value, extends_insert o key value⟩
  · rw [Value.toJson, Value.entriesJson_eq_map, hentries]
  · intro others
    rw [Value.object_equals_object, hentries, after_eq_ofList others, entries_ofList]

/-- `y` keeps its place in front of `x` when it is put in again. -/
example :
    (after [.insert "y" 1, .insert "x" 2, .exchange "y" 3]).entries = [("y", 3), ("x", 2)] := by
  decide

end ScriptBuiltins.Object
