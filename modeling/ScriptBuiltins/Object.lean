namespace ScriptBuiltins

structure Object (α : Type) where
  entries : List (String × α)
  deriving Inhabited

namespace Object

variable {α : Type}

def empty : Object α := ⟨[]⟩

def find? (key : String) : List (String × α) → Option α
  | [] => none
  | (k, v) :: rest => if k = key then some v else find? key rest

def get? (o : Object α) (key : String) : Option α := find? key o.entries

def contains (o : Object α) (key : String) : Bool := (o.get? key).isSome

def size (o : Object α) : Nat := o.entries.length

def isEmpty (o : Object α) : Bool := o.entries.isEmpty

def keys (o : Object α) : List String := o.entries.map Prod.fst

/-- Puts a value under a key: in the place of the entry with that key, or at the end. -/
def put (key : String) (value : α) : List (String × α) → List (String × α)
  | [] => [(key, value)]
  | (k, v) :: rest => if k = key then (k, value) :: rest else (k, v) :: put key value rest

def insert (o : Object α) (key : String) (value : α) : Object α := ⟨put key value o.entries⟩

def exchangeIn (key : String) (value : α) : List (String × α) → Option α × List (String × α)
  | [] => (none, [(key, value)])
  | (k, v) :: rest =>
    if k = key then (some v, (k, value) :: rest)
    else
      let (old, rest) := exchangeIn key value rest
      (old, (k, v) :: rest)

def exchange (o : Object α) (key : String) (value : α) : Option α × Object α :=
  let (old, entries) := exchangeIn key value o.entries
  (old, ⟨entries⟩)

def ofList (pairs : List (String × α)) : Object α :=
  pairs.foldl (fun o pair => o.insert pair.1 pair.2) empty

theorem find?_put (key other : String) (value : α) (entries : List (String × α)) :
    find? other (put key value entries)
      = if key = other then some value else find? other entries := by
  induction entries with
  | nil => rfl
  | cons entry rest ih =>
    obtain ⟨k, v⟩ := entry
    by_cases h : k = key
    · subst h
      by_cases h' : k = other <;> simp [put, find?, h']
    · by_cases h' : k = other
      · subst h'
        simp [put, find?, h, Ne.symm h]
      · simp [put, find?, h, h', ih]

theorem map_fst_put (key : String) (value : α) (entries : List (String × α)) :
    (put key value entries).map Prod.fst
      = if key ∈ entries.map Prod.fst then entries.map Prod.fst
        else entries.map Prod.fst ++ [key] := by
  induction entries with
  | nil => rfl
  | cons entry rest ih =>
    obtain ⟨k, v⟩ := entry
    by_cases h : k = key
    · simp [put, h]
    · by_cases h' : key ∈ rest.map Prod.fst
      · simp [put, h, ih, List.mem_cons, h']
      · simp [put, h, ih, List.mem_cons, h', Ne.symm h]

theorem keys_insert (o : Object α) (key : String) (value : α) :
    (o.insert key value).keys = if key ∈ o.keys then o.keys else o.keys ++ [key] :=
  map_fst_put key value o.entries

theorem get?_insert (o : Object α) (key other : String) (value : α) :
    (o.insert key value).get? other = if key = other then some value else o.get? other :=
  find?_put key other value o.entries

theorem exchangeIn_eq (key : String) (value : α) (entries : List (String × α)) :
    exchangeIn key value entries = (find? key entries, put key value entries) := by
  induction entries with
  | nil => rfl
  | cons entry rest ih =>
    obtain ⟨k, v⟩ := entry
    by_cases h : k = key
    · simp [exchangeIn, find?, put, h]
    · simp [exchangeIn, find?, put, h, ih]

theorem exchange_eq (o : Object α) (key : String) (value : α) :
    o.exchange key value = (o.get? key, o.insert key value) := by
  rw [exchange, exchangeIn_eq, get?, insert]

end Object
end ScriptBuiltins
