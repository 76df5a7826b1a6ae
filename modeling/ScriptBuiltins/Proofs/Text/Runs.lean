namespace ScriptBuiltins
variable {α : Type}

/-- The text does not begin with a member of the class. -/
def Stops (p : α → Bool) (cs : List α) : Prop := ∀ c ∈ cs.head?, p c = false

theorem stops_nil (p : α → Bool) : Stops p [] := by
  intro c h
  contradiction

theorem stops_cons {p : α → Bool} {c : α} {cs : List α} : Stops p (c :: cs) ↔ p c = false := by
  simp [Stops]

theorem Stops.mono {p q : α → Bool} {cs : List α} (hpq : ∀ c, p c → q c) (h : Stops q cs) :
    Stops p cs := by
  intro c hc
  have hq := h c hc
  cases hp : p c with
  | false => rfl
  | true => simp [hpq c hp] at hq

theorem Stops.append {p : α → Bool} {as bs : List α} (ha : Stops p as) (hb : Stops p bs) :
    Stops p (as ++ bs) := by
  cases as with
  | nil => exact hb
  | cons a as => exact ha

theorem Stops.of_append {p : α → Bool} {as bs : List α} (h : Stops p (as ++ bs)) : Stops p as := by
  cases as with
  | nil => exact stops_nil p
  | cons a as => exact h

theorem stops_of_forall {p : α → Bool} {cs : List α} (h : ∀ c ∈ cs, p c = false) : Stops p cs := by
  intro c hc
  exact h c (List.mem_of_mem_head? hc)

theorem stops_dropWhile (p : α → Bool) (cs : List α) : Stops p (cs.dropWhile p) := by
  intro c hc
  have h := List.head?_dropWhile_not p cs
  rw [Option.mem_def.mp hc] at h
  simpa using h

theorem takeWhile_of_stops {p : α → Bool} {cs : List α} (h : Stops p cs) :
    cs.takeWhile p = [] := by
  cases cs with
  | nil => rfl
  | cons c cs => simp [stops_cons.mp h]

theorem dropWhile_of_stops {p : α → Bool} {cs : List α} (h : Stops p cs) :
    cs.dropWhile p = cs := by
  cases cs with
  | nil => rfl
  | cons c cs => simp [stops_cons.mp h]

theorem not_mem_takeWhile_ne [BEq α] [LawfulBEq α] (c : α) (cs : List α) :
    c ∉ cs.takeWhile (· != c) := by
  intro hc
  have hne := List.all_eq_true.mp List.all_takeWhile c hc
  simp at hne

theorem dropWhile_append_of_stops {p : α → Bool} (as : List α) {bs : List α} (h : Stops p bs) :
    (as ++ bs).dropWhile p = as.dropWhile p ++ bs := by
  rw [List.dropWhile_append]
  split
  · next hnil => rw [List.isEmpty_iff.mp hnil, List.nil_append, dropWhile_of_stops h]
  · rfl

theorem takeWhile_run {p : α → Bool} {run rest : List α} (hrun : ∀ c ∈ run, p c)
    (hrest : Stops p rest) : (run ++ rest).takeWhile p = run := by
  rw [List.takeWhile_append_of_pos hrun, takeWhile_of_stops hrest, List.append_nil]

theorem dropWhile_run {p : α → Bool} {run rest : List α} (hrun : ∀ c ∈ run, p c)
    (hrest : Stops p rest) : (run ++ rest).dropWhile p = rest := by
  rw [List.dropWhile_append_of_pos hrun, dropWhile_of_stops hrest]

end ScriptBuiltins
