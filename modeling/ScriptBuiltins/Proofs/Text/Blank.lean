import Mathlib.Data.List.TakeWhile
import ScriptBuiltins.Proofs.Text.Runs
import ScriptBuiltins.Text.Blank

namespace ScriptBuiltins

/-- A text without a blank at either end. -/
structure Trimmed (cs : List Char) : Prop where
  front : Stops isBlank cs
  back : Stops isBlank cs.reverse

theorem isBlank_spaces (n : ℕ) : ∀ c ∈ List.replicate n ' ', isBlank c := by
  intro c hc
  rw [List.eq_of_mem_replicate hc]
  rfl

theorem trimmed_of_forall {cs : List Char} (h : ∀ c ∈ cs, isBlank c = false) : Trimmed cs where
  front := stops_of_forall h
  back := stops_of_forall fun c hc => h c (List.mem_reverse.mp hc)

theorem Trimmed.trimBlanks_between {left core right : List Char} (h : Trimmed core)
    (hleft : ∀ c ∈ left, isBlank c) (hright : ∀ c ∈ right, isBlank c) :
    trimBlanks (left ++ (core ++ right)) = core := by
  have hbehind : ∀ c ∈ right.reverse, isBlank c := fun c hc => hright c (List.mem_reverse.mp hc)
  rw [trimBlanks, List.dropWhile_append_of_pos hleft]
  cases core with
  | nil =>
    rw [List.nil_append, List.dropWhile_eq_nil_iff.mpr hright]
    rfl
  | cons c cs =>
    have hfront : Stops isBlank (c :: cs ++ right) := stops_cons.mpr (stops_cons.mp h.front)
    rw [dropWhile_of_stops hfront, List.reverse_append, dropWhile_run hbehind h.back,
      List.reverse_reverse]

theorem Trimmed.trimBlanks_eq {cs : List Char} (h : Trimmed cs) : trimBlanks cs = cs := by
  simpa using @Trimmed.trimBlanks_between [] cs [] h nofun nofun

end ScriptBuiltins
