import Mathlib.Data.List.Forall2
import ScriptBuiltins.Value.Basic

/-! Which values are equal: the same values, equal numbers, and arrays and objects with equal values
in the same places. -/
namespace ScriptBuiltins

theorem Number.eq_or_zeros_of_equals {x y : Number} (h : x.equals y) :
    x = y ∨ ∃ a b rank, rank.val = 0 ∧ x = .finite a rank ∧ y = .finite b rank := by
  cases x with
  | nan => cases h
  | infinite a =>
    cases y with
    | infinite b => exact .inl (congrArg _ (eq_of_beq h))
    | _ => cases h
  | finite a j =>
    cases y with
    | finite b k =>
      rw [equals, Bool.and_eq_true, Bool.or_eq_true, beq_iff_eq, beq_iff_eq, beq_iff_eq] at h
      obtain ⟨rfl, rfl | hzero⟩ := h
      · exact .inl rfl
      · exact .inr ⟨a, b, j, hzero, rfl, rfl⟩
    | _ => cases h

namespace Value

/-- Induction on a value, with the hypothesis for all that an array or an object holds. -/
@[elab_as_elim]
theorem nestedInduction {motive : Value → Prop} (null : motive .null)
    (bool : ∀ flag, motive (.bool flag)) (number : ∀ x, motive (.number x))
    (string : ∀ text, motive (.string text)) (bytes : ∀ b, motive (.bytes b))
    (array : ∀ items, (∀ v ∈ items, motive v) → motive (.array items))
    (object : ∀ entries, (∀ entry ∈ entries, motive entry.2) → motive (.object ⟨entries⟩))
    (custom : ∀ c, motive (.custom c)) : ∀ v, motive v
  | .null => null
  | .bool flag => bool flag
  | .number x => number x
  | .string text => string text
  | .bytes b => bytes b
  | .array items => array items fun v _ =>
    nestedInduction null bool number string bytes array object custom v
  | .object ⟨entries⟩ => object entries fun entry _ =>
    nestedInduction null bool number string bytes array object custom entry.2
  | .custom c => custom c
termination_by v => sizeOf v
decreasing_by
  · next hv =>
    have hlt := List.sizeOf_lt_of_mem hv
    simp only [Value.array.sizeOf_spec]
    omega
  · next hentry =>
    have hlt := List.sizeOf_lt_of_mem hentry
    obtain ⟨key, value⟩ := entry
    simp only [Value.object.sizeOf_spec, Object.mk.sizeOf_spec, Prod.mk.sizeOf_spec] at hlt ⊢
    omega

theorem equalItems_iff {items others : List Value} :
    equalItems items others ↔ List.Forall₂ (fun a b => a.equals b) items others := by
  induction items generalizing others with
  | nil => cases others <;> simp [equalItems]
  | cons a items ih => cases others <;> simp [equalItems, ih]

theorem equalEntries_iff {entries others : List (String × Value)} :
    equalEntries entries others
      ↔ List.Forall₂ (fun a b => a.1 = b.1 ∧ a.2.equals b.2) entries others := by
  induction entries generalizing others with
  | nil => cases others <;> simp [equalEntries]
  | cons a entries ih => cases others <;> simp [equalEntries, ih]

theorem object_equals_object {o other : Object Value} :
    (object o).equals (.object other)
      ↔ List.Forall₂ (fun a b => a.1 = b.1 ∧ a.2.equals b.2) o.entries other.entries :=
  equalEntries_iff

/-- What a value is equal to. Only numbers, alone or inside, need not be the same. -/
theorem equals_iff (a b : Value) : a.equals b ↔ match a with
    | .number x => ∃ y, b = .number y ∧ x.equals y
    | .array items => ∃ others, b = .array others ∧
      List.Forall₂ (fun a b => a.equals b) items others
    | .object o => ∃ other, b = .object other ∧
      List.Forall₂ (fun a b => a.1 = b.1 ∧ a.2.equals b.2) o.entries other.entries
    | a => a = b := by
  cases a with
  | array items => cases b <;> simp [equals, equalItems_iff]
  | object o => cases b <;> simp [equals, equalEntries_iff]
  | _ => cases b <;> simp [equals]

end Value
end ScriptBuiltins
