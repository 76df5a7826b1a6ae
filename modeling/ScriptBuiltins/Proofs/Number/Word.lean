import Mathlib.Data.Rat.Floor
import ScriptBuiltins.Number.Word
import ScriptBuiltins.Proofs.Number.Literal

/-! The exact value of a number, and the word of its integer part. Whole numbers of up to
fifty-three bits are doubles, so rounding leaves them their words. -/
namespace ScriptBuiltins

def rankValue (rank : Nat) : ℚ := units rank / unitsPerOne

theorem rankValue_nonneg (rank : Nat) : 0 ≤ rankValue rank :=
  div_nonneg (Nat.cast_nonneg _) (Nat.cast_nonneg _)

namespace Number

def value? : Number → Option ℚ
  | .finite negative rank => some (if negative then -rankValue rank else rankValue rank)
  | _ => none

theorem exists_units_eq {n : Nat} (h : n < 2 ^ 53) :
    ∃ rank < rankLimit, units rank = n * unitsPerOne := by
  obtain rfl | hpos := Nat.eq_zero_or_pos n
  · exact ⟨0, by decide, by rw [units_zero, Nat.zero_mul]⟩
  · have hlog : n.log2 < 53 := (Nat.log2_lt hpos.ne').mpr h
    -- The number is brought to fifty-three bits, and the binade makes up for it.
    have hlow : binade ≤ n * 2 ^ (52 - n.log2) := by
      have hsplit : 2 ^ 52 = 2 ^ n.log2 * 2 ^ (52 - n.log2) := by
        rw [← Nat.pow_add, Nat.add_sub_cancel' (by omega)]
      rw [binade_eq, hsplit]
      exact Nat.mul_le_mul_right _ (Nat.log2_self_le hpos.ne')
    have hhigh : n * 2 ^ (52 - n.log2) < 2 * binade := by
      have hexponent : n.log2 + 1 + (52 - n.log2) = 52 + 1 := by omega
      have hsplit : 2 * 2 ^ 52 = 2 ^ (n.log2 + 1) * 2 ^ (52 - n.log2) := by
        rw [← Nat.pow_add, hexponent, Nat.pow_succ']
      rw [binade_eq, hsplit]
      exact Nat.mul_lt_mul_of_pos_right Nat.lt_log2_self (Nat.two_pow_pos _)
    have hplaces : exactPlaces = 1074 := rfl
    refine ⟨(exactPlaces - (52 - n.log2)) * binade + n * 2 ^ (52 - n.log2), ?_, ?_⟩
    · have hexponent : (exactPlaces - (52 - n.log2)) * binade ≤ 1074 * binade :=
        Nat.mul_le_mul_right _ (by omega)
      rw [rankLimit]
      omega
    · rw [units_split (.inr hlow) (Nat.le_of_lt hhigh), unitsPerOne_eq, Nat.mul_assoc,
        ← Nat.pow_add, Nat.add_sub_cancel' (by omega)]

theorem integerPart?_ofUnits (negative : Bool) {n : Nat} (h : n < 2 ^ 53) :
    (ofUnits negative (n * unitsPerOne) 1).integerPart?
      = some (if negative then -(n : ℤ) else n) := by
  obtain ⟨rank, hlt, hunits⟩ := exists_units_eq h
  have hrank : nearestRank (n * unitsPerOne) 1 = rank := by
    rw [← hunits, ← Nat.mul_one (units rank)]
    exact nearestRank_units rank Nat.one_pos
  rw [ofUnits, hrank, ofRank_of_lt negative hlt, integerPart?]
  simp only [hunits, Nat.mul_div_cancel n unitsPerOne_pos]

/-- A whole number of a word's size, rounded to a double, keeps its word. -/
theorem toWord_ofUnits (negative : Bool) {n : Nat} (h : n < shortWordLimit) :
    (ofUnits negative (n * unitsPerOne) 1).toWord
      = (if negative then shortWordLimit - n else n) % shortWordLimit := by
  have hlimit : shortWordLimit = 4294967296 := rfl
  rw [toWord, integerPart?_ofUnits negative (by omega), Option.getD_some, hlimit]
  cases negative with
  | false =>
    simp only [Bool.false_eq_true, if_false]
    omega
  | true =>
    simp only [if_true]
    omega

end Number
end ScriptBuiltins
