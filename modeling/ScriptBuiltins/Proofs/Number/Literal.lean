import Mathlib.Algebra.Order.Field.Basic
import Mathlib.Data.Rat.Cast.Order
import Mathlib.Tactic.FieldSimp
import Mathlib.Tactic.NormNum
import ScriptBuiltins.Number.Numeral
import ScriptBuiltins.Proofs.Number.Digits
import ScriptBuiltins.Proofs.Number.Nearest

/-!
The number of a decimal literal is the double nearest to its value, and so the same for all ways of
writing that value.
-/
namespace ScriptBuiltins

theorem unitsPerOne_eq : unitsPerOne = 2 ^ exactPlaces := Nat.pow_eq

theorem unitsPerOne_pos : 0 < unitsPerOne := by
  rw [unitsPerOne_eq]
  exact Nat.two_pow_pos exactPlaces

theorem units_rankLimit : units rankLimit = 2 ^ 1024 * unitsPerOne := by
  have hsplit : rankLimit = 2045 * binade + 2 * binade := by
    rw [rankLimit, ← Nat.add_mul]
  have hexponent : 53 + 2045 = 1024 + exactPlaces := rfl
  rw [hsplit, units_split (.inr (by omega)) (Nat.le_refl _), binade_eq, unitsPerOne_eq,
    ← Nat.pow_succ', ← Nat.pow_add, ← Nat.pow_add, hexponent]

/-- The bounds between which a literal is read exactly are past the doubles on both sides. -/
theorem two_mul_unitsPerOne_lt : 2 * unitsPerOne < 10 ^ 401 := by decide +kernel

theorem largest_lt : 2 ^ 1024 < 10 ^ 400 := by decide +kernel

namespace Number

theorem nearestRank_of_small {coefficient : Nat} {exponent : Int}
    (h : ((digits coefficient).length : Int) + exponent < -400) :
    nearestRank (coefficient * unitsPerOne * 10 ^ exponent.toNat) (10 ^ (-exponent).toNat) = 0 := by
  have hlt := lt_pow_length_digits coefficient
  -- A coefficient has at least one digit, so the exponent is negative here.
  rw [show exponent.toNat = 0 by omega, Nat.pow_zero, Nat.mul_one]
  apply nearestRank_eq_zero
  calc 2 * (coefficient * unitsPerOne)
      = coefficient * (2 * unitsPerOne) := Nat.mul_left_comm _ _ _
    _ < 10 ^ (digits coefficient).length * 10 ^ 401 :=
      Nat.mul_lt_mul'' hlt two_mul_unitsPerOne_lt
    _ = 10 ^ ((digits coefficient).length + 401) := by rw [Nat.pow_add]
    _ ≤ 10 ^ (-exponent).toNat := Nat.pow_le_pow_right (by decide) (by omega)

theorem rankLimit_le_of_large {coefficient : Nat} {exponent : Int} (hpos : 0 < coefficient)
    (h : 400 < ((digits coefficient).length : Int) + exponent) :
    rankLimit ≤ nearestRank (coefficient * unitsPerOne * 10 ^ exponent.toNat)
      (10 ^ (-exponent).toNat) := by
  have hle := pow_length_digits_le hpos
  apply le_nearestRank (Nat.pow_pos (by decide))
  calc 10 ^ (-exponent).toNat * units rankLimit
      = 10 ^ (-exponent).toNat * 2 ^ 1024 * unitsPerOne := by
        rw [units_rankLimit, Nat.mul_assoc]
    _ ≤ 10 ^ (-exponent).toNat * 10 ^ 400 * unitsPerOne :=
      Nat.mul_le_mul_right _ (Nat.mul_le_mul_left _ (Nat.le_of_lt largest_lt))
    _ = 10 ^ ((-exponent).toNat + 400) * unitsPerOne := by rw [Nat.pow_add]
    _ ≤ 10 ^ ((digits coefficient).length - 1 + exponent.toNat) * unitsPerOne :=
      Nat.mul_le_mul_right _ (Nat.pow_le_pow_right (by decide) (by omega))
    _ ≤ coefficient * unitsPerOne * 10 ^ exponent.toNat := by
      rw [Nat.pow_add, Nat.mul_right_comm]
      exact Nat.mul_le_mul_right _ (Nat.mul_le_mul_right _ hle)

theorem ofRank_of_le (negative : Bool) {rank : Nat} (h : rankLimit ≤ rank) :
    ofRank negative rank = .infinite negative := by
  simp [ofRank, Nat.not_lt.mpr h]

theorem isNaN_ofRank (negative : Bool) (rank : Nat) : (ofRank negative rank).isNaN = false := by
  unfold ofRank
  split <;> rfl

/-- The two bounds on the size of a decimal do not show in the result. -/
theorem ofDecimal_eq (negative : Bool) (coefficient : Nat) (exponent : Int) :
    ofDecimal negative coefficient exponent =
      ofUnits negative (coefficient * unitsPerOne * 10 ^ exponent.toNat)
        (10 ^ (-exponent).toNat) := by
  obtain rfl | hpos := Nat.eq_zero_or_pos coefficient
  · have hzero : nearestRank 0 (10 ^ (-exponent).toNat) = 0 :=
      nearestRank_eq_zero (Nat.pow_pos (by decide))
    simp [ofDecimal, ofUnits, hzero]
  · have hne : coefficient ≠ 0 := Nat.ne_of_gt hpos
    simp only [ofDecimal, ofUnits, hne, false_or, Nat.pow_eq]
    split
    · next h => rw [nearestRank_of_small h]
    · split
      · next h => rw [ofRank_of_le _ (rankLimit_le_of_large hpos h)]
      · rfl

theorem ofUnits_congr (negative : Bool) {n d n' d' : Nat} (hd : 0 < d) (hd' : 0 < d')
    (h : (n : ℚ) / d = n' / d') : ofUnits negative n d = ofUnits negative n' d' := by
  have hne : (d : ℚ) ≠ 0 := Nat.cast_ne_zero.mpr (Nat.ne_of_gt hd)
  have hne' : (d' : ℚ) ≠ 0 := Nat.cast_ne_zero.mpr (Nat.ne_of_gt hd')
  rw [div_eq_div_iff hne hne'] at h
  rw [ofUnits, nearestRank_congr hd hd' (by exact_mod_cast h), ofUnits]

theorem quotient_eq (coefficient : Nat) (exponent : Int) :
    (coefficient : ℚ) * 10 ^ exponent * unitsPerOne =
      (coefficient * unitsPerOne * 10 ^ exponent.toNat : Nat) / (10 ^ (-exponent).toNat : Nat) := by
  have hten : (10 : ℚ) ≠ 0 := by norm_num
  have hsplit : (10 : ℚ) ^ exponent = 10 ^ exponent.toNat / 10 ^ (-exponent).toNat := by
    rw [← zpow_natCast, ← zpow_natCast, ← zpow_sub₀ hten, Int.toNat_sub_toNat_neg]
  rw [hsplit]
  push_cast
  ring

theorem ofDecimal_eq_ofUnits (negative : Bool) {coefficient n d : Nat} {exponent : Int}
    (hd : 0 < d) (h : (coefficient : ℚ) * 10 ^ exponent * unitsPerOne = n / d) :
    ofDecimal negative coefficient exponent = ofUnits negative n d := by
  rw [ofDecimal_eq]
  refine ofUnits_congr negative (Nat.pow_pos (by decide)) hd ?_
  rw [← h, quotient_eq]

end Number

namespace DecimalLiteral

def magnitude (l : DecimalLiteral) : ℚ := l.coefficient * 10 ^ l.scale

theorem toNumber_eq_ofUnits {l : DecimalLiteral} {n d : Nat} (hd : 0 < d)
    (h : l.magnitude * unitsPerOne = n / d) : l.toNumber = Number.ofUnits l.negative n d :=
  Number.ofDecimal_eq_ofUnits l.negative hd h

theorem toNumber_nearest (l : DecimalLiteral) :
    ∃ rank, Nearest (l.magnitude * unitsPerOne) rank ∧ l.toNumber = .ofRank l.negative rank := by
  rw [magnitude, Number.quotient_eq, toNumber, Number.ofDecimal_eq]
  exact ⟨_, nearest_nearestRank _ (Nat.pow_pos (by decide)), rfl⟩

theorem isNaN_toNumber (l : DecimalLiteral) : l.toNumber.isNaN = false := by
  obtain ⟨rank, -, hnumber⟩ := l.toNumber_nearest
  rw [hnumber, Number.isNaN_ofRank]

end DecimalLiteral
end ScriptBuiltins
