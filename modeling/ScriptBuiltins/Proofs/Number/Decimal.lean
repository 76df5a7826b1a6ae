import ScriptBuiltins.Proofs.Number.Shortest

/-! How long decimal expansions get. No double reaches `2^1024`, and rounding never carries a
magnitude past a whole bound. -/
namespace ScriptBuiltins

theorem length_digits_le {n k : Nat} (hk : 0 < k) (h : n < 10 ^ k) : (digits n).length ≤ k :=
  (Nat.length_toDigits_le_iff (by decide) hk).mpr h

theorem length_paddedDigits (width n : Nat) :
    (paddedDigits width n).length = max width (digits n).length := by
  rw [paddedDigits, List.length_append, List.length_replicate]
  omega

theorem length_positional (places n : Nat) :
    (positional places n).length
      = max (places + 1) (digits n).length + if places = 0 then 0 else 1 := by
  have hpadded := length_paddedDigits (places + 1) n
  simp only [positional, List.length_append, List.length_take]
  split
  · rw [List.length_nil]
    omega
  · rw [List.length_cons, List.length_drop]
    omega

/-! ### Rounding -/

/-- Below a whole bound, a quotient is rounded to the bound at most. -/
theorem halfEven_le {n d bound : Nat} (h : n < bound * d) : halfEven n d ≤ bound := by
  have hquotient : n / d < bound := Nat.div_lt_of_lt_mul (by rwa [Nat.mul_comm])
  rw [halfEven]
  cases compare (2 * (n % d)) d with
  | lt => exact Nat.le_of_lt hquotient
  | eq =>
    rw [nearer]
    omega
  | gt => exact hquotient

theorem roundToPlaces_le {decimal bound : Nat} (h : decimal < bound * 10 ^ exactPlaces)
    (places : Nat) : roundToPlaces decimal places ≤ bound * 10 ^ places := by
  rw [roundToPlaces, Nat.pow_eq, Nat.pow_eq]
  split
  · next hplaces =>
    apply halfEven_le
    rwa [Nat.mul_assoc, ← Nat.pow_add, Nat.add_sub_cancel' hplaces]
  · next hplaces =>
    calc
      decimal * 10 ^ (places - exactPlaces)
          ≤ bound * 10 ^ exactPlaces * 10 ^ (places - exactPlaces) :=
        Nat.mul_le_mul_right _ (Nat.le_of_lt h)
      _ = bound * 10 ^ places := by
        rw [Nat.mul_assoc, ← Nat.pow_add, Nat.add_sub_cancel' (by omega)]

theorem largest_lt_pow : 2 ^ 1024 < 10 ^ (308 + 1) := by decide +kernel

theorem exactDecimal_lt {rank : Nat} (h : rank < rankLimit) :
    exactDecimal rank < 2 ^ 1024 * 10 ^ exactPlaces := by
  have hunits : units rank < 2 ^ 1024 * unitsPerOne := units_rankLimit ▸ units_strictMono h
  have hone : unitsPerOne * decimalsPerUnit = 10 ^ exactPlaces := by
    rw [unitsPerOne_eq, decimalsPerUnit_eq, ← Nat.mul_pow]
  calc
    exactDecimal rank < 2 ^ 1024 * unitsPerOne * decimalsPerUnit :=
      Nat.mul_lt_mul_of_pos_right hunits decimalsPerUnit_pos
    _ = 2 ^ 1024 * 10 ^ exactPlaces := by rw [Nat.mul_assoc, hone]

theorem length_fixedDigits_le {rank bound whole : Nat}
    (h : exactDecimal rank < bound * 10 ^ exactPlaces) (hbound : bound < 10 ^ (whole + 1))
    (places : Nat) :
    (fixedDigits rank places).length ≤ whole + 1 + places + if places = 0 then 0 else 1 := by
  have hvalue : roundToPlaces (exactDecimal rank) places < 10 ^ (whole + 1 + places) :=
    calc
      roundToPlaces (exactDecimal rank) places ≤ bound * 10 ^ places := roundToPlaces_le h places
      _ < 10 ^ (whole + 1) * 10 ^ places :=
        Nat.mul_lt_mul_of_pos_right hbound (Nat.pow_pos (by decide))
      _ = 10 ^ (whole + 1 + places) := (Nat.pow_add ..).symm
  have hdigits := length_digits_le (by omega) hvalue
  rw [fixedDigits, length_positional]
  omega

/-! ### Scientific form -/

namespace Scientific

def leading (rank places : Nat) : Nat :=
  let length := (digits (exactDecimal rank)).length
  if length ≤ places + 1 then exactDecimal rank * 10 ^ (places + 1 - length)
  else halfEven (exactDecimal rank) (10 ^ (length - (places + 1)))

theorem leading_le (rank places : Nat) : leading rank places ≤ 10 ^ (places + 1) := by
  have hlt := lt_pow_length_digits (exactDecimal rank)
  rw [leading]
  generalize (digits (exactDecimal rank)).length = length at hlt ⊢
  split
  · next hshort =>
    calc
      exactDecimal rank * 10 ^ (places + 1 - length) ≤ 10 ^ length * 10 ^ (places + 1 - length) :=
        Nat.mul_le_mul_right _ (Nat.le_of_lt hlt)
      _ = 10 ^ (places + 1) := by rw [← Nat.pow_add, Nat.add_sub_cancel' hshort]
  · apply halfEven_le
    rwa [← Nat.pow_add, Nat.add_sub_cancel' (by omega)]

/-- Rounding moves the exponent up by one at most. The coefficient keeps to `places + 1` digits. -/
theorem ofRank_cases (rank places : Nat) : ofRank rank places = ⟨0, 0⟩ ∨
    ∃ coefficient carry : Nat, coefficient < 10 ^ (places + 1) ∧ carry ≤ 1 ∧ ofRank rank places
      = ⟨coefficient, (digits (exactDecimal rank)).length - 1 - exactPlaces + carry⟩ := by
  have hpow : 10 ^ places < 10 ^ (places + 1) := Nat.pow_lt_pow_succ (by decide)
  by_cases hzero : exactDecimal rank = 0
  · exact .inl (by rw [ofRank, if_pos hzero])
  · rw [ofRank, if_neg hzero]
    by_cases hcarry : leading rank places = 10 ^ (places + 1)
    · exact .inr ⟨10 ^ places, 1, hpow, Nat.le_refl 1, if_pos hcarry⟩
    · refine .inr ⟨leading rank places, 0, ?_, Nat.zero_le 1, ?_⟩
      · exact Nat.lt_of_le_of_ne (leading_le rank places) hcarry
      · rw [Int.natCast_zero, Int.add_zero]
        exact if_neg hcarry

theorem coefficient_ofRank_lt (rank places : Nat) :
    (ofRank rank places).coefficient < 10 ^ (places + 1) := by
  obtain hzero | ⟨coefficient, carry, hlt, -, heq⟩ := ofRank_cases rank places
  · rw [hzero]
    exact Nat.pow_pos (by decide)
  · rwa [heq]

theorem natAbs_exponent_ofRank_le {rank : Nat} (h : rank < rankLimit) (places : Nat) :
    (ofRank rank places).exponent.natAbs ≤ exactPlaces := by
  have hplaces : exactPlaces = 1074 := rfl
  have hpos : 0 < (digits (exactDecimal rank)).length := Nat.length_toDigits_pos
  -- The power of ten stays symbolic, so that it is not computed.
  have hlength {whole : Nat} (hlargest : 2 ^ 1024 < 10 ^ whole) :
      (digits (exactDecimal rank)).length ≤ whole + exactPlaces := by
    apply length_digits_le (by omega)
    rw [Nat.pow_add]
    exact Nat.lt_of_lt_of_le (exactDecimal_lt h)
      (Nat.mul_le_mul_right _ (Nat.le_of_lt hlargest))
  have hle := hlength largest_lt_pow
  obtain hzero | ⟨coefficient, carry, -, hcarry, heq⟩ := ofRank_cases rank places
  · rw [hzero]
    exact Nat.zero_le _
  · simp only [heq]
    omega

theorem exactDecimal_lt_of_exponent {rank places : Nat} (h : (ofRank rank places).exponent < 0) :
    exactDecimal rank < 10 ^ exactPlaces := by
  obtain hzero | ⟨coefficient, carry, -, -, heq⟩ := ofRank_cases rank places
  · rw [hzero] at h
    contradiction
  · simp only [heq] at h
    exact Nat.lt_of_lt_of_le (lt_pow_length_digits _) (Nat.pow_le_pow_right (by decide) (by omega))

end Scientific

end ScriptBuiltins
