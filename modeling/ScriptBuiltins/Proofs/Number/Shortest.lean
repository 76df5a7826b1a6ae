import ScriptBuiltins.Number.Shortest
import ScriptBuiltins.Proofs.Number.Literal

/-!
The shortest digits of a magnitude read back as it, whichever grid they were found on.
-/
namespace ScriptBuiltins

theorem decimalsPerUnit_eq : decimalsPerUnit = 5 ^ exactPlaces := Nat.pow_eq

theorem decimalsPerUnit_pos : 0 < decimalsPerUnit := by
  rw [decimalsPerUnit_eq]
  exact Nat.pow_pos (by decide)

theorem readsBack_iff {rank decimal : Nat} :
    readsBack rank decimal = true ↔ nearestRank decimal decimalsPerUnit = rank := by
  rw [readsBack, beq_iff_eq]

theorem readsBack_exactDecimal (rank : Nat) : readsBack rank (exactDecimal rank) = true :=
  readsBack_iff.mpr (nearestRank_units rank decimalsPerUnit_pos)

theorem Tie.choose_eq (tie : Tie) (low : Nat) (side : Ordering) :
    tie.choose low side = low ∨ tie.choose low side = low + 1 := by
  cases side with
  | lt => exact .inl rfl
  | gt => exact .inr rfl
  | eq =>
    rw [Tie.choose]
    split
    · exact .inl rfl
    · exact .inr rfl

theorem Tie.of_pick? {tie : Tie} {low c : Nat} {side : Ordering} {lowReads highReads : Bool}
    (h : tie.pick? low side lowReads highReads = some c) :
    (c = low ∧ lowReads = true) ∨ (c = low + 1 ∧ highReads = true) := by
  cases lowReads <;> cases highReads <;>
    simp only [Tie.pick?, Option.some.injEq, reduceCtorEq] at h
  case false.true => exact .inr ⟨h.symm, rfl⟩
  case true.false => exact .inl ⟨h.symm, rfl⟩
  case true.true =>
    subst h
    cases tie.choose_eq low side with
    | inl hc => exact .inl ⟨hc, rfl⟩
    | inr hc => exact .inr ⟨hc, rfl⟩

theorem readsBack_gridPoint? {tie : Tie} {rank k c : Nat} (h : gridPoint? tie rank k = some c) :
    readsBack rank (c * 10 ^ k) = true := by
  rw [gridPoint?] at h
  rw [← Nat.pow_eq]
  obtain ⟨rfl, hlow⟩ | ⟨rfl, hhigh⟩ := Tie.of_pick? h
  · exact hlow
  · exact hhigh

theorem readsBack_shortestFrom (tie : Tie) (rank k : Nat) :
    readsBack rank ((shortestFrom tie rank k).1 * 10 ^ (shortestFrom tie rank k).2) = true := by
  induction k with
  | zero =>
    rw [shortestFrom, Nat.pow_zero, Nat.mul_one]
    exact readsBack_exactDecimal rank
  | succ k ih =>
    rw [shortestFrom]
    cases hpoint : gridPoint? tie rank (k + 1) with
    | none => exact ih
    | some c => exact readsBack_gridPoint? hpoint

theorem Significant.exists_trailing {ds : List Char} (h : Significant ds) :
    ∃ n, ds = (ds.reverse.dropWhile (· == '0')).reverse ++ List.replicate n '0' ∧
      Significant (ds.reverse.dropWhile (· == '0')).reverse := by
  have hsplit : ds = (ds.reverse.dropWhile (· == '0')).reverse ++
      (ds.reverse.takeWhile (· == '0')).reverse := by
    rw [← List.reverse_append, List.takeWhile_append_dropWhile, List.reverse_reverse]
  have hzeros : (ds.reverse.takeWhile (· == '0')).reverse =
      List.replicate (ds.reverse.takeWhile (· == '0')).length '0' := by
    rw [← List.reverse_replicate, List.reverse_inj, List.eq_replicate_iff]
    refine ⟨rfl, fun c hc => ?_⟩
    have htaken := List.all_eq_true.mp List.all_takeWhile c hc
    exact beq_iff_eq.mp htaken
  rw [hzeros] at hsplit
  generalize (ds.reverse.dropWhile (· == '0')).reverse = kept at hsplit
  generalize (ds.reverse.takeWhile (· == '0')).length = n at hsplit
  subst hsplit
  refine ⟨n, rfl, h.of_append ?_⟩
  rintro rfl
  cases n with
  | zero => exact h.nonempty rfl
  | succ n => exact h.head rfl

/-- The value of digits of which the first stands for `10^exponent`. -/
def scaledValue (ds : List Char) (exponent : Int) : ℚ :=
  decimalValue ds * 10 ^ (exponent + 1 - ds.length)

theorem scaledValue_append_zeros (ds : List Char) (n : Nat) (exponent : Int) :
    scaledValue (ds ++ List.replicate n '0') exponent = scaledValue ds exponent := by
  have hten : (10 : ℚ) ≠ 0 := by norm_num
  rw [scaledValue, scaledValue, decimalValue_append, decimalValue_zeros, List.length_append,
    List.length_replicate, Nat.add_zero]
  rw [show exponent + 1 - (ds.length : Int) = exponent + 1 - ((ds.length + n : Nat) : Int) + n by
    omega, zpow_add₀ hten, zpow_natCast]
  push_cast
  ring

theorem leadingDigits_spec {c : Nat} (hpos : 0 < c) (k : Nat) :
    Significant (leadingDigits c k).1 ∧
      scaledValue (leadingDigits c k).1 (leadingDigits c k).2 = c * 10 ^ k / 10 ^ exactPlaces := by
  obtain ⟨n, hsplit, hkept⟩ := (significant_digits hpos).exists_trailing
  refine ⟨hkept, ?_⟩
  have hten : (10 : ℚ) ≠ 0 := by norm_num
  rw [leadingDigits, ← scaledValue_append_zeros _ n, ← hsplit, scaledValue, decimalValue_digits]
  rw [show ((digits c).length : Int) - 1 + k - exactPlaces + 1 - (digits c).length
    = k - exactPlaces by omega, zpow_sub₀ hten, zpow_natCast, zpow_natCast, mul_div_assoc]

theorem shortestDigits_spec (tie : Tie) {rank : Nat} (hrank : rank ≠ 0) :
    Significant (shortestDigits tie rank).1 ∧ ∃ c k, readsBack rank (c * 10 ^ k) = true ∧
      scaledValue (shortestDigits tie rank).1 (shortestDigits tie rank).2
        = c * 10 ^ k / 10 ^ exactPlaces := by
  have hback := readsBack_shortestFrom tie rank ((digits (exactDecimal rank)).length - 1)
  rw [shortestDigits]
  generalize shortestFrom tie rank ((digits (exactDecimal rank)).length - 1) = found at hback
  obtain ⟨c, k⟩ := found
  have hpos : 0 < c := by
    apply Nat.pos_of_ne_zero
    rintro rfl
    rw [readsBack_iff, Nat.zero_mul, nearestRank_eq_zero decimalsPerUnit_pos] at hback
    exact hrank hback.symm
  obtain ⟨hsignificant, hvalue⟩ := leadingDigits_spec hpos k
  exact ⟨hsignificant, c, k, hback, hvalue⟩

theorem unitsPerOne_mul : (unitsPerOne : ℚ) * decimalsPerUnit = 10 ^ exactPlaces := by
  rw [unitsPerOne_eq, decimalsPerUnit_eq]
  push_cast
  rw [← mul_pow]
  norm_num only

/-- A literal of the value of the shortest digits is the number they were taken from. -/
theorem toNumber_of_shortest {tie : Tie} {rank : Nat} (hrank : rank ≠ 0) {l : DecimalLiteral}
    (h : l.magnitude = scaledValue (shortestDigits tie rank).1 (shortestDigits tie rank).2) :
    l.toNumber = .ofRank l.negative rank := by
  obtain ⟨-, c, k, hback, hvalue⟩ := shortestDigits_spec tie hrank
  have hne : (decimalsPerUnit : ℚ) ≠ 0 := Nat.cast_ne_zero.mpr (Nat.ne_of_gt decimalsPerUnit_pos)
  have hunits : (unitsPerOne : ℚ) ≠ 0 := Nat.cast_ne_zero.mpr (Nat.ne_of_gt unitsPerOne_pos)
  have hquotient : l.magnitude * unitsPerOne = (c * 10 ^ k : Nat) / decimalsPerUnit := by
    rw [h, hvalue, ← unitsPerOne_mul]
    push_cast
    field_simp
  rw [DecimalLiteral.toNumber_eq_ofUnits decimalsPerUnit_pos hquotient, Number.ofUnits,
    readsBack_iff.mp hback]

end ScriptBuiltins
