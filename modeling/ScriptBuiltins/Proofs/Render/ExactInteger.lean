import ScriptBuiltins.Proofs.Number.Decimal
import ScriptBuiltins.Proofs.Number.RoundTrip
import ScriptBuiltins.Proofs.Render.EqualValues
import ScriptBuiltins.Proofs.Render.ReadBack

/-!
Whole numbers up to `2^53` are written in full. Among whole numbers none but the number itself reads
back as it, so the search for the shortest digits drops nothing but zeros at the end.
-/
namespace ScriptBuiltins

/-! ### Whole numbers that read back -/

theorem decimal_one : unitsPerOne * decimalsPerUnit = 10 ^ exactPlaces := by
  rw [unitsPerOne_eq, decimalsPerUnit_eq, ← Nat.mul_pow]

theorem exists_units_double {n : ℕ} (hlow : binade ≤ n) (hhigh : n ≤ 2 * binade) :
    ∃ rank < rankLimit, units rank = 2 * n * unitsPerOne := by
  refine ⟨(exactPlaces + 1) * binade + n, ?_, ?_⟩
  · have hlimit : rankLimit = (exactPlaces + 1) * binade + 972 * binade := by
      rw [rankLimit, ← Nat.add_mul]
      rfl
    have hpos := binade_pos
    omega
  · rw [units_split (.inr hlow) hhigh, unitsPerOne_eq, Nat.pow_succ']
    ring

theorem exists_units_le {n : ℕ} (h : n ≤ 2 ^ 53) :
    ∃ rank < rankLimit, units rank = n * unitsPerOne := by
  obtain hlt | rfl := Nat.lt_or_eq_of_le h
  · exact Number.exists_units_eq hlt
  · have hdouble : 2 ^ 53 = 2 * binade := by
      rw [binade_eq]
      decide
    rw [hdouble]
    exact exists_units_double (Nat.le_refl _) (Nat.le_mul_of_pos_left _ Nat.two_pos)

theorem exists_units_next : ∃ rank, units rank = (2 ^ 53 + 2) * unitsPerOne := by
  have hdouble : 2 ^ 53 + 2 = 2 * (2 ^ 52 + 1) := by decide
  have hle : 2 ^ 52 + 1 ≤ 2 * 2 ^ 52 := by decide
  rw [← binade_eq] at hdouble hle
  obtain ⟨rank, -, hrank⟩ := exists_units_double (Nat.le_succ binade) hle
  exact ⟨rank, by rw [hrank, hdouble]⟩

section
variable {rank n : ℕ} (hunits : units rank = n * unitsPerOne)

include hunits in
theorem exactDecimal_whole : exactDecimal rank = n * 10 ^ exactPlaces := by
  rw [exactDecimal, hunits, Nat.mul_assoc, decimal_one]

theorem eq_of_nearestRank {m : ℕ} (hm : m ≤ 2 ^ 53)
    (h : nearestRank (m * unitsPerOne) 1 = rank) : m * unitsPerOne = units rank := by
  obtain ⟨r, -, hr⟩ := exists_units_le hm
  rw [← h, ← hr, ← Nat.mul_one (units r), nearestRank_units r Nat.one_pos, Nat.mul_one]

include hunits in
/-- Of all whole numbers only this one reads back, and also the middle behind `2^53`. -/
theorem eq_or_eq_of_readsBack (hn : n ≤ 2 ^ 53) {m : ℕ}
    (h : readsBack rank (m * 10 ^ exactPlaces)) : m = n ∨ m = 2 ^ 53 + 1 := by
  have hnearest : nearestRank (m * unitsPerOne) 1 = rank := by
    rw [readsBack_iff, ← decimal_one, ← Nat.mul_assoc] at h
    rw [← h, ← nearestRank_mul_right (m * unitsPerOne) 1 decimalsPerUnit_pos, Nat.one_mul]
  by_cases hm : m ≤ 2 ^ 53
  · left
    have hsame := eq_of_nearestRank hm hnearest
    rw [hunits] at hsame
    exact Nat.eq_of_mul_eq_mul_right unitsPerOne_pos hsame
  · right
    apply Nat.le_antisymm _ (Nat.lt_of_not_le hm)
    apply Nat.le_of_not_lt
    intro hfar
    obtain ⟨r, hr⟩ := exists_units_next
    have hle : r ≤ rank := by
      rw [← hnearest]
      apply le_nearestRank Nat.one_pos
      rw [hr, Nat.one_mul]
      exact Nat.mul_le_mul_right _ hfar
    have hbound := units_strictMono.monotone hle
    rw [hr, hunits] at hbound
    have hlow := Nat.le_of_mul_le_mul_right hbound unitsPerOne_pos
    exact absurd (Nat.le_trans hlow hn) (by decide)

/-! ### The search -/

include hunits in
theorem gridPoint?_one (tie : Tie) : gridPoint? tie rank exactPlaces = some n := by
  have hdecimal := exactDecimal_whole hunits
  have hreads := readsBack_exactDecimal rank
  have hpos : 0 < 10 ^ exactPlaces := Nat.pow_pos (by decide)
  have hstep (k : ℕ) : Nat.pow 10 k = 10 ^ k := Nat.pow_eq
  rw [hdecimal] at hreads
  simp only [gridPoint?, hstep, hdecimal]
  generalize 10 ^ exactPlaces = step at hpos hreads ⊢
  have hside : compare (2 * (n * step)) ((2 * n + 1) * step) = .lt := by
    rw [← Nat.mul_assoc, compare_mul_right _ _ hpos]
    exact Nat.compare_eq_lt.mpr (Nat.lt_succ_self _)
  rw [Nat.mul_div_cancel n hpos, hreads, hside]
  cases readsBack rank ((n + 1) * step) <;> rfl

include hunits in
/-- A coarser grid has the number itself or nothing: `2^53 + 1` is no multiple of ten. -/
theorem mul_of_gridPoint? (hn : n ≤ 2 ^ 53) {tie : Tie} {j c : ℕ}
    (h : gridPoint? tie rank (exactPlaces + j + 1) = some c) : c * 10 ^ (j + 1) = n := by
  have hreads := readsBack_gridPoint? h
  rw [Nat.add_assoc, Nat.add_comm exactPlaces, Nat.pow_add, ← Nat.mul_assoc] at hreads
  obtain heq | heq := eq_or_eq_of_readsBack hunits hn hreads
  · exact heq
  · rw [Nat.pow_succ, ← Nat.mul_assoc] at heq
    omega

include hunits in
theorem shortestFrom_whole (hn : n ≤ 2 ^ 53) (tie : Tie) (j : ℕ) :
    ∃ c k, shortestFrom tie rank (exactPlaces + j) = (c, exactPlaces + k) ∧ c * 10 ^ k = n := by
  induction j with
  | zero =>
    have hsucc : exactPlaces = exactPlaces - 1 + 1 := rfl
    refine ⟨n, 0, ?_, Nat.mul_one n⟩
    rw [Nat.add_zero, hsucc, shortestFrom, ← hsucc, gridPoint?_one hunits]
    rfl
  | succ j ih =>
    rw [← Nat.add_assoc, shortestFrom]
    cases hpoint : gridPoint? tie rank (exactPlaces + j + 1) with
    | none => exact ih
    | some c => exact ⟨c, j + 1, rfl, mul_of_gridPoint? hunits hn hpoint⟩

/-! ### The digits -/

theorem digits_mul_pow {c : ℕ} (hc : 0 < c) (k : ℕ) :
    digits (c * 10 ^ k) = digits c ++ List.replicate k '0' := by
  induction k with
  | zero => rw [Nat.pow_zero, Nat.mul_one, List.replicate_zero, List.append_nil]
  | succ k ih =>
    have hpos : 0 < c * 10 ^ k := Nat.mul_pos hc (Nat.pow_pos (by decide))
    rw [Nat.pow_succ, ← Nat.mul_assoc, digits_eq_append (by omega),
      Nat.mul_div_cancel _ (by decide), Nat.mul_mod_left, ih, List.replicate_succ',
      List.append_assoc]
    rfl

theorem exists_zeros_leadingDigits {c : ℕ} (hc : 0 < c) (k : ℕ) : ∃ zeros,
    digits (c * 10 ^ k) = (leadingDigits c (exactPlaces + k)).1 ++ List.replicate zeros '0' ∧
      (leadingDigits c (exactPlaces + k)).1 ≠ [] ∧
      (leadingDigits c (exactPlaces + k)).2 = (digits (c * 10 ^ k)).length - 1 := by
  obtain ⟨zeros, hsplit, hkept⟩ := (significant_digits hc).exists_trailing
  have hdigits := digits_mul_pow hc k
  refine ⟨zeros + k, ?_, hkept.nonempty, ?_⟩
  · rw [hdigits, ← List.replicate_append_replicate, ← List.append_assoc]
    exact congrArg (· ++ List.replicate k '0') hsplit
  · rw [hdigits, List.length_append, List.length_replicate, leadingDigits]
    omega

theorem Layout.plain_whole {layout : Layout} (hpoint : layout.pointZero = false) {ds : List Char}
    (hds : ds ≠ []) (zeros : ℕ) {exponent : ℤ}
    (hexponent : exponent = (ds ++ List.replicate zeros '0').length - 1) :
    layout.plain ds exponent = ds ++ List.replicate zeros '0' := by
  have hpos := List.length_pos_iff.mpr hds
  rw [List.length_append, List.length_replicate] at hexponent
  have hwhole : exponent.toNat + 1 = ds.length + zeros := by omega
  rw [plain, if_neg (by omega)]
  simp only [hwhole, hpoint, Nat.le_add_right, if_true, Nat.add_sub_cancel_left,
    Bool.false_eq_true, if_false, List.append_nil]

include hunits in
theorem magnitude_whole (hpos : 0 < n) (hn : n ≤ 2 ^ 53) :
    Layout.script.magnitude rank = digits n := by
  have hne := List.length_pos_iff.mpr (digits_ne_nil n)
  have hstart : (digits (exactDecimal rank)).length - 1
      = exactPlaces + ((digits n).length - 1) := by
    rw [exactDecimal_whole hunits, digits_mul_pow hpos, List.length_append, List.length_replicate]
    omega
  have hshort : (digits n).length ≤ 16 :=
    length_digits_le (by decide) (Nat.lt_of_le_of_lt hn (by decide))
  obtain ⟨c, k, hfound, rfl⟩ :=
    shortestFrom_whole hunits hn Layout.script.tie ((digits n).length - 1)
  obtain ⟨zeros, hdigits, hleading, hexponent⟩ :=
    exists_zeros_leadingDigits (Nat.pos_of_mul_pos_right hpos) k
  rw [Layout.magnitude, shortestDigits, hstart, hfound]
  have hplain : Layout.script.plainFrom ≤ (leadingDigits c (exactPlaces + k)).2 ∧
      (leadingDigits c (exactPlaces + k)).2 < Layout.script.plainBelow := by
    rw [hexponent, show Layout.script.plainFrom = -6 from rfl,
      show Layout.script.plainBelow = 21 from rfl]
    omega
  rw [Layout.arrange, if_pos hplain,
    Layout.plain_whole rfl hleading zeros (by rw [hexponent, hdigits]), hdigits]

end

/-! ### Numbers -/

namespace Number

variable {negative : Bool} {rank : Fin rankLimit} {m : ℕ} (hunits : units rank = m * unitsPerOne)
  (hm : m ≤ 2 ^ 53)

include hunits hm

theorem toText_whole :
    (finite negative rank).toText = signed (negative && m != 0) (digits m) := by
  obtain rfl | hpos := Nat.eq_zero_or_pos m
  · rw [Nat.zero_mul, units_eq_zero] at hunits
    rw [toText_zero hunits, bne_self_eq_false, Bool.and_false]
    rfl
  · have hrank : rank.val ≠ 0 := by
      rw [← units_eq_zero.ne, hunits]
      exact Nat.ne_of_gt (Nat.mul_pos hpos unitsPerOne_pos)
    rw [toText, if_neg hrank, magnitude_whole hunits hpos hm,
      bne_iff_ne.mpr (Nat.ne_of_gt hpos), Bool.and_true]

theorem toJson_whole :
    (finite negative rank).toJson = signed (negative && m != 0) (digits m) := by
  have hexact : m ≤ exactIntegerLimit := by rwa [exactIntegerLimit, Nat.pow_eq]
  simp only [toJson, hunits, Nat.mul_div_cancel m unitsPerOne_pos, Nat.mul_mod_left, hexact,
    and_self, if_true]

omit hunits hm

theorem render_json (x : Number) (config : Config) :
    Directive.render ⟨{}, none, none, none, .json⟩ (.number x) config = some x.toJson := by
  simp [Directive.render, Directive.field, Field.pad, Field.text, Value.toJson]

theorem exists_of_value?_eq {x : Number} {n : ℤ} (h : x.value? = some (n : ℚ)) :
    ∃ negative rank, x = .finite negative rank ∧ units rank = n.natAbs * unitsPerOne ∧
      decide (n < 0) = (negative && n.natAbs != 0) := by
  cases x with
  | nan => cases h
  | infinite negative => cases h
  | finite negative rank =>
    have hnonneg := rankValue_nonneg rank
    have hvalue : (if negative then -rankValue rank else rankValue rank) = n := Option.some.inj h
    refine ⟨negative, rank, rfl, ?_, ?_⟩
    · have hone : (unitsPerOne : ℚ) ≠ 0 := Nat.cast_ne_zero.mpr (Nat.ne_of_gt unitsPerOne_pos)
      have habs : rankValue rank = (n.natAbs : ℚ) := by
        rw [Nat.cast_natAbs, Int.cast_abs, ← hvalue]
        cases negative <;> simp [abs_of_nonneg hnonneg]
      rw [rankValue, div_eq_iff hone] at habs
      exact_mod_cast habs
    · cases negative with
      | true =>
        have hle : n ≤ 0 := by
          rw [← Int.cast_nonpos (R := ℚ), ← hvalue]
          simpa using hnonneg
        rw [Bool.true_and, Bool.eq_iff_iff, decide_eq_true_iff, bne_iff_ne]
        omega
      | false =>
        have hle : 0 ≤ n := by
          rw [← Int.cast_nonneg_iff (R := ℚ), ← hvalue]
          simpa using hnonneg
        rw [Bool.false_and, decide_eq_false_iff_not]
        omega

theorem value?_ofInt {n : ℤ} (hn : n.natAbs ≤ 2 ^ 53) : (ofInt n).value? = some (n : ℚ) := by
  obtain ⟨rank, hlt, hunits⟩ := exists_units_le hn
  have hrank : nearestRank (n.natAbs * unitsPerOne) 1 = rank := by
    rw [← hunits, ← Nat.mul_one (units rank)]
    exact nearestRank_units rank Nat.one_pos
  have hvalue : rankValue rank = |(n : ℚ)| := by
    have hone : (unitsPerOne : ℚ) ≠ 0 := Nat.cast_ne_zero.mpr (Nat.ne_of_gt unitsPerOne_pos)
    rw [rankValue, hunits, Nat.cast_mul, mul_div_cancel_right₀ _ hone, Nat.cast_natAbs,
      Int.cast_abs]
  rw [ofInt, ofUnits, hrank, ofRank_of_lt _ hlt, value?, hvalue]
  by_cases hneg : n < 0
  · have hcast : (n : ℚ) < 0 := Int.cast_lt_zero.mpr hneg
    rw [decide_eq_true hneg, if_pos rfl, abs_of_neg hcast, neg_neg]
  · have hcast : 0 ≤ (n : ℚ) := Int.cast_nonneg (Int.not_lt.mp hneg)
    rw [decide_eq_false hneg, if_neg Bool.false_ne_true, abs_of_nonneg hcast]

/-- An integer of up to `2^53` is a number exactly, and each number that is it, also a negative
zero, is written in full by `%s` and by `%r`: a minus sign if it is negative, and its digits. -/
theorem exact_integer_digits {n : ℤ} (hn : n.natAbs ≤ 2 ^ 53) :
    (ofInt n).value? = some (n : ℚ) ∧
    ∀ x : Number, x.value? = some (n : ℚ) → ∀ template ∈ ["%s", "%r"], ∀ config : Config,
      (formatWith template [.number x] config).result
        = .ok (signed (n < 0) (digits n.natAbs)) := by
  refine ⟨value?_ofInt hn, fun x hx template htemplate config => ?_⟩
  obtain ⟨negative, rank, rfl, hunits, hsign⟩ := exists_of_value?_eq hx
  rw [hsign]
  obtain rfl | rfl : template = "%s" ∨ template = "%r" := by simpa using htemplate
  · have hparse : Template.parse "%s"
        = .ok ⟨"%s", [.directive ⟨{}, none, none, none, .text⟩ 0]⟩ := by decide +kernel
    apply Directive.result_formatWith hparse rfl rfl
    rw [render_text, toText_whole hunits hn]
  · have hparse : Template.parse "%r"
        = .ok ⟨"%r", [.directive ⟨{}, none, none, none, .json⟩ 0]⟩ := by decide +kernel
    apply Directive.result_formatWith hparse rfl rfl
    rw [render_json, toJson_whole hunits hn]

theorem exact_integer_digits_limit :
    let n : ℤ := -9007199254740992
    let x : Number := .finite true ⟨0, by decide⟩
    n.natAbs ≤ 2 ^ 53 ∧ (0 : ℤ).natAbs ≤ 2 ^ 53 ∧ (ofInt n).value? = some (n : ℚ) ∧
      x.value? = some ((0 : ℤ) : ℚ) ∧ ∀ template ∈ ["%s", "%r"],
        (formatWith template [.number (ofInt n)] {}).result = .ok "-9007199254740992".toList ∧
        (formatWith template [.number x] {}).result = .ok "0".toList := by
  intro n x
  have hn : n.natAbs ≤ 2 ^ 53 := by decide
  have hzero : x.value? = some ((0 : ℤ) : ℚ) := by
    have hrank : -rankValue 0 = ((0 : ℤ) : ℚ) := by
      rw [rankValue, units_zero, Nat.cast_zero, zero_div, neg_zero, Int.cast_zero]
    exact congrArg some hrank
  have hdigits : signed (n < 0) (digits n.natAbs) = "-9007199254740992".toList := by
    decide +kernel
  obtain ⟨hvalue, hshown⟩ := exact_integer_digits hn
  obtain ⟨-, hshown'⟩ := exact_integer_digits (n := 0) (by decide)
  rw [hdigits] at hshown
  refine ⟨hn, by decide, hvalue, hzero, fun template htemplate => ?_⟩
  exact ⟨hshown _ hvalue template htemplate {}, hshown' x hzero template htemplate {}⟩

end Number

end ScriptBuiltins
