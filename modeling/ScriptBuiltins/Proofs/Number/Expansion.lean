import Mathlib.Data.Int.Log
import Mathlib.Tactic.Linarith
import ScriptBuiltins.Proofs.Json.Number
import ScriptBuiltins.Proofs.Number.Decimal
import ScriptBuiltins.Proofs.Number.Word

/-!
Decimal expansions are rounded correctly: the digits of a magnitude to a number of places, or to a
number of significant digits, denote the nearest multiple of their last place, and of two the even
one.
-/
namespace ScriptBuiltins

/-- A value rounded to a multiple of a step: it is half a step away at most, and then the multiple
is even. -/
def RoundsTo (step x y : ℚ) : Prop :=
  ∃ n : ℕ, y = n * step ∧ |x - y| ≤ step / 2 ∧ (|x - y| = step / 2 → n % 2 = 0)

theorem RoundsTo.mul {step x y k : ℚ} (h : RoundsTo step x y) (hk : 0 < k) :
    RoundsTo (step * k) (x * k) (y * k) := by
  obtain ⟨n, rfl, hnear, heven⟩ := h
  have hdistance : |x * k - n * step * k| = |x - n * step| * k := by
    rw [← sub_mul, abs_mul, abs_of_pos hk]
  have hhalf : step * k / 2 = step / 2 * k := by ring
  refine ⟨n, mul_assoc _ _ _, ?_, ?_⟩
  · rw [hdistance, hhalf]
    exact mul_le_mul_of_nonneg_right hnear hk.le
  · rw [hdistance, hhalf, mul_left_inj' hk.ne']
    exact heven

theorem roundsTo_multiple {step : ℚ} (hstep : 0 < step) (n : ℕ) :
    RoundsTo step (n * step) (n * step) := by
  refine ⟨n, rfl, ?_, ?_⟩
  · rw [sub_self, abs_zero]
    linarith
  · rw [sub_self, abs_zero]
    intro h
    linarith

theorem le_of_halves {step x : ℚ} (hstep : 0 < step) {m n : ℕ} (hm : |x - m * step| ≤ step / 2)
    (hmeven : |x - m * step| = step / 2 → m % 2 = 0) (hn : |x - n * step| ≤ step / 2)
    (hneven : |x - n * step| = step / 2 → n % 2 = 0) : m ≤ n := by
  by_contra hlt
  obtain ⟨hlow, -⟩ := abs_le.mp hm
  obtain ⟨-, hhigh⟩ := abs_le.mp hn
  have hgap : (m : ℚ) * step ≤ (n + 1 : ℕ) * step := by
    push_cast
    linarith
  have hnext : m = n + 1 := by
    have hle : m ≤ n + 1 := Nat.cast_le.mp (le_of_mul_le_mul_right hgap hstep)
    omega
  subst hnext
  push_cast at hlow
  -- The value is in the middle of both, so both are even.
  have hmiddle : x - n * step = step / 2 := by linarith
  have hhalf : |step / 2| = step / 2 := abs_of_pos (half_pos hstep)
  have hnhalf : n % 2 = 0 := hneven (by rw [hmiddle, hhalf])
  have hmhalf : (n + 1) % 2 = 0 := by
    apply hmeven
    have hother : x - (n + 1 : ℕ) * step = -(step / 2) := by
      push_cast
      linarith
    rw [hother, abs_neg, hhalf]
  omega

theorem RoundsTo.unique {step x y z : ℚ} (hstep : 0 < step) (hy : RoundsTo step x y)
    (hz : RoundsTo step x z) : y = z := by
  obtain ⟨m, rfl, hm, hmeven⟩ := hy
  obtain ⟨n, rfl, hn, hneven⟩ := hz
  rw [Nat.le_antisymm (le_of_halves hstep hm hmeven hn hneven)
    (le_of_halves hstep hn hneven hm hmeven)]

/-- What is rounded to a multiple of a bigger step is rounded to it by that step as well, and is not
in the middle of two of them. -/
theorem RoundsTo.coarsen {step big x : ℚ} {n : ℕ} (h : RoundsTo step x (n * big))
    (hlt : step < big) : RoundsTo big x (n * big) := by
  obtain ⟨m, -, hnear, -⟩ := h
  refine ⟨n, rfl, by linarith, fun hhalf => ?_⟩
  linarith

theorem halfEven_cases (n : ℕ) {d : ℕ} (hd : 0 < d) :
    ∃ r : ℤ, (n : ℤ) = halfEven n d * d + r ∧ 2 * r.natAbs ≤ d ∧
      (2 * r.natAbs = d → halfEven n d % 2 = 0) := by
  have hlt := Nat.mod_lt n hd
  have hdown : (n : ℤ) = (n / d : ℕ) * d + (n % d : ℕ) := by
    exact_mod_cast (Nat.div_add_mod' n d).symm
  have hup : (n : ℤ) = (n / d + 1 : ℕ) * d + ((n % d : ℕ) - d) := by
    push_cast at hdown ⊢
    linarith
  rw [halfEven]
  cases hside : compare (2 * (n % d)) d with
  | lt =>
    rw [Nat.compare_eq_lt] at hside
    exact ⟨(n % d : ℕ), hdown, by omega, by omega⟩
  | eq =>
    rw [Nat.compare_eq_eq] at hside
    rw [nearer]
    cases Nat.mod_two_eq_zero_or_one (n / d) with
    | inl heven =>
      rw [heven, Nat.add_zero]
      exact ⟨(n % d : ℕ), hdown, by omega, fun _ => heven⟩
    | inr hodd =>
      rw [hodd]
      exact ⟨(n % d : ℕ) - d, hup, by omega, by omega⟩
  | gt =>
    rw [Nat.compare_eq_gt] at hside
    exact ⟨(n % d : ℕ) - d, hup, by omega, by omega⟩

theorem le_halfEven (n d : ℕ) : n / d ≤ halfEven n d := by
  rw [halfEven]
  cases compare (2 * (n % d)) d with
  | lt => exact Nat.le_refl _
  | eq => exact Nat.le_add_right _ _
  | gt => exact Nat.le_succ _

theorem roundsTo_halfEven (n : ℕ) {d : ℕ} (hd : 0 < d) :
    RoundsTo d n (halfEven n d * d) := by
  obtain ⟨r, hsplit, hnear, heven⟩ := halfEven_cases n hd
  have hdistance : 2 * |(n : ℚ) - halfEven n d * d| = (2 * r.natAbs : ℕ) := by
    have hcast : (n : ℚ) = halfEven n d * d + r := by exact_mod_cast hsplit
    rw [hcast, add_sub_cancel_left, Nat.cast_mul, Nat.cast_natAbs, Int.cast_abs, Nat.cast_ofNat]
  refine ⟨halfEven n d, rfl, ?_, ?_⟩
  · rw [le_div_iff₀' two_pos, hdistance]
    exact Nat.cast_le.mpr hnear
  · rw [eq_div_iff two_ne_zero, mul_comm, hdistance]
    exact fun h => heven (Nat.cast_injective h)

/-! ### Places -/

theorem ten_zpow_pos (e : ℤ) : (0 : ℚ) < 10 ^ e := zpow_pos (by norm_num) e

theorem ten_zpow_sub (k : ℕ) :
    (10 : ℚ) ^ ((k : ℤ) - exactPlaces) = (10 ^ k : ℕ) * 10 ^ (-exactPlaces : ℤ) := by
  have hten : (10 : ℚ) ≠ 0 := by norm_num
  rw [sub_eq_add_neg, zpow_add₀ hten, zpow_natCast, Nat.cast_pow, Nat.cast_ofNat]

theorem rankValue_eq (rank : ℕ) :
    rankValue rank = exactDecimal rank * (10 : ℚ) ^ (-exactPlaces : ℤ) := by
  have hne : (decimalsPerUnit : ℚ) ≠ 0 := Nat.cast_ne_zero.mpr decimalsPerUnit_pos.ne'
  rw [rankValue, exactDecimal, zpow_neg, zpow_natCast, ← unitsPerOne_mul, Nat.cast_mul,
    ← div_eq_mul_inv, mul_div_mul_right _ _ hne]

theorem roundsTo_halfEven_pow (decimal k : ℕ) :
    RoundsTo (10 ^ ((k : ℤ) - exactPlaces)) (decimal * (10 : ℚ) ^ (-exactPlaces : ℤ))
      (halfEven decimal (10 ^ k) * 10 ^ ((k : ℤ) - exactPlaces)) := by
  rw [ten_zpow_sub, ← mul_assoc]
  exact (roundsTo_halfEven decimal (Nat.pow_pos (by decide))).mul (ten_zpow_pos _)

theorem roundsTo_mul_pow (decimal k : ℕ) :
    RoundsTo (10 ^ (-(k : ℤ) - exactPlaces)) (decimal * (10 : ℚ) ^ (-exactPlaces : ℤ))
      ((decimal * 10 ^ k : ℕ) * 10 ^ (-(k : ℤ) - exactPlaces)) := by
  have hten : (10 : ℚ) ≠ 0 := by norm_num
  have hexponent : (k : ℤ) + (-k - exactPlaces) = -exactPlaces := by ring
  have hsame : (decimal : ℚ) * 10 ^ (-exactPlaces : ℤ)
      = (decimal * 10 ^ k : ℕ) * 10 ^ (-(k : ℤ) - exactPlaces) := by
    rw [Nat.cast_mul, Nat.cast_pow, Nat.cast_ofNat, mul_assoc, ← zpow_natCast, ← zpow_add₀ hten,
      hexponent]
  rw [hsame]
  exact roundsTo_multiple (ten_zpow_pos _) _

theorem roundsTo_roundToPlaces (rank places : ℕ) :
    RoundsTo (10 ^ (-places : ℤ)) (rankValue rank)
      (roundToPlaces (exactDecimal rank) places * 10 ^ (-places : ℤ)) := by
  rw [rankValue_eq, roundToPlaces, Nat.pow_eq, Nat.pow_eq]
  split
  · next hle =>
    have hround := roundsTo_halfEven_pow (exactDecimal rank) (exactPlaces - places)
    have hexponent : ((exactPlaces - places : ℕ) : ℤ) - exactPlaces = -places := by omega
    rwa [hexponent] at hround
  · next hlt =>
    have hround := roundsTo_mul_pow (exactDecimal rank) (places - exactPlaces)
    have hexponent : -((places - exactPlaces : ℕ) : ℤ) - exactPlaces = -places := by omega
    rwa [hexponent] at hround

/-! ### Significant digits -/

theorem exactDecimal_zero : exactDecimal 0 = 0 := by rw [exactDecimal, units_zero, Nat.zero_mul]

theorem rankValue_eq_zero {rank : ℕ} : rankValue rank = 0 ↔ rank = 0 := by
  rw [rankValue, div_eq_zero_iff, Nat.cast_eq_zero, Nat.cast_eq_zero, units_eq_zero]
  exact or_iff_left unitsPerOne_pos.ne'

theorem exactDecimal_pos {rank : ℕ} (h : rank ≠ 0) : 0 < exactDecimal rank :=
  Nat.mul_pos (Nat.pos_of_ne_zero fun hunits => h (units_eq_zero.mp hunits)) decimalsPerUnit_pos

theorem log_rankValue {rank : ℕ} (h : rank ≠ 0) :
    Int.log 10 (rankValue rank) = (digits (exactDecimal rank)).length - 1 - exactPlaces := by
  have hpos := exactDecimal_pos h
  have hscale := ten_zpow_pos (-exactPlaces)
  have hvalue : 0 < rankValue rank := by
    rw [rankValue_eq]
    exact mul_pos (Nat.cast_pos.mpr hpos) hscale
  have hlength : 0 < (digits (exactDecimal rank)).length := Nat.length_toDigits_pos
  have hlow := pow_length_digits_le hpos
  have hhigh := lt_pow_length_digits (exactDecimal rank)
  generalize (digits (exactDecimal rank)).length = length at hlength hlow hhigh
  apply le_antisymm
  · have hnext : (length : ℤ) - 1 - exactPlaces + 1 = length - exactPlaces := by ring
    rw [← Int.lt_add_one_iff, hnext,
      ← Int.lt_zpow_iff_log_lt (by decide) hvalue, Nat.cast_ofNat, ten_zpow_sub, rankValue_eq]
    exact mul_lt_mul_of_pos_right (Nat.cast_lt.mpr hhigh) hscale
  · have hcast : (length : ℤ) - 1 - exactPlaces = (length - 1 : ℕ) - exactPlaces := by omega
    rw [hcast,
      ← Int.zpow_le_iff_le_log (by decide) hvalue, Nat.cast_ofNat, ten_zpow_sub, rankValue_eq]
    exact mul_le_mul_of_nonneg_right (Nat.cast_le.mpr hlow) hscale.le

namespace Scientific

theorem roundsTo_leading {rank : ℕ} (h : rank ≠ 0) (places : ℕ) :
    RoundsTo (10 ^ (Int.log 10 (rankValue rank) - places)) (rankValue rank)
      (leading rank places * 10 ^ (Int.log 10 (rankValue rank) - places)) := by
  rw [log_rankValue h, rankValue_eq, leading]
  generalize (digits (exactDecimal rank)).length = length
  split
  · next hle =>
    have hround := roundsTo_mul_pow (exactDecimal rank) (places + 1 - length)
    have hexponent : -((places + 1 - length : ℕ) : ℤ) - exactPlaces
        = length - 1 - exactPlaces - places := by omega
    rwa [hexponent] at hround
  · next hlt =>
    have hround := roundsTo_halfEven_pow (exactDecimal rank) (length - (places + 1))
    have hexponent : ((length - (places + 1) : ℕ) : ℤ) - exactPlaces
        = length - 1 - exactPlaces - places := by omega
    rwa [hexponent] at hround

theorem le_leading {rank : ℕ} (h : rank ≠ 0) (places : ℕ) : 10 ^ places ≤ leading rank places := by
  have hlow := pow_length_digits_le (exactDecimal_pos h)
  have hpos : 0 < (digits (exactDecimal rank)).length := Nat.length_toDigits_pos
  rw [leading]
  generalize (digits (exactDecimal rank)).length = length at hlow hpos ⊢
  split
  · next hle =>
    have hexponent : length - 1 + (places + 1 - length) = places := by omega
    calc
      10 ^ places = 10 ^ (length - 1) * 10 ^ (places + 1 - length) := by
        rw [← Nat.pow_add, hexponent]
      _ ≤ exactDecimal rank * 10 ^ (places + 1 - length) := Nat.mul_le_mul_right _ hlow
  · next hlt =>
    have hexponent : places + (length - (places + 1)) = length - 1 := by omega
    have hdiv : 10 ^ places ≤ exactDecimal rank / 10 ^ (length - (places + 1)) := by
      rw [Nat.le_div_iff_mul_le (Nat.pow_pos (by decide)), ← Nat.pow_add, hexponent]
      exact hlow
    exact Nat.le_trans hdiv (le_halfEven _ _)

theorem ofRank_zero (places : ℕ) : ofRank 0 places = ⟨0, 0⟩ := by
  rw [ofRank, if_pos exactDecimal_zero]

theorem ofRank_eq {rank : ℕ} (h : rank ≠ 0) (places : ℕ) : ofRank rank places =
    if leading rank places = 10 ^ (places + 1) then
      ⟨10 ^ places, Int.log 10 (rankValue rank) + 1⟩
    else ⟨leading rank places, Int.log 10 (rankValue rank)⟩ := by
  rw [ofRank, if_neg (exactDecimal_pos h).ne', log_rankValue h]
  rfl

/-- A coefficient with its exponent denotes the magnitude rounded to `places + 1` significant
digits. -/
theorem roundsTo_ofRank (rank places : ℕ) :
    RoundsTo (10 ^ (Int.log 10 (rankValue rank) - places)) (rankValue rank)
      ((ofRank rank places).coefficient * 10 ^ ((ofRank rank places).exponent - places)) := by
  have hten : (10 : ℚ) ≠ 0 := by norm_num
  by_cases hrank : rank = 0
  · subst hrank
    have hround := roundsTo_multiple (ten_zpow_pos (0 - places)) 0
    rw [rankValue_eq_zero.mpr rfl, Int.log_zero_right, ofRank_zero]
    simpa only [Nat.cast_zero, zero_mul] using hround
  · have hround := roundsTo_leading hrank places
    rw [ofRank_eq hrank]
    split
    · next hcarry =>
      have hsame : ((10 ^ places : ℕ) : ℚ) * 10 ^ (Int.log 10 (rankValue rank) + 1 - places)
          = leading rank places * 10 ^ (Int.log 10 (rankValue rank) - places) := by
        rw [hcarry, add_sub_right_comm, zpow_add_one₀ hten]
        push_cast
        ring
      rwa [hsame]
    · exact hround

/-- The last place of the coefficient is the step of the rounding, also where it has carried the
magnitude to the next power of ten. -/
theorem roundsTo_ofRank_exponent {rank : ℕ} (h : rank ≠ 0) (places : ℕ) :
    RoundsTo (10 ^ ((ofRank rank places).exponent - places)) (rankValue rank)
      ((ofRank rank places).coefficient * 10 ^ ((ofRank rank places).exponent - places)) := by
  have hround := roundsTo_ofRank rank places
  rw [ofRank_eq h] at hround ⊢
  by_cases hcarry : leading rank places = 10 ^ (places + 1)
  · rw [if_pos hcarry] at hround ⊢
    refine hround.coarsen ?_
    apply zpow_lt_zpow_right₀ (by norm_num)
    dsimp only
    omega
  · rw [if_neg hcarry] at hround ⊢
    exact hround

/-- Rounded to the places that its significant digits reach to, a magnitude has these digits. -/
theorem roundToPlaces_eq_coefficient {rank : ℕ} (h : rank ≠ 0) {last places : ℕ}
    (hplaces : (ofRank rank last).exponent - last = -places) :
    roundToPlaces (exactDecimal rank) places = (ofRank rank last).coefficient := by
  have hsignificant := roundsTo_ofRank_exponent h last
  rw [hplaces] at hsignificant
  have hsame := (roundsTo_roundToPlaces rank places).unique (ten_zpow_pos _) hsignificant
  exact Nat.cast_injective (mul_right_cancel₀ (ten_zpow_pos _).ne' hsame)

theorem le_coefficient_ofRank {rank : ℕ} (h : rank ≠ 0) (places : ℕ) :
    10 ^ places ≤ (ofRank rank places).coefficient := by
  rw [ofRank_eq h]
  split
  · exact Nat.le_refl _
  · exact le_leading h places

end Scientific

/-! ### Positional form -/

/-- A number of units in the last place, written around a point: no needless zeros before it, and
all places behind it. -/
structure Placed (places n : ℕ) (whole fraction : List Char) : Prop where
  isWhole : Json.IsWhole whole
  isDigit : ∀ c ∈ fraction, c.isDigit
  length : fraction.length = places
  padded : whole ++ fraction = paddedDigits (places + 1) n
  length_whole : n < 10 ^ (places + 1) → whole.length = 1

theorem isDigit_of_mem_paddedDigits {width n : ℕ} {c : Char} (h : c ∈ paddedDigits width n) :
    c.isDigit := by
  cases List.mem_append.mp h with
  | inl h =>
    rw [List.eq_of_mem_replicate h]
    decide
  | inr h => exact isDigit_of_mem_digits h

theorem decimalValue_paddedDigits (width n : ℕ) : decimalValue (paddedDigits width n) = n := by
  rw [paddedDigits, decimalValue_append, decimalValue_zeros, decimalValue_digits, Nat.mul_zero,
    Nat.zero_add]

theorem dropWhile_paddedDigits (width : ℕ) {n : ℕ} (h : 0 < n) :
    (paddedDigits width n).dropWhile (· == '0') = digits n := by
  have hzeros : ∀ c ∈ List.replicate (width - (digits n).length) '0', (c == '0') = true := by
    intro c hc
    rw [List.eq_of_mem_replicate hc]
    rfl
  have hstop : Stops (· == '0') (digits n) := by
    intro c hc
    apply beq_false_of_ne
    rintro rfl
    exact head_digits_ne_zero h hc
  exact dropWhile_run hzeros hstop

theorem paddedDigits_eq_digits {places n : ℕ} (h : 10 ^ places ≤ n) :
    paddedDigits (places + 1) n = digits n := by
  have hlength : places < (digits n).length :=
    (Nat.pow_lt_pow_iff_right (by decide)).mp (Nat.lt_of_le_of_lt h (lt_pow_length_digits n))
  have hzeros : places + 1 - (digits n).length = 0 := by omega
  rw [paddedDigits, hzeros, List.replicate_zero, List.nil_append]

theorem isWhole_take_paddedDigits (places n : ℕ) :
    Json.IsWhole ((paddedDigits (places + 1) n).take
      ((paddedDigits (places + 1) n).length - places)) := by
  rw [length_paddedDigits]
  by_cases hle : (digits n).length ≤ places
  · -- One of the zeros in front is the whole part.
    have hzeros : places + 1 - (digits n).length = places - (digits n).length + 1 := by omega
    rw [Nat.max_eq_left (by omega), Nat.add_sub_cancel_left, paddedDigits, hzeros]
    exact .inl rfl
  · have hzeros : places + 1 - (digits n).length = 0 := by omega
    rw [Nat.max_eq_right (by omega), paddedDigits, hzeros, List.replicate_zero, List.nil_append]
    obtain rfl | hpos := Nat.eq_zero_or_pos n
    · have hplaces : places = 0 := by
        have hone : (digits 0).length = 1 := rfl
        omega
      subst hplaces
      exact .inl rfl
    · exact .inr ((significant_digits hpos).take (by omega))

theorem exists_positional (places n : ℕ) : ∃ whole fraction,
    positional places n = whole ++ (if places = 0 then [] else ['.']) ++ fraction ∧
      Placed places n whole fraction := by
  have hlength := length_paddedDigits (places + 1) n
  have hwhole := isWhole_take_paddedDigits places n
  have hdigit {c : Char} (h : c ∈ paddedDigits (places + 1) n) := isDigit_of_mem_paddedDigits h
  rw [positional]
  generalize hds : paddedDigits (places + 1) n = ds at hlength hwhole hdigit ⊢
  refine ⟨ds.take (ds.length - places), ds.drop (ds.length - places), ?_, hwhole,
    fun c hc => hdigit (List.mem_of_mem_drop hc), ?_, ?_, ?_⟩
  · split
    · next hzero =>
      rw [hzero, Nat.sub_zero, List.drop_length, List.append_nil, List.append_nil]
    · rw [List.append_assoc]
      rfl
  · rw [List.length_drop]
    omega
  · rw [List.take_append_drop, hds]
  · intro hlt
    have hdigits := length_digits_le (Nat.succ_pos places) hlt
    rw [List.length_take]
    omega

namespace Placed
variable {places n : ℕ} {whole fraction : List Char}

theorem value (h : Placed places n whole fraction) : decimalValue (whole ++ fraction) = n := by
  rw [h.padded, decimalValue_paddedDigits]

theorem magnitude (h : Placed places n whole fraction) (exponent : Option ℤ) :
    (DecimalLiteral.mk false whole fraction exponent).magnitude
      = n * 10 ^ (exponent.getD 0 - places) := by
  rw [DecimalLiteral.magnitude, DecimalLiteral.coefficient, DecimalLiteral.scale, h.value, h.length]

theorem exists_lead (h : Placed places n whole fraction) (hn : n < 10 ^ (places + 1)) :
    ∃ lead, whole = [lead] ∧ lead.isDigit ∧ (lead = '0' ↔ n < 10 ^ places) := by
  obtain ⟨lead, rfl⟩ := List.length_eq_one_iff.mp (h.length_whole hn)
  have hvalue := h.value
  rw [List.singleton_append, decimalValue_cons, h.length] at hvalue
  have hlt := decimalValue_lt h.isDigit
  rw [h.length] at hlt
  have hdigit : lead.isDigit := by
    obtain hzero | hsignificant := h.isWhole
    · rw [List.singleton_inj.mp hzero]
      decide
    · exact hsignificant.isDigit lead List.mem_cons_self
  refine ⟨lead, rfl, hdigit, ?_⟩
  constructor
  · rintro rfl
    rw [← hvalue, Nat.sub_self, Nat.mul_zero, Nat.zero_add]
    exact hlt
  · intro hsmall
    have hge := (Char.isDigit_iff_toNat.mp hdigit).1
    have hnone : lead.toNat - '0'.toNat = 0 := by
      by_contra hpos
      have := Nat.le_mul_of_pos_right (10 ^ places) (Nat.pos_of_ne_zero hpos)
      omega
    exact Char.toNat_inj.mp (by omega)

end Placed
end ScriptBuiltins
