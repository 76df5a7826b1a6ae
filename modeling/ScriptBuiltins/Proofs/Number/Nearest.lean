import Mathlib.Algebra.Order.Field.Basic
import Mathlib.Data.Rat.Cast.Order
import Mathlib.Order.Monotone.Basic
import Mathlib.Tactic.Ring
import ScriptBuiltins.Number.Rounding

/-!
Magnitudes grow with their ranks, and rounding takes a quotient to the nearest of them. What a
quotient rounds to depends on its value alone.
-/
namespace ScriptBuiltins

theorem binade_eq : binade = 2 ^ 52 := rfl

theorem binade_pos : 0 < binade := by decide

theorem units_of_exponent {rank e : Nat} (h : rank / binade - 1 = e) :
    units rank = (rank - e * binade) * 2 ^ e := by
  subst h
  rfl

theorem units_split {e t : Nat} (hlow : e = 0 ∨ binade ≤ t) (hhigh : t ≤ 2 * binade) :
    units (e * binade + t) = t * 2 ^ e := by
  have hpos := binade_pos
  have hdiv : (e * binade + t) / binade = e + t / binade := by
    rw [Nat.add_comm, Nat.add_mul_div_right _ _ hpos, Nat.add_comm]
  -- At `t = 2 * binade` the exponent is that of the next binade already.
  cases Nat.lt_or_ge t (2 * binade) with
  | inl hlt =>
    have hle : t / binade < 2 := (Nat.div_lt_iff_lt_mul hpos).mpr hlt
    have hexp : (e * binade + t) / binade - 1 = e := by
      rw [hdiv]
      obtain rfl | hlow := hlow
      · omega
      · have := Nat.div_pos hlow hpos
        omega
    rw [units_of_exponent hexp, Nat.add_sub_cancel_left]
  | inr hge =>
    obtain rfl : t = 2 * binade := Nat.le_antisymm hhigh hge
    have hexp : (e * binade + 2 * binade) / binade - 1 = e + 1 := by
      rw [hdiv, Nat.mul_div_cancel _ hpos]
      omega
    rw [units_of_exponent hexp, ← Nat.add_mul, ← Nat.sub_mul]
    rw [show e + 2 - (e + 1) = 1 by omega, Nat.pow_succ]
    ring

theorem exists_split (rank : Nat) :
    ∃ e t, rank = e * binade + t ∧ (e = 0 ∨ binade ≤ t) ∧ t < 2 * binade := by
  have hpos := binade_pos
  have hdecomp := Nat.div_add_mod rank binade
  have hmod := Nat.mod_lt rank hpos
  cases hq : rank / binade with
  | zero =>
    rw [hq, Nat.mul_zero, Nat.zero_add] at hdecomp
    exact ⟨0, rank, by omega, .inl rfl, by omega⟩
  | succ q =>
    rw [hq, Nat.mul_succ, Nat.mul_comm binade q] at hdecomp
    exact ⟨q, binade + rank % binade, by omega, .inr (by omega), by omega⟩

theorem units_lt_succ (rank : Nat) : units rank < units (rank + 1) := by
  obtain ⟨e, t, rfl, hlow, hhigh⟩ := exists_split rank
  rw [Nat.add_assoc, units_split hlow (by omega), units_split (by omega) (by omega)]
  exact Nat.mul_lt_mul_of_pos_right (Nat.lt_succ_self t) (Nat.two_pow_pos e)

theorem units_strictMono : StrictMono units := strictMono_nat_of_lt_succ units_lt_succ

@[simp] theorem units_zero : units 0 = 0 := by
  simpa using units_split (e := 0) (t := 0) (.inl rfl) (Nat.zero_le _)

theorem units_eq_zero {rank : Nat} : units rank = 0 ↔ rank = 0 := by
  constructor
  · intro h
    exact units_strictMono.injective (h.trans units_zero.symm)
  · rintro rfl
    exact units_zero

theorem floorRank_bounds (n : Nat) : units (floorRank n) ≤ n ∧ n < units (floorRank n + 1) := by
  have hlow : n.log2 - 52 = 0 ∨ binade ≤ n / 2 ^ (n.log2 - 52) := by
    by_cases h : n.log2 ≤ 52
    · exact .inl (by omega)
    · refine .inr ((Nat.le_div_iff_mul_le (Nat.two_pow_pos _)).mpr ?_)
      rw [binade_eq, ← Nat.pow_add, show 52 + (n.log2 - 52) = n.log2 by omega]
      exact Nat.log2_self_le (by rintro rfl; simp at h)
  have hhigh : n / 2 ^ (n.log2 - 52) < 2 * binade := by
    refine (Nat.div_lt_iff_lt_mul (Nat.two_pow_pos _)).mpr (Nat.lt_of_lt_of_le Nat.lt_log2_self ?_)
    rw [binade_eq, ← Nat.pow_succ', ← Nat.pow_add]
    exact Nat.pow_le_pow_right (by decide) (by omega)
  have hfloor : floorRank n = (n.log2 - 52) * binade + n / 2 ^ (n.log2 - 52) := by
    rw [floorRank, Nat.shiftRight_eq_div_pow]
  rw [hfloor, Nat.add_assoc, units_split hlow (by omega), units_split (by omega) (by omega)]
  rw [Nat.add_mul, Nat.one_mul]
  exact ⟨Nat.div_mul_le_self n _, Nat.lt_div_mul_add (Nat.two_pow_pos _)⟩

theorem units_floorRank_div_le (n : Nat) {d : Nat} (hd : 0 < d) :
    d * units (floorRank (n / d)) ≤ n := by
  rw [Nat.mul_comm]
  exact (Nat.le_div_iff_mul_le hd).mp (floorRank_bounds (n / d)).1

theorem lt_units_floorRank_div (n : Nat) {d : Nat} (hd : 0 < d) :
    n < d * units (floorRank (n / d) + 1) := by
  rw [Nat.mul_comm]
  exact (Nat.div_lt_iff_lt_mul hd).mp (floorRank_bounds (n / d)).2

/-- How far the quotient `n / d` is from a magnitude, in parts of `1 / d`. -/
def offset (n d rank : Nat) : Nat := (n - d * units rank : Int).natAbs

theorem nearestRank_cases (n : Nat) {d : Nat} (hd : 0 < d) :
    ∃ low, d * units low ≤ n ∧ n < d * units (low + 1) ∧
      ((nearestRank n d = low ∧ 2 * n < d * units low + d * units (low + 1)) ∨
        (nearestRank n d = low + low % 2 ∧ 2 * n = d * units low + d * units (low + 1)) ∨
        (nearestRank n d = low + 1 ∧ d * units low + d * units (low + 1) < 2 * n)) := by
  have hle := units_floorRank_div_le n hd
  have hlt := lt_units_floorRank_div n hd
  generalize hlow : floorRank (n / d) = low at hle hlt
  refine ⟨low, hle, hlt, ?_⟩
  rw [← Nat.mul_add, nearestRank, hlow]
  cases hcmp : compare (2 * n) (d * (units low + units (low + 1))) with
  | lt => exact .inl ⟨rfl, Nat.compare_eq_lt.mp hcmp⟩
  | eq => exact .inr (.inl ⟨rfl, Nat.compare_eq_eq.mp hcmp⟩)
  | gt => exact .inr (.inr ⟨rfl, Nat.compare_eq_gt.mp hcmp⟩)

theorem offset_of_le {n d rank : Nat} (h : d * units rank ≤ n) :
    offset n d rank = n - d * units rank := by
  simp only [offset]
  omega

theorem offset_of_ge {n d rank : Nat} (h : n ≤ d * units rank) :
    offset n d rank = d * units rank - n := by
  simp only [offset]
  omega

/-- Past its two neighbours a quotient has nothing nearer. -/
theorem offset_neighbours {n d low : Nat} (hd : 0 < d) (hle : d * units low ≤ n)
    (hlt : n < d * units (low + 1)) (other : Nat) :
    other = low ∨ other = low + 1 ∨ (other ≠ low ∧ offset n d low < offset n d other) ∨
      (other ≠ low + 1 ∧ offset n d (low + 1) < offset n d other) := by
  have hmono {i j : Nat} (h : i < j) : d * units i < d * units j :=
    (Nat.mul_lt_mul_left hd).mpr (units_strictMono h)
  by_cases hlow : other < low
  · have := hmono hlow
    rw [offset_of_le hle, offset_of_le (by omega)]
    omega
  · by_cases hhigh : low + 1 < other
    · have := hmono hhigh
      have hother : n ≤ d * units other := by omega
      rw [offset_of_ge (Nat.le_of_lt hlt), offset_of_ge hother]
      omega
    · omega

theorem offset_nearestRank (n : Nat) {d : Nat} (hd : 0 < d) :
    (∀ other, offset n d (nearestRank n d) ≤ offset n d other) ∧
      ∀ other, other ≠ nearestRank n d →
        offset n d other = offset n d (nearestRank n d) → nearestRank n d % 2 = 0 := by
  obtain ⟨low, hle, hlt, hcases⟩ := nearestRank_cases n hd
  have hlow := offset_of_le hle
  have hhigh := offset_of_ge (Nat.le_of_lt hlt)
  have hother := offset_neighbours hd hle hlt
  -- Only in the middle is another rank as near, and there the even one has been chosen.
  obtain ⟨hrank, hcmp⟩ | ⟨hrank, hcmp⟩ | ⟨hrank, hcmp⟩ := hcases
  · rw [hrank]
    constructor
    · intro other
      obtain rfl | rfl | h | h := hother other <;> omega
    · intro other hne heq
      obtain rfl | rfl | h | h := hother other <;> omega
  · have hsame : offset n d (nearestRank n d) = offset n d low := by
      cases Nat.mod_two_eq_zero_or_one low with
      | inl h => rw [hrank, h, Nat.add_zero]
      | inr h =>
        rw [hrank, h]
        omega
    constructor
    · intro other
      obtain rfl | rfl | h | h := hother other <;> omega
    · omega
  · rw [hrank]
    constructor
    · intro other
      obtain rfl | rfl | h | h := hother other <;> omega
    · intro other hne heq
      obtain rfl | rfl | h | h := hother other <;> omega

/-- A rank is the nearest one to a number of units if no other is nearer, and none as near unless it
is even. -/
structure Nearest (x : ℚ) (rank : Nat) : Prop where
  le : ∀ other, |x - units rank| ≤ |x - units other|
  even : ∀ other, other ≠ rank → |x - units other| = |x - units rank| → rank % 2 = 0

theorem abs_sub_units (n rank : Nat) {d : Nat} (hd : 0 < d) :
    |(n : ℚ) / d - units rank| = offset n d rank / d := by
  have hpos : (0 : ℚ) < d := Nat.cast_pos.mpr hd
  rw [div_sub' hpos.ne', abs_div, abs_of_pos hpos, offset, Nat.cast_natAbs]
  push_cast
  rfl

theorem nearest_nearestRank (n : Nat) {d : Nat} (hd : 0 < d) :
    Nearest ((n : ℚ) / d) (nearestRank n d) := by
  have hpos : (0 : ℚ) < d := Nat.cast_pos.mpr hd
  obtain ⟨hle, heven⟩ := offset_nearestRank n hd
  constructor
  · intro other
    rw [abs_sub_units n _ hd, abs_sub_units n _ hd, div_le_div_iff_of_pos_right hpos, Nat.cast_le]
    exact hle other
  · intro other hne heq
    rw [abs_sub_units n _ hd, abs_sub_units n _ hd, div_left_inj' hpos.ne', Nat.cast_inj] at heq
    exact heven other hne heq

theorem nearestRank_units (rank : Nat) {d : Nat} (hd : 0 < d) :
    nearestRank (units rank * d) d = rank := by
  have hself : offset (units rank * d) d rank = 0 := by
    simp [offset, Int.mul_comm]
  have hzero := (offset_nearestRank (units rank * d) hd).1 rank
  rw [hself, Nat.le_zero, offset, Int.natAbs_eq_zero] at hzero
  have heq : d * units rank = d * units (nearestRank (units rank * d) d) := by
    rw [Nat.mul_comm d (units rank)]
    omega
  exact (units_strictMono.injective (Nat.eq_of_mul_eq_mul_left hd heq)).symm

theorem le_nearestRank {n d rank : Nat} (hd : 0 < d) (h : d * units rank ≤ n) :
    rank ≤ nearestRank n d := by
  obtain ⟨low, -, hlt, hcases⟩ := nearestRank_cases n hd
  have hrank : rank < low + 1 :=
    units_strictMono.lt_iff_lt.mp ((Nat.mul_lt_mul_left hd).mp (Nat.lt_of_le_of_lt h hlt))
  omega

theorem nearestRank_le {n d rank : Nat} (hd : 0 < d) (h : n ≤ d * units rank) :
    nearestRank n d ≤ rank := by
  obtain ⟨low, hle, hlt, hcases⟩ := nearestRank_cases n hd
  have hrank : low ≤ rank :=
    units_strictMono.le_iff_le.mp (Nat.le_of_mul_le_mul_left (Nat.le_trans hle h) hd)
  cases Nat.lt_or_ge low rank with
  | inl hlow => omega
  | inr hge =>
    obtain rfl := Nat.le_antisymm hrank hge
    omega

theorem nearestRank_eq_zero {n d : Nat} (h : 2 * n < d) : nearestRank n d = 0 := by
  obtain ⟨low, hle, -, hcases⟩ := nearestRank_cases n (Nat.zero_lt_of_lt h)
  have hone : units 1 = 1 := by simpa using units_split (e := 0) (t := 1) (.inl rfl) (by decide)
  obtain rfl : low = 0 := by
    by_contra hne
    have hpos : units 0 < units low := units_strictMono (Nat.pos_of_ne_zero hne)
    have := Nat.le_mul_of_pos_right d (Nat.zero_lt_of_lt hpos)
    omega
  rw [units_zero, hone] at hcases
  omega

theorem compare_mul_right (a b : Nat) {k : Nat} (hk : 0 < k) :
    compare (a * k) (b * k) = compare a b := by
  cases h : compare a b with
  | lt => exact Nat.compare_eq_lt.mpr ((Nat.mul_lt_mul_right hk).mpr (Nat.compare_eq_lt.mp h))
  | eq => exact Nat.compare_eq_eq.mpr (by rw [Nat.compare_eq_eq.mp h])
  | gt => exact Nat.compare_eq_gt.mpr ((Nat.mul_lt_mul_right hk).mpr (Nat.compare_eq_gt.mp h))

theorem nearestRank_mul_right (n d : Nat) {k : Nat} (hk : 0 < k) :
    nearestRank (n * k) (d * k) = nearestRank n d := by
  have hcmp (s : Nat) : compare (2 * (n * k)) (d * k * s) = compare (2 * n) (d * s) := by
    rw [← Nat.mul_assoc, Nat.mul_right_comm d k s, compare_mul_right _ _ hk]
  rw [nearestRank, nearestRank, Nat.mul_div_mul_right n d hk, hcmp]

theorem nearestRank_congr {n d n' d' : Nat} (hd : 0 < d) (hd' : 0 < d') (h : n * d' = n' * d) :
    nearestRank n d = nearestRank n' d' := by
  rw [← nearestRank_mul_right n d hd', h, Nat.mul_comm d d', nearestRank_mul_right n' d' hd]

end ScriptBuiltins
