import ScriptBuiltins.Number.Text
import ScriptBuiltins.Proofs.Json.Grammar
import ScriptBuiltins.Proofs.Number.Shortest

/-!
Every layout of digits is a number of the grammar with the value of the digits, and the JSON text of
a finite number is one whose nearest double is that number.
-/
namespace ScriptBuiltins

theorem scaledValue_zeros_append (n : Nat) (ds : List Char) (exponent : Int) :
    scaledValue (List.replicate n '0' ++ ds) exponent = scaledValue ds (exponent - n) := by
  rw [scaledValue, scaledValue, decimalValue_append, decimalValue_zeros, List.length_append,
    List.length_replicate, Nat.mul_zero, Nat.zero_add]
  rw [show exponent + 1 - ((n + ds.length : Nat) : Int) = exponent - n + 1 - ds.length by omega]

theorem DecimalLiteral.magnitude_eq (l : DecimalLiteral) :
    l.magnitude = scaledValue (l.whole ++ l.fraction) (l.exponent.getD 0 + l.whole.length - 1) := by
  rw [magnitude, scaledValue, coefficient, scale, List.length_append]
  rw [show l.exponent.getD 0 + l.whole.length - 1 + 1 - ((l.whole.length + l.fraction.length : Nat)
    : Int) = l.exponent.getD 0 - l.fraction.length by omega]

/-- A text is a number of the grammar with the value of the digits, behind either sign. -/
def Spells (ds : List Char) (exponent : Int) (text : List Char) : Prop :=
  ∀ negative, ∃ l, Json.NumberText l (signed negative text) ∧ l.negative = negative ∧
    l.magnitude = scaledValue ds exponent

theorem Significant.drop {ds : List Char} (h : Significant ds) {n : Nat} (hn : n < ds.length) :
    Json.IsDigits (ds.drop n) := by
  constructor
  · intro hnil
    have := List.drop_eq_nil_iff.mp hnil
    omega
  · intro c hc
    exact h.isDigit c (List.mem_of_mem_drop hc)

theorem Significant.take {ds : List Char} (h : Significant ds) {n : Nat} (hn : 0 < n) :
    Significant (ds.take n) := by
  have hsplit : Significant (ds.take n ++ ds.drop n) := by rwa [List.take_append_drop]
  refine hsplit.of_append ?_
  intro hnil
  cases List.take_eq_nil_iff.mp hnil with
  | inl h0 => omega
  | inr h0 => exact h.nonempty h0

theorem Significant.append_zeros {ds : List Char} (h : Significant ds) (n : Nat) :
    Significant (ds ++ List.replicate n '0') where
  isDigit c hc := by
    cases List.mem_append.mp hc with
    | inl hc => exact h.isDigit c hc
    | inr hc =>
      rw [List.eq_of_mem_replicate hc]
      decide
  nonempty := List.append_ne_nil_of_left_ne_nil h.nonempty _
  head := by
    have hhead := h.head
    cases ds with
    | nil => exact absurd rfl h.nonempty
    | cons d ds => exact hhead

theorem spells_of_parts {ds whole fraction point power : List Char} {exponent : Int}
    {written : Option Int} (hwhole : Json.IsWhole whole)
    (hfraction : Json.FractionText fraction point) (hwritten : Json.ExponentText written power)
    (h : scaledValue (whole ++ fraction) (written.getD 0 + whole.length - 1)
      = scaledValue ds exponent) : Spells ds exponent (whole ++ point ++ power) := by
  intro negative
  exact ⟨_, .mk negative hwhole hfraction hwritten, rfl, (DecimalLiteral.magnitude_eq _).trans h⟩

theorem isDigits_zeros_append (n : Nat) {ds : List Char} (h : Significant ds) :
    Json.IsDigits (List.replicate n '0' ++ ds) := by
  constructor
  · exact List.append_ne_nil_of_right_ne_nil _ h.nonempty
  · intro c hc
    cases List.mem_append.mp hc with
    | inl hc =>
      rw [List.eq_of_mem_replicate hc]
      decide
    | inr hc => exact h.isDigit c hc

theorem exponentText_of_natAbs {exponent : Int} {sign ds : List Char}
    (hsign : exponent < 0 ∧ sign = ['-'] ∨ 0 ≤ exponent ∧ (sign = [] ∨ sign = ['+']))
    (hds : Json.IsDigits ds) (hvalue : decimalValue ds = exponent.natAbs) :
    Json.ExponentText (some exponent) ('e' :: (sign ++ ds)) := by
  obtain ⟨hneg, rfl⟩ | ⟨hpos, hsign⟩ := hsign
  · have htext := Json.ExponentText.some (.inl rfl) .minus hds
    have hnatAbs : -(exponent.natAbs : Int) = exponent := by omega
    rwa [if_pos rfl, hvalue, hnatAbs] at htext
  · have htext {sign : List Char} (hsign : Json.SignText false sign) :=
      Json.ExponentText.some (.inl rfl) hsign hds
    have hnatAbs : (exponent.natAbs : Int) = exponent := by omega
    rw [if_neg Bool.false_ne_true, hvalue, hnatAbs] at htext
    obtain rfl | rfl := hsign
    · exact htext .none
    · exact htext .plus

namespace Layout
variable {ds : List Char}

theorem spells_below_one (h : Significant ds) {exponent : Int} (hexponent : exponent < 0) :
    Spells ds exponent ('0' :: '.' :: List.replicate (-exponent - 1).toNat '0' ++ ds) := by
  have hfraction := isDigits_zeros_append (-exponent - 1).toNat h
  have hvalue : scaledValue (['0'] ++ (List.replicate (-exponent - 1).toNat '0' ++ ds))
      (0 + (1 : Nat) - 1) = scaledValue ds exponent := by
    rw [← List.append_assoc, ← List.replicate_one, ← List.replicate_add, scaledValue_zeros_append]
    congr 1
    omega
  have hparts := spells_of_parts (.inl rfl) (.some hfraction) .none hvalue
  rwa [List.append_nil] at hparts

theorem spells_whole (h : Significant ds) (n : Nat) (pointZero : Bool) :
    Spells ds (ds.length + n - 1)
      (ds ++ List.replicate n '0' ++ if pointZero then ['.', '0'] else []) := by
  have hwhole : Json.IsWhole (ds ++ List.replicate n '0') := .inr (h.append_zeros n)
  have hexponent : (0 : Int) + (ds ++ List.replicate n '0').length - 1 = ds.length + n - 1 := by
    rw [List.length_append, List.length_replicate]
    omega
  cases pointZero with
  | false =>
    have hvalue : scaledValue (ds ++ List.replicate n '0' ++ [])
        (0 + (ds ++ List.replicate n '0').length - 1) = scaledValue ds (ds.length + n - 1) := by
      rw [List.append_nil, scaledValue_append_zeros, hexponent]
    have hparts := spells_of_parts hwhole .none .none hvalue
    rwa [List.append_nil] at hparts
  | true =>
    have hzero : Json.IsDigits ['0'] := by simp [Json.IsDigits]
    have hvalue : scaledValue (ds ++ List.replicate n '0' ++ ['0'])
        (0 + (ds ++ List.replicate n '0').length - 1) = scaledValue ds (ds.length + n - 1) := by
      rw [← List.replicate_one, scaledValue_append_zeros, scaledValue_append_zeros, hexponent]
    have hparts := spells_of_parts hwhole (.some hzero) .none hvalue
    rwa [List.append_nil] at hparts

theorem spells_split (h : Significant ds) {n : Nat} (hpos : 0 < n) (hn : n < ds.length) :
    Spells ds (n - 1) (ds.take n ++ '.' :: ds.drop n) := by
  have hvalue : scaledValue (ds.take n ++ ds.drop n) (0 + (ds.take n).length - 1)
      = scaledValue ds (n - 1) := by
    rw [List.take_append_drop, List.length_take_of_le (Nat.le_of_lt hn), Int.zero_add]
  have hparts := spells_of_parts (.inr (h.take hpos)) (.some (h.drop hn)) .none hvalue
  rwa [List.append_nil] at hparts

theorem spells_plain (layout : Layout) (h : Significant ds) (exponent : Int) :
    Spells ds exponent (layout.plain ds exponent) := by
  simp only [plain]
  by_cases hneg : exponent < 0
  · rw [if_pos hneg]
    exact spells_below_one h hneg
  · rw [if_neg hneg]
    by_cases hle : ds.length ≤ exponent.toNat + 1
    · rw [if_pos hle]
      have hwhole := spells_whole h (exponent.toNat + 1 - ds.length) layout.pointZero
      rwa [show (ds.length : Int) + ((exponent.toNat + 1 - ds.length : Nat) : Int) - 1 = exponent by
        omega] at hwhole
    · rw [if_neg hle]
      have hsplit := spells_split h (Nat.succ_pos exponent.toNat) (Nat.lt_of_not_le hle)
      rwa [show ((exponent.toNat.succ : Nat) : Int) - 1 = exponent by omega] at hsplit

theorem exponentText_written (layout : Layout) (exponent : Int) :
    Json.ExponentText (some exponent) ('e' :: ((if exponent < 0 then ['-'] else
      if layout.plusSign then ['+'] else []) ++ digits exponent.natAbs)) := by
  have hds : Json.IsDigits (digits exponent.natAbs) :=
    ⟨digits_ne_nil _, fun c hc => isDigit_of_mem_digits hc⟩
  refine exponentText_of_natAbs ?_ hds (decimalValue_digits _)
  split
  · next hneg => exact .inl ⟨hneg, rfl⟩
  · next hpos =>
    split
    · exact .inr ⟨Int.not_lt.mp hpos, .inr rfl⟩
    · exact .inr ⟨Int.not_lt.mp hpos, .inl rfl⟩

theorem fractionText_drop_one (h : Significant ds) :
    Json.FractionText (ds.drop 1) (if ds.length ≤ 1 then [] else '.' :: ds.drop 1) := by
  split
  · next hle =>
    rw [List.drop_eq_nil_of_le hle]
    exact .none
  · next hlt => exact .some (h.drop (Nat.lt_of_not_le hlt))

theorem spells_withExponent (layout : Layout) (h : Significant ds) (exponent : Int) :
    Spells ds exponent (layout.withExponent ds exponent) := by
  have hlength : (ds.take 1).length = 1 := List.length_take_of_le (List.length_pos_iff.mpr h.nonempty)
  have hvalue : scaledValue (ds.take 1 ++ ds.drop 1) (exponent + (ds.take 1).length - 1)
      = scaledValue ds exponent := by
    rw [List.take_append_drop, hlength]
    congr 1
    omega
  have hparts := spells_of_parts (.inr (h.take Nat.one_pos)) (fractionText_drop_one h)
    (exponentText_written layout exponent) hvalue
  rwa [← List.cons_append, ← List.append_assoc] at hparts

theorem spells_arrange (layout : Layout) (h : Significant ds) (exponent : Int) :
    Spells ds exponent (layout.arrange ds exponent) := by
  rw [arrange]
  split
  · exact spells_plain layout h exponent
  · exact spells_withExponent layout h exponent

theorem spells_magnitude (layout : Layout) {rank : Nat} (hrank : rank ≠ 0) :
    Spells (shortestDigits layout.tie rank).1 (shortestDigits layout.tie rank).2
      (layout.magnitude rank) :=
  spells_arrange layout (shortestDigits_spec layout.tie hrank).1 _

end Layout

namespace Number

theorem isWhole_digits (n : Nat) : Json.IsWhole (digits n) := by
  obtain rfl | hpos := Nat.eq_zero_or_pos n
  · exact .inl rfl
  · exact .inr (significant_digits hpos)

theorem toNumber_digits (negative : Bool) {whole : Nat} {rank : Fin rankLimit}
    (h : whole * unitsPerOne = units rank) :
    (DecimalLiteral.mk negative (digits whole) [] none).toNumber = .finite negative rank := by
  have hvalue : (DecimalLiteral.mk negative (digits whole) [] none).magnitude * unitsPerOne
      = (units rank * 1 : Nat) / (1 : Nat) := by
    have hscale : (DecimalLiteral.mk negative (digits whole) [] none).scale = 0 := rfl
    rw [DecimalLiteral.magnitude, DecimalLiteral.coefficient, List.append_nil, decimalValue_digits,
      hscale, zpow_zero, mul_one, Nat.mul_one, Nat.cast_one, div_one, ← h, Nat.cast_mul]
  rw [DecimalLiteral.toNumber_eq_ofUnits Nat.one_pos hvalue, ofUnits,
    nearestRank_units rank.val Nat.one_pos, ofRank_of_lt negative rank.isLt]

/-- A whole number within the exact ones, written in digits alone. -/
theorem exists_literal_digits (negative : Bool) {rank : Fin rankLimit}
    (h : units rank % unitsPerOne = 0) :
    ∃ l, Json.NumberText l (signed (negative && units rank / unitsPerOne != 0)
        (digits (units rank / unitsPerOne))) ∧
      l.toNumber = .finite (negative && rank.val != 0) rank := by
  have hwhole : units rank / unitsPerOne * unitsPerOne = units rank :=
    Nat.div_mul_cancel (Nat.dvd_of_mod_eq_zero h)
  have hzero : units rank / unitsPerOne = 0 ↔ rank.val = 0 := by
    constructor
    · intro h
      rw [← units_eq_zero, ← hwhole, h, Nat.zero_mul]
    · intro h
      rw [h, units_zero, Nat.zero_div]
  have hsign : (units rank / unitsPerOne != 0) = (rank.val != 0) := by
    rw [Bool.eq_iff_iff, bne_iff_ne, bne_iff_ne]
    exact not_congr hzero
  have htext := Json.NumberText.mk (negative && units rank / unitsPerOne != 0)
    (isWhole_digits (units rank / unitsPerOne)) .none .none
  rw [List.append_nil, List.append_nil] at htext
  refine ⟨_, htext, ?_⟩
  rw [toNumber_digits _ hwhole, hsign]

theorem exists_literal_magnitude (layout : Layout) (negative : Bool) {rank : Fin rankLimit}
    (hrank : rank.val ≠ 0) :
    ∃ l, Json.NumberText l (signed negative (layout.magnitude rank)) ∧
      l.toNumber = .finite negative rank := by
  obtain ⟨l, htext, hnegative, hvalue⟩ := layout.spells_magnitude hrank negative
  refine ⟨l, htext, ?_⟩
  rw [toNumber_of_shortest hrank hvalue, hnegative, ofRank_of_lt negative rank.isLt]

theorem exists_literal_toJson (negative : Bool) (rank : Fin rankLimit) :
    ∃ l, Json.NumberText l (toJson (.finite negative rank)) ∧
      l.toNumber = .finite (negative && rank.val != 0) rank := by
  simp only [toJson]
  by_cases h : units rank % unitsPerOne = 0 ∧ units rank / unitsPerOne ≤ exactIntegerLimit
  · rw [if_pos h]
    exact exists_literal_digits negative h.1
  · rw [if_neg h]
    have hrank : rank.val ≠ 0 := by
      intro hrank
      rw [hrank, units_zero, Nat.zero_mod, Nat.zero_div] at h
      exact h ⟨rfl, Nat.zero_le _⟩
    rw [bne_iff_ne.mpr hrank, Bool.and_true]
    exact exists_literal_magnitude Layout.json negative hrank

end Number
end ScriptBuiltins
