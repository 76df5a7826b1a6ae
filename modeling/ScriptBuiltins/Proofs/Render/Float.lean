import ScriptBuiltins.Proofs.Number.Expansion
import ScriptBuiltins.Proofs.Render.Integer
import ScriptBuiltins.Proofs.Render.Precision

/-!
What `f F e E` show of a finite number: its sign and its magnitude, rounded correctly to the places
that were asked for.
-/
namespace ScriptBuiltins

/-! ### Letters -/

namespace LetterCase

def exponentMark : LetterCase → Char
  | .lower => 'e'
  | .upper => 'E'

theorem apply_eq_self {cs : List Char} (h : ∀ c ∈ cs, c.toUpper = c) (letters : LetterCase) :
    letters.apply cs = cs := by
  cases letters with
  | lower => rfl
  | upper => exact (List.map_congr_left h).trans (List.map_id' cs)

theorem toUpper_of_isDigit {c : Char} (h : c.isDigit) : c.toUpper = c := by
  obtain ⟨hlow, hhigh⟩ := Char.isDigit_iff_toNat.mp h
  have hzero : '0'.toNat = 48 := rfl
  have hnine : '9'.toNat = 57 := rfl
  have hchar : Nat.digitChar (c.toNat - 48) = c := by
    apply Char.toNat_inj.mp
    rw [Nat.toNat_digitChar_of_lt_ten (by omega)]
    omega
  have hdigits : ∀ d < 10, (Nat.digitChar d).toUpper = Nat.digitChar d := by decide
  rw [← hchar]
  exact hdigits _ (by omega)

theorem apply_digits {ds : List Char} (h : ∀ c ∈ ds, c.isDigit) (letters : LetterCase) :
    letters.apply ds = ds :=
  letters.apply_eq_self fun c hc => toUpper_of_isDigit (h c hc)

end LetterCase

/-! ### Fixed form -/

/-- The point behind the whole part. Without places it is kept in the alternate form only. -/
def placesPoint (places : ℕ) (alternate : Bool) : List Char :=
  if 0 < places ∨ alternate then ['.'] else []

theorem apply_placesPoint (letters : LetterCase) (places : ℕ) (alternate : Bool) :
    letters.apply (placesPoint places alternate) = placesPoint places alternate := by
  rw [placesPoint]
  split <;> cases letters <;> rfl

theorem exists_positional_point (places n : ℕ) : ∃ whole fraction,
    (∀ alternate, positional places n ++ barePoint alternate places
      = whole ++ placesPoint places alternate ++ fraction) ∧ Placed places n whole fraction := by
  obtain ⟨whole, fraction, htext, hplaced⟩ := exists_positional places n
  refine ⟨whole, fraction, fun alternate => ?_, hplaced⟩
  rw [htext, placesPoint, barePoint]
  cases places with
  | zero =>
    obtain rfl := List.length_eq_zero_iff.mp hplaced.length
    cases alternate <;> simp
  | succ places => simp

/-- A value in digits around a point, rounded to the last of its places. -/
inductive FixedForm (x : ℚ) (places : ℕ) (alternate : Bool) : List Char → Prop
  | mk {whole fraction : List Char} (hwhole : Json.IsWhole whole)
      (hfraction : ∀ c ∈ fraction, c.isDigit) (hplaces : fraction.length = places)
      (hrounds : RoundsTo (10 ^ (-places : ℤ)) x
        (DecimalLiteral.mk false whole fraction none).magnitude) :
      FixedForm x places alternate (whole ++ placesPoint places alternate ++ fraction)

theorem FixedForm.apply {x : ℚ} {places : ℕ} {alternate : Bool} {text : List Char}
    (h : FixedForm x places alternate text) (letters : LetterCase) : letters.apply text = text := by
  cases h with
  | mk hwhole hfraction hplaces hrounds =>
    rw [letters.apply_append, letters.apply_append, letters.apply_digits hwhole.isDigits.2,
      letters.apply_digits hfraction, apply_placesPoint]

theorem fixedForm_of_fixedText {rank places : ℕ} {alternate : Bool} {text : List Char}
    (h : fixedText rank places alternate = some text) :
    FixedForm (rankValue rank) places alternate text := by
  rw [fixedText, Option.ite_none_right_eq_some] at h
  obtain rfl := Option.some.inj h.2
  obtain ⟨whole, fraction, htext, hplaced⟩ := exists_positional_point places
    (roundToPlaces (exactDecimal rank) places)
  rw [fixedDigits, htext]
  refine .mk hplaced.isWhole hplaced.isDigit hplaced.length ?_
  rw [hplaced.magnitude, Option.getD_none, zero_sub]
  exact roundsTo_roundToPlaces rank places

/-! ### Exponent form -/

structure PowerDigits (n : ℕ) (ds : List Char) : Prop where
  isDigit : ∀ c ∈ ds, c.isDigit
  value : decimalValue ds = n
  two_le : 2 ≤ ds.length
  head : 2 < ds.length → ds.head? ≠ some '0'

theorem powerDigits_paddedDigits (n : ℕ) : PowerDigits n (paddedDigits 2 n) where
  isDigit _ hc := isDigit_of_mem_paddedDigits hc
  value := decimalValue_paddedDigits 2 n
  two_le := by
    rw [length_paddedDigits]
    exact Nat.le_max_left _ _
  head := by
    intro h
    rw [length_paddedDigits] at h
    have hpos : 0 < n := by
      rcases Nat.eq_zero_or_pos n with rfl | hpos
      · have hone : (digits 0).length = 1 := rfl
        omega
      · exact hpos
    have hzeros : 2 - (digits n).length = 0 := by omega
    rw [paddedDigits, hzeros]
    exact head_digits_ne_zero hpos

/-- A value in a digit, its places, and a power of ten, rounded to that many significant digits. -/
inductive ExponentForm (x : ℚ) (places : ℕ) (alternate : Bool) (letters : LetterCase) :
    List Char → Prop
  | mk {lead : Char} {fraction power : List Char} {exponent : ℤ} (hlead : lead.isDigit)
      (hzero : lead = '0' ↔ x = 0) (hfraction : ∀ c ∈ fraction, c.isDigit)
      (hplaces : fraction.length = places) (hpower : PowerDigits exponent.natAbs power)
      (hrounds : RoundsTo (10 ^ (Int.log 10 x - places)) x
        (DecimalLiteral.mk false [lead] fraction (some exponent)).magnitude) :
      ExponentForm x places alternate letters ([lead] ++ placesPoint places alternate ++ fraction
        ++ letters.exponentMark :: (if exponent < 0 then '-' else '+') :: power)

theorem ExponentForm.apply {x : ℚ} {places : ℕ} {alternate : Bool} {text : List Char}
    (h : ExponentForm x places alternate .lower text) (letters : LetterCase) :
    ExponentForm x places alternate letters (letters.apply text) := by
  cases h with
  | @mk lead fraction power exponent hlead hzero hfraction hplaces hpower hrounds =>
    have hmark : letters.apply (LetterCase.lower.exponentMark
        :: (if exponent < 0 then '-' else '+') :: power)
        = letters.exponentMark :: (if exponent < 0 then '-' else '+') :: power := by
      rw [← List.singleton_append, ← List.singleton_append (l := power), letters.apply_append,
        letters.apply_append, letters.apply_digits hpower.isDigit]
      split <;> cases letters <;> rfl
    have hfirst : letters.apply [lead] = [lead] :=
      letters.apply_digits fun c hc => List.mem_singleton.mp hc ▸ hlead
    rw [letters.apply_append, letters.apply_append, letters.apply_append, hmark, hfirst,
      letters.apply_digits hfraction, apply_placesPoint]
    exact .mk hlead hzero hfraction hplaces hpower hrounds

theorem exponentForm_of_scientificText {rank places : ℕ} {alternate : Bool} {text : List Char}
    (h : scientificText rank places alternate = some text) :
    ExponentForm (rankValue rank) places alternate .lower text := by
  rw [scientificText, Option.ite_none_right_eq_some] at h
  obtain rfl := Option.some.inj h.2
  have hlt := Scientific.coefficient_ofRank_lt rank places
  have hround := Scientific.roundsTo_ofRank rank places
  have hzero : (Scientific.ofRank rank places).coefficient < 10 ^ places ↔ rankValue rank = 0 := by
    rw [rankValue_eq_zero]
    constructor
    · intro hsmall
      by_contra hrank
      exact absurd (Scientific.le_coefficient_ofRank hrank places) (Nat.not_le.mpr hsmall)
    · rintro rfl
      rw [Scientific.ofRank_zero]
      exact Nat.pow_pos (by decide)
  generalize Scientific.ofRank rank places = s at hlt hround hzero
  obtain ⟨whole, fraction, htext, hplaced⟩ := exists_positional_point places s.coefficient
  obtain ⟨lead, rfl, hlead, hsmall⟩ := hplaced.exists_lead hlt
  rw [mantissaText, htext, exponentText]
  refine .mk hlead (hsmall.trans hzero) hplaced.isDigit hplaced.length
    (powerDigits_paddedDigits _) ?_
  rw [hplaced.magnitude, Option.getD_some]
  exact hround

/-! ### Renderings -/

theorem render_of_floatField {d : Directive} {letters : LetterCase}
    {form : ℕ → ℕ → Bool → Option (List Char)} {v : Value} {config : Config} {negative : Bool}
    {rank : Fin rankLimit} (hwidth : d.width = none) (hvalue : v.toNumber = .finite negative rank)
    (hfield : d.field v config = floatField d letters form v.toNumber config) :
    d.render v config = (form rank (config.precisionOf d) d.flags.alternate).map fun body =>
      d.flags.signFor negative ++ letters.apply body := by
  rw [Directive.render, hfield, hvalue, hwidth, floatField, Option.map_map, Option.getD_none]
  congr 1
  funext body
  rw [Function.comp_apply, Field.pad_zero, Field.text, List.append_nil, Number.isNegative]

namespace Directive

/-- A finite number in `f F e E` is its sign and its magnitude, rounded correctly: half a step from
the exact value at most, and from the middle to the even digit. The printer has the digits for
every precision up to its limit. -/
theorem render_rounded {d : Directive} {v : Value} {negative : Bool} {rank : Fin rankLimit}
    (hwidth : d.width = none) (hvalue : v.toNumber = .finite negative rank)
    (letters : LetterCase) (config : Config) :
    (d.conversion = .fixed letters →
      (d.render v config = none ↔ maxFractionDigits < config.precisionOf d) ∧
      ∀ text, d.render v config = some text → ∃ body, text = d.flags.signFor negative ++ body ∧
        FixedForm (rankValue rank) (config.precisionOf d) d.flags.alternate body) ∧
    (d.conversion = .exponent letters →
      (d.render v config = none ↔ maxFractionDigits < config.precisionOf d) ∧
      ∀ text, d.render v config = some text → ∃ body, text = d.flags.signFor negative ++ body ∧
        ExponentForm (rankValue rank) (config.precisionOf d) d.flags.alternate letters body) := by
  constructor
  · intro hconversion
    have hfield : d.field v config = floatField d letters fixedText v.toNumber config := by
      rw [field, hconversion]
    rw [render_of_floatField hwidth hvalue hfield, Option.map_eq_none_iff, fixedText_eq_none_iff]
    refine ⟨Iff.rfl, fun text htext => ?_⟩
    obtain ⟨body, hbody, rfl⟩ := Option.map_eq_some_iff.mp htext
    have hform := fixedForm_of_fixedText hbody
    exact ⟨_, rfl, (hform.apply letters).symm ▸ hform⟩
  · intro hconversion
    have hfield : d.field v config = floatField d letters scientificText v.toNumber config := by
      rw [field, hconversion]
    rw [render_of_floatField hwidth hvalue hfield, Option.map_eq_none_iff,
      scientificText_eq_none_iff]
    refine ⟨Iff.rfl, fun text htext => ?_⟩
    obtain ⟨body, hbody, rfl⟩ := Option.map_eq_some_iff.mp htext
    exact ⟨_, rfl, (exponentForm_of_scientificText hbody).apply letters⟩

theorem render_rounded_carry :
    let d : Directive := ⟨{}, none, some 0, none, .exponent .upper⟩
    let rank : Fin rankLimit := ⟨1026 * binade + 3 * 2 ^ 48, by decide⟩
    let v : Value := .number (.finite true rank)
    d.width = none ∧ v.toNumber = .finite true rank ∧
      d.render v {} = some "-1E+01".toList ∧
      ∃ body, "-1E+01".toList = '-' :: body ∧
        ExponentForm (rankValue rank) 0 false .upper body := by
  intro d rank v
  have hrender : d.render v {} = some "-1E+01".toList := by decide +kernel
  obtain ⟨-, hexponent⟩ := render_rounded (d := d) (v := v) rfl rfl .upper {}
  exact ⟨rfl, rfl, hrender, (hexponent rfl).2 _ hrender⟩

end Directive
end ScriptBuiltins
