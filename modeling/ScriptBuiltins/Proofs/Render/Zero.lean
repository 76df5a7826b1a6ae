import ScriptBuiltins.Proofs.Render.General

/-!
A zero in the alternate form of `g G`. The digits it is to have are counted in a signed word, and
the printer is asked for none before that. Of a precision of `2^32` and more it has the rest that is
left in the word, if the printer has so many digits.
-/
namespace ScriptBuiltins

def zeroText (count : ℕ) : List Char := '0' :: '.' :: List.replicate (count - 1) '0'

theorem zeroText_inj {m n : ℕ} (hm : 0 < m) (hn : 0 < n) : zeroText m = zeroText n ↔ m = n := by
  refine ⟨fun h => ?_, congrArg zeroText⟩
  have hlength := congrArg List.length h
  simp only [zeroText, List.length_cons, List.length_replicate] at hlength
  omega

theorem LetterCase.apply_zeroText (letters : LetterCase) (count : ℕ) :
    letters.apply (zeroText count) = zeroText count := by
  have hzeros (n : ℕ) : ∀ c ∈ List.replicate n '0', c.isDigit := by
    intro c hc
    rw [List.eq_of_mem_replicate hc]
    rfl
  have hempty : letters.apply [] = [] := by cases letters <;> rfl
  have hparts := apply_parts letters (hzeros 1) (.inl rfl) (hzeros (count - 1)) []
  rwa [hempty, List.append_nil] at hparts

theorem roundToPlaces_zero (places : ℕ) : roundToPlaces 0 places = 0 := by
  rw [roundToPlaces]
  split
  · have hpow : 0 < Nat.pow 10 (exactPlaces - places) := Nat.pow_pos (by decide)
    rw [halfEven, Nat.zero_div, Nat.zero_mod, Nat.mul_zero, Nat.compare_eq_lt.mpr hpow]
    rfl
  · exact Nat.zero_mul _

theorem paddedDigits_zero (places : ℕ) :
    paddedDigits (places + 1) 0 = '0' :: List.replicate places '0' := by
  have hone : digits 0 = ['0'] := rfl
  rw [paddedDigits, hone, ← List.replicate_succ, List.replicate_succ']
  rfl

theorem fixedText_zero (places : ℕ) : fixedText 0 places true
    = if places ≤ maxFractionDigits then some (zeroText (places + 1)) else none := by
  split
  · next hplaces =>
    obtain ⟨whole, fraction, hplaced, htext⟩ := exists_fixedText 0 hplaces
    rw [exactDecimal_zero, roundToPlaces_zero] at hplaced
    have hone : whole.length = 1 := hplaced.length_whole (Nat.pow_pos (by decide))
    obtain ⟨c, rfl⟩ := List.length_eq_one_iff.mp hone
    have hdigits := hplaced.padded.trans (paddedDigits_zero places)
    obtain ⟨rfl, rfl⟩ := List.cons.inj hdigits
    rw [htext]
    cases places <;> rfl
  · next hplaces => exact (fixedText_eq_none_iff 0 places true).mpr (by omega)

/-- The digits left of a precision are those of its word, where it is positive. Where it is not, the
exponent form is asked for, with all of them. -/
theorem generalText_zero {precision kept : ℕ} (hkept : max precision 1 % shortWordLimit = kept) :
    generalText 0 precision true
      = if 0 < kept ∧ kept ≤ maxFractionDigits + 1 then some (zeroText kept) else none := by
  have hlimit : maxFractionDigits = 65535 := rfl
  have hshort : shortWordLimit = 4294967296 := rfl
  have hword := signedWord_cases (max precision 1)
  rw [hkept, hshort] at hword
  rw [hshort] at hkept
  rw [generalText_eq, generalExponent?, if_pos rfl, Option.bind_some, if_pos rfl, Option.map_id, id,
    generalPlaces]
  cases hscientific : isScientific precision 0 with
  | true =>
    rw [isScientific, decide_eq_true_iff] at hscientific
    rw [if_pos rfl, if_neg (by omega), magnitudeText, scientificText_eq_none_iff]
    omega
  | false =>
    rw [isScientific, decide_eq_false_iff_not] at hscientific
    have hplaces : (signedWord (max precision 1) - 1 - 0).toNat = kept - 1 := by omega
    rw [if_neg Bool.false_ne_true, magnitudeText, hplaces, fixedText_zero,
      Nat.sub_add_cancel (by omega : 1 ≤ kept)]
    exact if_congr (by omega) rfl rfl

namespace Directive

/-- A zero in the alternate form of `g G` is not rendered, or it has the digits of its precision up
to a multiple of `2^32`. These are all of them, unless the precision goes past the word. -/
theorem render_general_zero {d : Directive} {letters : LetterCase}
    (hconversion : d.conversion = .general letters) (halternate : d.flags.alternate = true)
    (hwidth : d.width = none) {v : Value} {negative : Bool} {rank : Fin rankLimit}
    (hvalue : v.toNumber = .finite negative rank) (hzero : rank.val = 0) (config : Config) :
    let sign := d.flags.signFor negative
    let asked := max (config.precisionOf d) 1
    let kept := asked % shortWordLimit
    d.render v config = (if 0 < kept ∧ kept ≤ maxFractionDigits + 1 then
      some (sign ++ zeroText kept) else none) ∧
    ((d.render v config = none ∨ d.render v config = some (sign ++ zeroText asked)) ↔
      ¬ (shortWordLimit ≤ asked ∧ 0 < kept ∧ kept ≤ maxFractionDigits + 1)) := by
  intro sign asked kept
  have hfield : d.field v config = floatField d letters generalText v.toNumber config := by
    rw [field, hconversion]
  have hrender : d.render v config = if 0 < kept ∧ kept ≤ maxFractionDigits + 1 then
      some (sign ++ zeroText kept) else none := by
    rw [render_of_floatField hwidth hvalue hfield, halternate, hzero, generalText_zero rfl]
    split
    · rw [Option.map_some, LetterCase.apply_zeroText]
    · rfl
  refine ⟨hrender, ?_⟩
  rw [hrender]
  by_cases hkept : 0 < kept ∧ kept ≤ maxFractionDigits + 1
  · have hasked : 0 < asked := Nat.lt_of_lt_of_le Nat.one_pos (Nat.le_max_right _ 1)
    have hword : kept = asked ↔ asked < shortWordLimit := Nat.mod_eq_iff_lt (by decide)
    rw [if_pos hkept, Option.some_inj, List.append_cancel_left_eq, zeroText_inj hkept.1 hasked,
      hword]
    simp [hkept]
  · simp [hkept]

theorem render_general_zero_limit :
    let d : Directive := ⟨{ alternate := true }, none, some 65536, none, .general .lower⟩
    let rank : Fin rankLimit := ⟨0, by decide⟩
    let v : Value := .number (.finite true rank)
    d.conversion = .general .lower ∧ d.flags.alternate = true ∧ d.width = none ∧
      v.toNumber = .finite true rank ∧ rank.val = 0 ∧
      d.render v { maxPrecision := 65536 } = some ('-' :: zeroText 65536) := by
  intro d rank v
  exact ⟨rfl, rfl, rfl, rfl, rfl, (render_general_zero (d := d) (v := v) rfl rfl rfl rfl rfl _).1⟩

end Directive

/-- Of a precision of `2^32 + 1` one digit is left. -/
theorem formatWith_general_zero_short :
    let config : Config := { maxPrecision := 4294967297 }
    (formatWith "%#.4294967297g" [.number .zero] config).result = .ok "0.".toList ∧
      "0.".toList ≠ zeroText 4294967297 := by
  refine ⟨by decide +kernel, fun hsame => ?_⟩
  have hlength := congrArg List.length hsame
  simp only [zeroText, List.length_cons, List.length_replicate] at hlength
  contradiction

end ScriptBuiltins
