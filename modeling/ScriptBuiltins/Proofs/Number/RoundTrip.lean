import ScriptBuiltins.Proofs.Json.Decoding
import ScriptBuiltins.Proofs.Number.Spelling
import ScriptBuiltins.Proofs.Render.Binding

/-!
Numbers survive being written as script text and read back. Every number of the JSON grammar is a
script numeral with the same literal, so the layouts of shortest digits are read as what they spell.
-/
namespace ScriptBuiltins

namespace Number

theorem ofText_numberText {l : DecimalLiteral} {text : List Char} (h : Json.NumberText l text) :
    ofText text = l.toNumber := by
  rw [ofText, (Json.ValueText.number h).trimBlanks, ofNumeral_of_decimalText h.decimalText]

theorem ofText_magnitude (layout : Layout) (negative : Bool) {rank : Fin rankLimit}
    (hrank : rank.val ≠ 0) :
    ofText (signed negative (layout.magnitude rank)) = .finite negative rank := by
  obtain ⟨l, htext, hnumber⟩ := exists_literal_magnitude layout negative hrank
  rw [ofText_numberText htext, hnumber]

/-- Script text is read as the number it was written from, but for the sign of a zero. -/
theorem ofText_toText (x : Number) : ofText x.toText = if x.equals zero then zero else x := by
  cases x with
  | nan => decide
  | infinite negative => cases negative <;> decide
  | finite negative rank =>
    by_cases hrank : rank.val = 0
    · have hzero : (finite negative rank).equals zero = true := by
        simp [equals, zero, Fin.ext_iff, hrank]
      rw [if_pos hzero, toText, if_pos hrank]
      decide
    · have hzero : ¬ (finite negative rank).equals zero = true := by
        simp [equals, zero, Fin.ext_iff, hrank]
      rw [if_neg hzero, toText, if_neg hrank, ofText_magnitude Layout.script negative hrank]

theorem signBit_add_mod (bits : UInt64) :
    (if signBit ≤ bits.toNat then signBit else 0) + bits.toNat % signBit = bits.toNat := by
  have hlt := bits.toNat_lt
  have hbit : signBit = 9223372036854775808 := rfl
  rw [hbit]
  split <;> omega

theorem bits?_ofBits (bits : UInt64) :
    (ofBits bits).bits? = if (ofBits bits).isNaN then none else some bits := by
  have hjoin := signBit_add_mod bits
  have hbits : UInt64.ofNat bits.toNat = bits := UInt64.ofNat_toNat
  rw [ofBits]
  by_cases hle : bits.toNat % signBit ≤ rankLimit
  · simp only [if_pos hle]
    by_cases hlt : bits.toNat % signBit < rankLimit
    · rw [ofRank_of_lt _ hlt]
      simp [bits?, isNaN, hjoin, hbits]
    · have heq : rankLimit = bits.toNat % signBit := by omega
      rw [ofRank_of_le _ (Nat.le_of_eq heq)]
      simp [bits?, isNaN, heq, hjoin, hbits]
  · simp [hle, bits?, isNaN]

theorem equals_zero_ofBits (bits : UInt64) :
    (ofBits bits).equals zero = true ↔ bits = 0 ∨ bits = 0x8000000000000000 := by
  have hlt := bits.toNat_lt
  have hbit : signBit = 9223372036854775808 := rfl
  have hzero : bits = 0 ∨ bits = 0x8000000000000000 ↔ bits.toNat % signBit = 0 := by
    rw [← UInt64.toNat_inj, ← UInt64.toNat_inj, hbit]
    simp only [UInt64.toNat_ofNat]
    omega
  have hpos : 0 < rankLimit := by decide
  rw [hzero, ofBits]
  by_cases hlt : bits.toNat % signBit < rankLimit
  · rw [if_pos (Nat.le_of_lt hlt), ofRank_of_lt _ hlt]
    simp only [equals, zero, Bool.and_eq_true, beq_iff_eq, Fin.mk.injEq, Bool.or_eq_true,
      decide_eq_false_iff_not]
    constructor
    · rintro ⟨h, -⟩
      exact h
    · intro h
      exact ⟨h, .inr h⟩
  · have hrank : bits.toNat % signBit ≠ 0 := by omega
    split
    · rw [ofRank_of_le _ (Nat.le_of_not_lt hlt)]
      simp [equals, zero, hrank]
    · simp [equals, hrank]

theorem render_text (x : Number) (config : Config) :
    Directive.render ⟨{}, none, none, none, .text⟩ (.number x) config = some x.toText := by
  simp [Directive.render, Directive.field, Field.pad, Field.text, Value.toText, Value.asText?,
    Value.asNumber?]

theorem result_format_text (x : Number) : (format "%s" [.number x]).result = .ok x.toText := by
  have hparse : Template.parse "%s" = .ok ⟨"%s", [.directive ⟨{}, none, none, none, .text⟩ 0]⟩ := by
    decide +kernel
  have hcheck : Config.check {} ⟨{}, none, none, none, .text⟩ = .ok () := rfl
  rw [format, formatWith, hparse]
  show (Segment.renderAll {} ⟨[.number x], 0, none⟩
    [.directive ⟨{}, none, none, none, .text⟩ 0]).result = _
  simp [Segment.renderAll, hcheck, Arguments.bind, render_text, Rendering.result_report,
    Rendering.result_prepend, Except.map]

theorem isNaN_of_equals {x y : Number} (h : x.equals y = true) : x.isNaN = false := by
  cases x with
  | nan => cases h
  | infinite negative => rfl
  | finite negative rank => rfl

/-- Written by `%s` and coerced back to a number, every double is the same to the bit. Only a zero
comes back without its sign, and a NaN as some NaN. -/
theorem toText_survives (bits : UInt64) :
    (ofText (ofBits bits).toText).isNaN = (ofBits bits).isNaN ∧
    (ofText (ofBits bits).toText).bits? = (if (ofBits bits).isNaN then none
      else some (if bits = 0x8000000000000000 then 0 else bits)) ∧
    ∃ text, (format "%s" [.number (ofBits bits)]).result = .ok text ∧
      (Value.string (String.ofList text)).toNumber = ofText (ofBits bits).toText := by
  have hzero := equals_zero_ofBits bits
  refine ⟨?_, ?_, (ofBits bits).toText, result_format_text (ofBits bits), ?_⟩
  · rw [ofText_toText]
    split
    · next h => rw [isNaN_of_equals h]; rfl
    · rfl
  · rw [ofText_toText]
    split
    · next h =>
      rw [isNaN_of_equals h]
      obtain rfl | rfl := hzero.mp h <;> rfl
    · next h =>
      have hne : bits ≠ 0x8000000000000000 := fun heq => h (hzero.mpr (.inr heq))
      rw [bits?_ofBits, if_neg hne]
  · simp [Value.toNumber, Value.asNumber?, Value.asText?]

end Number
end ScriptBuiltins
