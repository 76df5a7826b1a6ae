import ScriptBuiltins.Proofs.Number.Radix
import ScriptBuiltins.Proofs.Number.Word
import ScriptBuiltins.Render.Conversion

/-!
What `d i o x X` show: the word of a number in their base, with as many digits as it takes or the
precision asks for.
-/
namespace ScriptBuiltins

/-- The fewest digits of a number. A zero takes none if the precision is an explicit zero. -/
def fewestDigits (base : Nat) (precision : Option Nat) (n : Nat) : Nat :=
  if n = 0 then if precision = some 0 then 0 else 1 else Nat.log base n + 1

/-- Digits of a base that are read as a number, and no more of them than the precision makes. -/
structure Shows (letters : LetterCase) (base : Nat) (precision : Option Nat) (n : Nat)
    (ds : List Char) : Prop where
  isDigit : ∀ c ∈ ds, letters.isDigit c
  reads : readDigits? base ds 0 = some n
  length : ds.length = max (precision.getD 0) (fewestDigits base precision n)

theorem length_toDigits_eq_fewestDigits {base n : Nat} {precision : Option Nat} (hbase : 1 < base)
    (h : ¬(precision = some 0 ∧ n = 0)) :
    (Nat.toDigits base n).length = fewestDigits base precision n := by
  rw [fewestDigits]
  split
  · next hn =>
    rw [if_neg fun hprecision => h ⟨hprecision, hn⟩, hn, Nat.toDigits_zero]
    rfl
  · next hn => exact length_toDigits hbase hn

/-- The digits of a conversion: none for a word of zero with precision zero, else those of the
number behind the zeros of the precision. -/
theorem shows_withPrecision (letters : LetterCase) {base : Nat} (hone : 1 < base)
    (hbase : base ≤ 16) (precision : Option Nat) {word n : Nat} (hzero : word = 0 ↔ n = 0) :
    Shows letters base precision n
      (withPrecision precision word (letters.apply (Nat.toDigits base n))) := by
  have hreads := LetterCase.readDigits?_toDigits hone hbase letters n
  have hdigits {c : Char} (hc : c ∈ letters.apply (Nat.toDigits base n)) : letters.isDigit c :=
    LetterCase.isDigit_of_mem_toDigits hone hbase letters hc
  have hlength (h : ¬(precision = some 0 ∧ n = 0)) :
      (letters.apply (Nat.toDigits base n)).length = fewestDigits base precision n := by
    rw [letters.length_apply, length_toDigits_eq_fewestDigits hone h]
  cases precision with
  | none =>
    refine ⟨fun c hc => hdigits hc, hreads, ?_⟩
    rw [withPrecision, hlength (by simp), Option.getD_none, Nat.zero_max]
  | some p =>
    by_cases hnone : p = 0 ∧ word = 0
    · obtain ⟨rfl, hword⟩ := hnone
      obtain rfl := hzero.mp hword
      rw [withPrecision, if_pos ⟨rfl, hword⟩]
      exact ⟨fun c hc => absurd hc List.not_mem_nil, rfl, rfl⟩
    · rw [withPrecision, if_neg hnone]
      refine ⟨fun c hc => ?_, ?_, ?_⟩
      · cases List.mem_append.mp hc with
        | inl hc =>
          rw [List.eq_of_mem_replicate hc]
          cases letters <;> decide
        | inr hc => exact hdigits hc
      · rw [readDigits?_zeros_append (by omega), hreads]
      · rw [List.length_append, List.length_replicate, Option.getD_some, hlength (by
          rintro ⟨hp, hn⟩
          exact hnone ⟨Option.some.inj hp, hzero.mpr hn⟩)]
        omega

/-! ### Fields -/

theorem negative_iff (word : Nat) : shortWordLimit ≤ 2 * word ↔ 2 ^ 31 ≤ word := by
  have hlimit : shortWordLimit = 4294967296 := rfl
  omega

theorem Flags.signFor_cases (flags : Flags) (negative : Bool) :
    negative = true ∧ flags.signFor negative = ['-'] ∨
      negative = false ∧ (flags.signFor negative = ['+'] ∨ flags.signFor negative = [' '] ∨
        flags.signFor negative = []) := by
  cases negative with
  | true => exact .inl ⟨rfl, rfl⟩
  | false =>
    refine .inr ⟨rfl, ?_⟩
    cases hplus : flags.plusSign <;> cases hspace : flags.spaceSign <;>
      simp [signFor, hplus, hspace]

theorem sign_signedField (d : Directive) (x : Number) :
    (signedField d x).sign = d.flags.signFor (decide (2 ^ 31 ≤ x.toWord)) := by
  simp only [signedField, negative_iff]

theorem shows_signedField (d : Directive) (x : Number) :
    Shows .lower 10 d.precision (if 2 ^ 31 ≤ x.toWord then 2 ^ 32 - x.toWord else x.toWord)
      (signedField d x).body := by
  have hlt : x.toWord < 2 ^ 32 := x.toWord_lt
  have hlimit : shortWordLimit = 2 ^ 32 := rfl
  simp only [signedField, decide_eq_true_eq, negative_iff]
  rw [hlimit]
  apply shows_withPrecision .lower (by decide) (by decide)
  split <;> omega

theorem shows_octalField (d : Directive) (x : Number) :
    Shows .lower 8 d.precision x.toWord (octalField d x).body :=
  shows_withPrecision .lower (by decide) (by decide) d.precision Iff.rfl

theorem shows_hexField (d : Directive) (letters : LetterCase) (x : Number) :
    Shows letters 16 d.precision x.toWord (hexField d letters x).body :=
  shows_withPrecision letters (by decide) (by decide) d.precision Iff.rfl

def Conversion.radixMark : Conversion → List Char
  | .octal => ['0']
  | .hex .lower => ['0', 'x']
  | .hex .upper => ['0', 'X']
  | _ => []

theorem radixMark_hexField (d : Directive) (letters : LetterCase) (x : Number) :
    (hexField d letters x).radixMark
      = if d.flags.alternate ∧ x.toWord ≠ 0 then (Conversion.hex letters).radixMark else [] := by
  simp only [hexField, Bool.and_eq_true, bne_iff_ne]
  cases letters <;> rfl

theorem radixMark_octalField (d : Directive) (x : Number) :
    (octalField d x).radixMark
      = if d.flags.alternate ∧ (octalField d x).body.head? ≠ some '0'
        then Conversion.octal.radixMark else [] := by
  simp only [octalField, Bool.and_eq_true, bne_iff_ne, Conversion.radixMark]

namespace Directive

theorem render_of_field {d : Directive} {v : Value} {config : Config} {f : Field}
    (hwidth : d.width = none) (h : d.field v config = some f) :
    d.render v config = some f.text := by
  rw [render, h, Option.map_some, hwidth, Option.getD_none, Field.pad_zero]

theorem field_of_signed {d : Directive} (h : d.conversion = .decimal ∨ d.conversion = .integer)
    (v : Value) (config : Config) : d.field v config = some (signedField d v.toNumber) := by
  obtain h | h := h <;> rw [field, h]

theorem field_of_octal {d : Directive} (h : d.conversion = .octal) (v : Value) (config : Config) :
    d.field v config = some (octalField d v.toNumber) := by
  rw [field, h]

theorem field_of_hex {d : Directive} {letters : LetterCase} (h : d.conversion = .hex letters)
    (v : Value) (config : Config) : d.field v config = some (hexField d letters v.toNumber) := by
  rw [field, h]

end Directive
end ScriptBuiltins
