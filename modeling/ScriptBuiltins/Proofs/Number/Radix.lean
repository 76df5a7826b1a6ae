import Mathlib.Data.Nat.Log
import ScriptBuiltins.Number.Decimal
import ScriptBuiltins.Number.Numeral
import ScriptBuiltins.Template.Conversion

/-! Digits of a base up to sixteen, in letters of either case: how many there are, and that they are
read as the number they were written from. -/
namespace ScriptBuiltins

def LetterCase.isDigit (letters : LetterCase) (c : Char) : Bool :=
  c.isDigit || match letters with
    | .lower => 'a' ≤ c && c ≤ 'f'
    | .upper => 'A' ≤ c && c ≤ 'F'

def LetterCase.digit (letters : LetterCase) (d : Nat) : Char :=
  match letters with
  | .lower => Nat.digitChar d
  | .upper => (Nat.digitChar d).toUpper

namespace LetterCase

theorem isDigit_digit (letters : LetterCase) {d : Nat} (h : d < 16) :
    letters.isDigit (letters.digit d) := by
  revert d
  cases letters <;> decide

theorem digitValue?_digit (letters : LetterCase) {d : Nat} (h : d < 16) :
    digitValue? (letters.digit d) = some d := by
  revert d
  cases letters <;> decide

theorem apply_append (letters : LetterCase) (as bs : List Char) :
    letters.apply (as ++ bs) = letters.apply as ++ letters.apply bs := by
  cases letters with
  | lower => rfl
  | upper => exact List.map_append

theorem apply_digitChar (letters : LetterCase) (d : Nat) :
    letters.apply [Nat.digitChar d] = [letters.digit d] := by
  cases letters <;> rfl

/-- The last digit is the remainder, the others show the quotient. -/
theorem apply_toDigits (letters : LetterCase) {base : Nat} (hbase : 1 < base) (n : Nat) :
    letters.apply (Nat.toDigits base n) =
      (if n < base then [] else letters.apply (Nat.toDigits base (n / base)))
        ++ [letters.digit (n % base)] := by
  split
  · next h => rw [Nat.toDigits_of_lt_base h, apply_digitChar, Nat.mod_eq_of_lt h, List.nil_append]
  · next h =>
    rw [Nat.toDigits_of_base_le hbase (Nat.le_of_not_lt h), apply_append, apply_digitChar]

variable {base : Nat} (hone : 1 < base) (hbase : base ≤ 16)

include hone hbase in
theorem isDigit_of_mem_toDigits (letters : LetterCase) {n : Nat} {c : Char}
    (h : c ∈ letters.apply (Nat.toDigits base n)) : letters.isDigit c := by
  induction n using Nat.strongRecOn with
  | ind n ih =>
    have hmod : n % base < 16 := Nat.lt_of_lt_of_le (Nat.mod_lt n (by omega)) hbase
    rw [letters.apply_toDigits hone, List.mem_append, List.mem_singleton] at h
    obtain h | rfl := h
    · split at h
      · cases h
      · next hle => exact ih (n / base) (Nat.div_lt_self (by omega) hone) h
    · exact letters.isDigit_digit hmod

include hone hbase in
theorem readDigits?_toDigits (letters : LetterCase) (n : Nat) :
    readDigits? base (letters.apply (Nat.toDigits base n)) 0 = some n := by
  induction n using Nat.strongRecOn with
  | ind n ih =>
    have hmod : n % base < base := Nat.mod_lt n (by omega)
    have hlast (value : Nat) :
        readDigits? base [letters.digit (n % base)] value = some (value * base + n % base) := by
      have hvalue := letters.digitValue?_digit (Nat.lt_of_lt_of_le hmod hbase)
      simp only [readDigits?, hvalue, if_pos hmod]
    rw [letters.apply_toDigits hone, readDigits?_append]
    split
    · next h => rw [readDigits?, Option.bind_some, hlast, Nat.zero_mul, Nat.zero_add,
        Nat.mod_eq_of_lt h]
    · next h =>
      rw [ih (n / base) (Nat.div_lt_self (by omega) hone), Option.bind_some, hlast,
        Nat.div_add_mod']

end LetterCase

theorem readDigits?_zeros_append {base : Nat} (hbase : 0 < base) (n : Nat) (ds : List Char) :
    readDigits? base (List.replicate n '0' ++ ds) 0 = readDigits? base ds 0 := by
  have hzero : digitValue? '0' = some 0 := by decide
  induction n with
  | zero => rfl
  | succ n ih =>
    rw [List.replicate_succ, List.cons_append, readDigits?, hzero]
    simp only [if_pos hbase, Nat.zero_mul, Nat.add_zero]
    exact ih

theorem length_toDigits {base n : Nat} (hbase : 1 < base) (hn : n ≠ 0) :
    (Nat.toDigits base n).length = Nat.log base n + 1 := by
  have hle {k : Nat} (hk : 0 < k) : (Nat.toDigits base n).length ≤ k ↔ Nat.log base n < k := by
    rw [Nat.length_toDigits_le_iff hbase hk, Nat.log_lt_iff_lt_pow hbase hn]
  have hpos : 0 < (Nat.toDigits base n).length := Nat.length_toDigits_pos
  have hupper := (hle (Nat.succ_pos (Nat.log base n))).mpr (Nat.lt_succ_self _)
  have hlower := (hle hpos).mp (Nat.le_refl _)
  omega

end ScriptBuiltins
