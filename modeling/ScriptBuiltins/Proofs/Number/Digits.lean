import Mathlib.Tactic.Ring
import ScriptBuiltins.Number.Decimal
import ScriptBuiltins.Number.Numeral
import ScriptBuiltins.Proofs.Text.Runs

namespace ScriptBuiltins

theorem decimalValue_digits (n : Nat) : decimalValue (digits n) = n := Nat.ofDigitChars_ten_toDigits

theorem isDigit_of_mem_digits {n : Nat} {c : Char} (h : c ∈ digits n) : c.isDigit :=
  Nat.isDigit_of_mem_toDigits (by decide) (by decide) h

theorem digits_ne_nil (n : Nat) : digits n ≠ [] := Nat.toDigits_ne_nil

theorem digits_eq_append {n : Nat} (h : 10 ≤ n) :
    digits n = digits (n / 10) ++ [Nat.digitChar (n % 10)] :=
  Nat.toDigits_of_base_le (by decide) h

theorem head_digits_ne_zero {n : Nat} (h : 0 < n) : (digits n).head? ≠ some '0' := by
  induction n using Nat.strongRecOn with
  | ind n ih =>
    by_cases hn : n < 10
    · rw [digits, Nat.toDigits_of_lt_base hn]
      have hall : ∀ m < 10, 0 < m → [Nat.digitChar m].head? ≠ some '0' := by decide
      exact hall n hn h
    · have hhead := ih (n / 10) (by omega) (by omega)
      rw [digits_eq_append (by omega)]
      cases hds : digits (n / 10) with
      | nil => exact absurd hds (digits_ne_nil _)
      | cons c cs => rwa [hds] at hhead

theorem decimalValue_cons (c : Char) (cs : List Char) :
    decimalValue (c :: cs) = 10 ^ cs.length * (c.toNat - '0'.toNat) + decimalValue cs := by
  rw [decimalValue, Nat.ofDigitChars_cons, Nat.ofDigitChars_eq_ofDigitChars_zero]
  simp [decimalValue]

theorem decimalValue_pos {c : Char} {cs : List Char} (hdigit : c.isDigit) (hne : c ≠ '0') :
    0 < decimalValue (c :: cs) := by
  have hge := (Char.isDigit_iff_toNat.mp hdigit).1
  have hne' : c.toNat ≠ '0'.toNat := fun h => hne (Char.toNat_inj.mp h)
  have hc : 0 < c.toNat - '0'.toNat := by omega
  rw [decimalValue_cons]
  have hpow : 0 < 10 ^ cs.length := Nat.pow_pos (by decide)
  have := Nat.mul_pos hpow hc
  omega

theorem decimalValue_append (as bs : List Char) :
    decimalValue (as ++ bs) = 10 ^ bs.length * decimalValue as + decimalValue bs := by
  rw [decimalValue, Nat.ofDigitChars_append, Nat.ofDigitChars_eq_ofDigitChars_zero]
  rfl

theorem decimalValue_zeros (n : Nat) : decimalValue (List.replicate n '0') = 0 := by
  induction n with
  | zero => rfl
  | succ n ih => rw [List.replicate_succ, decimalValue_cons, ih]; simp

theorem decimalValue_lt {ds : List Char} (h : ∀ c ∈ ds, c.isDigit) :
    decimalValue ds < 10 ^ ds.length := by
  induction ds with
  | nil => exact Nat.one_pos
  | cons c cs ih =>
    have hrest := ih fun d hd => h d (List.mem_cons_of_mem c hd)
    have hnine := (Char.isDigit_iff_toNat.mp (h c List.mem_cons_self)).2
    have hten : '9'.toNat - '0'.toNat = 9 := rfl
    have hle : 10 ^ cs.length * (c.toNat - '0'.toNat) ≤ 10 ^ cs.length * 9 :=
      Nat.mul_le_mul_left _ (by omega)
    rw [decimalValue_cons, List.length_cons, Nat.pow_succ]
    omega

/-- Digits of which the first one counts. -/
structure Significant (ds : List Char) : Prop where
  isDigit : ∀ c ∈ ds, c.isDigit
  nonempty : ds ≠ []
  head : ds.head? ≠ some '0'

theorem significant_digits {n : Nat} (h : 0 < n) : Significant (digits n) where
  isDigit _ hc := isDigit_of_mem_digits hc
  nonempty := digits_ne_nil n
  head := head_digits_ne_zero h

theorem Significant.of_append {as bs : List Char} (h : Significant (as ++ bs)) (hne : as ≠ []) :
    Significant as where
  isDigit c hc := h.isDigit c (List.mem_append_left _ hc)
  nonempty := hne
  head := by
    cases as with
    | nil => contradiction
    | cons a as => exact h.head

theorem lt_pow_length_digits (n : Nat) : n < 10 ^ (digits n).length :=
  (Nat.length_toDigits_le_iff (by decide) Nat.length_toDigits_pos).mp (Nat.le_refl _)

theorem pow_length_digits_le {n : Nat} (h : 0 < n) : 10 ^ ((digits n).length - 1) ≤ n := by
  have hlength : 0 < (digits n).length := Nat.length_toDigits_pos
  cases Nat.eq_zero_or_pos ((digits n).length - 1) with
  | inl hone =>
    rw [hone]
    exact h
  | inr hpos =>
    apply Nat.le_of_not_lt
    intro hlt
    have : (digits n).length ≤ _ := (Nat.length_toDigits_le_iff (by decide) hpos).mpr hlt
    omega

end ScriptBuiltins
