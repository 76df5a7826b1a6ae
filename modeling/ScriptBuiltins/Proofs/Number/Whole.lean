import ScriptBuiltins.Proofs.Number.Marked
import ScriptBuiltins.Proofs.Number.Spelling
import ScriptBuiltins.Proofs.Number.Word

namespace ScriptBuiltins

theorem isDigit_of_digitValue? {c : Char} {d : ℕ} (h : digitValue? c = some d) (hd : d < 10) :
    c.isDigit ∧ c.toNat - '0'.toNat = d := by
  have hlower : 'a'.toNat = 97 := rfl
  have hupper : 'A'.toNat = 65 := rfl
  unfold digitValue? at h
  split at h
  · next hc => exact ⟨hc, Option.some.inj h⟩
  · -- The letters begin at ten.
    split at h
    · next hc =>
      have hle : 'a'.toNat ≤ c.toNat := hc.1
      have hvalue := Option.some.inj h
      omega
    · split at h
      · next hc =>
        have hle : 'A'.toNat ≤ c.toNat := hc.1
        have hvalue := Option.some.inj h
        omega
      · cases h

theorem ofDigitChars_of_readDigits? {ds : List Char} {start n : ℕ}
    (h : readDigits? 10 ds start = some n) :
    (∀ c ∈ ds, c.isDigit) ∧ Nat.ofDigitChars 10 ds start = n := by
  induction ds generalizing start with
  | nil => exact ⟨nofun, Option.some.inj h⟩
  | cons c cs ih =>
    rw [readDigits?] at h
    split at h
    · next d hvalue =>
      split at h
      · next hd =>
        obtain ⟨hc, hcode⟩ := isDigit_of_digitValue? hvalue hd
        obtain ⟨hcs, hrest⟩ := ih h
        refine ⟨List.forall_mem_cons.mpr ⟨hc, hcs⟩, ?_⟩
        rw [Nat.ofDigitChars_cons, hcode, Nat.mul_comm, hrest]
      · cases h
    · cases h

namespace DecimalLiteral

theorem toNumber_whole (negative : Bool) (ds : List Char) :
    toNumber ⟨negative, ds, [], none⟩ = .ofUnits negative (decimalValue ds * unitsPerOne) 1 := by
  simp [toNumber, coefficient, scale, Number.ofDecimal_eq]

end DecimalLiteral

namespace Number

theorem ofNumeral_whole {negative : Bool} {sign ds : List Char}
    (hsign : Json.SignText negative sign) (hds : Json.IsDigits ds) :
    ofNumeral (sign ++ ds) = ofUnits negative (decimalValue ds * unitsPerOne) 1 := by
  have htext := DecimalText.mk hsign hds.2 .none (.inl hds.1) .none
  rw [List.append_nil, List.append_nil] at htext
  rw [ofNumeral_of_decimalText htext, DecimalLiteral.toNumber_whole]

/-- A sign without digits is a zero or no number at all, and so has the word of no digits too. -/
theorem toWord_ofNumeral_whole {negative : Bool} {sign ds : List Char} {n : ℕ}
    (hsign : Json.SignText negative sign) (hreads : readDigits? 10 ds 0 = some n)
    (hlt : n < shortWordLimit) :
    (ofNumeral (sign ++ ds)).toWord
      = (if negative then shortWordLimit - n else n) % shortWordLimit := by
  obtain rfl | hne := eq_or_ne ds []
  · obtain rfl := Option.some.inj hreads
    cases hsign <;> decide +kernel
  · obtain ⟨hdigit, hvalue⟩ := ofDigitChars_of_readDigits? hreads
    rw [ofNumeral_whole hsign ⟨hne, hdigit⟩, decimalValue, hvalue, toWord_ofUnits negative hlt]

theorem toWord_ofNumeral_marked {mark : Char} {base : ℕ} {ds : List Char} {n : ℕ}
    (hmark : radix? mark = some base) (hne : ds ≠ []) (hreads : readDigits? base ds 0 = some n)
    (hlt : n < shortWordLimit) : (ofNumeral ('0' :: mark :: ds)).toWord = n := by
  have hselected := radix?_eq_some_iff.mp hmark
  have hbase := le_sixteen_of_mem_radixMarks hselected
  obtain ⟨hplace, hvalue⟩ := (readDigits?_eq_some_iff hbase).mp hreads
  rw [Nat.zero_mul, Nat.zero_add] at hvalue
  have hlimit : n < wordLimit := Nat.lt_trans hlt (by decide)
  have hword : readWord? base ds = some n :=
    (readWord?_eq_some_iff hbase).mpr ⟨ds, .inl rfl, ⟨hne, hplace⟩, hvalue.symm, hlimit⟩
  rw [ofNumeral_marked hselected, hword, Option.map_some, Option.getD_some, ofNat,
    toWord_ofUnits false hlt, if_neg Bool.false_ne_true, Nat.mod_eq_of_lt hlt]

end Number
end ScriptBuiltins
