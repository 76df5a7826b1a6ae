import ScriptBuiltins.Proofs.Number.Marked
import ScriptBuiltins.Proofs.Number.Spelling

/-!
The texts that are numbers: nothing, decimal literals, the infinities, and digits behind a radix
mark. The reader takes no other text for a number, but for a plus sign between a mark and its digits.
-/
namespace ScriptBuiltins

inductive PlainText : List Char → Prop
  | empty : PlainText []
  | decimal {l : DecimalLiteral} {cs : List Char} (h : DecimalText l cs) : PlainText cs
  | infinity {negative : Bool} {sign : List Char} (h : Json.SignText negative sign) :
      PlainText (sign ++ "Infinity".toList)

/-- Digits behind a radix mark and what they denote, with a given text between mark and digits. -/
inductive MarkedText (between : List Char) : ℕ → List Char → Prop
  | mk {mark : Char} {base : ℕ} {ds : List Char} (hmark : (mark, base) ∈ radixMarks)
      (hds : RadixDigits base ds) :
      MarkedText between (radixValue base ds) ('0' :: mark :: (between ++ ds))

/-- The numerals of a script: nothing stands between a mark and its digits. -/
def NumeralText (cs : List Char) : Prop := PlainText cs ∨ ∃ n, MarkedText [] n cs

theorem not_numeralText_plus {mark : Char} {base : ℕ} (hmark : (mark, base) ∈ radixMarks)
    (ds : List Char) : ¬ NumeralText ('0' :: mark :: '+' :: ds) := by
  generalize htext : '0' :: mark :: '+' :: ds = cs
  rintro (h | ⟨n, h⟩)
  · cases h with
    | empty => cases htext
    | decimal h =>
      subst htext
      have hnone := h.radix?_eq_none
      rw [radix?_eq_some_iff.mpr hmark] at hnone
      cases hnone
    | infinity h => cases h <;> cases htext
  · cases h with
    | mk hother hds =>
      have htail := (List.cons.inj (List.cons.inj htext).2).2
      exact hds.ne_plus (le_sixteen_of_mem_radixMarks hother) ds htail.symm

namespace Number

theorem isNaN_ofNumeral_marked {mark : Char} {base : ℕ} (hmark : (mark, base) ∈ radixMarks)
    (rest : List Char) : (ofNumeral ('0' :: mark :: rest)).isNaN = false ↔
      ∃ ds, (rest = ds ∨ rest = '+' :: ds) ∧ RadixDigits base ds ∧ radixValue base ds < wordLimit := by
  have hbase := le_sixteen_of_mem_radixMarks hmark
  rw [ofNumeral_marked hmark]
  constructor
  · intro h
    cases hword : readWord? base rest with
    | none =>
      rw [hword] at h
      cases h
    | some n =>
      obtain ⟨ds, hrest, hds, rfl, hlt⟩ := (readWord?_eq_some_iff hbase).mp hword
      exact ⟨ds, hrest, hds, hlt⟩
  · rintro ⟨ds, hrest, hds, hlt⟩
    rw [(readWord?_eq_some_iff hbase).mpr ⟨ds, hrest, hds, rfl, hlt⟩, Option.map_some,
      Option.getD_some]
    exact isNaN_ofRank _ _

theorem isNaN_of_plainText {cs : List Char} (h : PlainText cs) : (ofNumeral cs).isNaN = false := by
  cases h with
  | empty => rfl
  | decimal h => rw [ofNumeral_of_decimalText h, DecimalLiteral.isNaN_toNumber]
  | infinity h => cases h <;> decide +kernel

theorem plainText_of_isNaN {cs : List Char}
    (h : (((DecimalLiteral.parse? cs).map DecimalLiteral.toNumber).getD .nan).isNaN = false) :
    PlainText cs := by
  cases hparse : DecimalLiteral.parse? cs with
  | none =>
    rw [hparse] at h
    cases h
  | some l => exact .decimal (DecimalLiteral.parse?_eq_some_iff.mp hparse)

theorem plainText_or_marked_of_isNaN {cs : List Char} (h : (ofNumeral cs).isNaN = false) :
    PlainText cs ∨ ∃ mark base rest, (mark, base) ∈ radixMarks ∧ cs = '0' :: mark :: rest := by
  unfold ofNumeral at h
  split at h
  · exact .inl .empty
  · next mark rest =>
    cases hradix : radix? mark with
    | some base => exact .inr ⟨mark, base, rest, radix?_eq_some_iff.mp hradix, rfl⟩
    | none =>
      rw [hradix] at h
      exact .inl (plainText_of_isNaN h)
  · split at h
    · next hinfinity =>
      obtain ⟨sign, hsign, hcs⟩ := exists_signText cs
      rw [hcs, hinfinity]
      exact .inl (.infinity hsign)
    · exact .inl (plainText_of_isNaN h)

/-- A text is a number exactly if, blanks around it aside, it is a numeral of which the digits behind
a mark fit a word. A plus sign in front of such digits does not make it less of a number. -/
theorem isNaN_ofText_iff (cs : List Char) : (ofText cs).isNaN = false ↔
    PlainText (trimBlanks cs) ∨ ∃ n < wordLimit,
      MarkedText [] n (trimBlanks cs) ∨ MarkedText ['+'] n (trimBlanks cs) := by
  rw [ofText]
  generalize trimBlanks cs = core
  constructor
  · intro h
    obtain hplain | ⟨mark, base, rest, hmark, rfl⟩ := plainText_or_marked_of_isNaN h
    · exact .inl hplain
    · obtain ⟨ds, rfl | rfl, hds, hlt⟩ := (isNaN_ofNumeral_marked hmark rest).mp h
      · exact .inr ⟨_, hlt, .inl (.mk hmark hds)⟩
      · exact .inr ⟨_, hlt, .inr (.mk hmark hds)⟩
  · rintro (h | ⟨n, hlt, h | h⟩)
    · exact isNaN_of_plainText h
    · cases h with
      | mk hmark hds => exact (isNaN_ofNumeral_marked hmark _).mpr ⟨_, .inl rfl, hds, hlt⟩
    · cases h with
      | mk hmark hds => exact (isNaN_ofNumeral_marked hmark _).mpr ⟨_, .inr rfl, hds, hlt⟩

/-- Five is read from a text that is no numeral. -/
theorem isNaN_ofText_plus : (ofText "0x+5".toList).isNaN = false ∧
    ¬ NumeralText (trimBlanks "0x+5".toList) := by
  have hmark : ('x', 16) ∈ radixMarks := by decide
  have htrim : trimBlanks "0x+5".toList = '0' :: 'x' :: '+' :: ['5'] := by decide +kernel
  rw [htrim]
  exact ⟨by decide +kernel, not_numeralText_plus hmark ['5']⟩

end Number
end ScriptBuiltins
