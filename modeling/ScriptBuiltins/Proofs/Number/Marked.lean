import Mathlib.Data.Nat.Digits.Defs
import ScriptBuiltins.Proofs.Number.Literal
import ScriptBuiltins.Proofs.Text.Blank

/-!
Numerals behind a radix mark. Their digits are read as the word they denote, which is rounded to the
nearest double; what does not fit a word of sixty-four bits is no number.
-/
namespace ScriptBuiltins

/-- The place of a digit among the digits of the bases up to sixteen, its letter of either case; what
is no such digit is placed behind them all. -/
def digitPlace (c : Char) : ℕ := "0123456789abcdef".toList.idxOf c.toLower

def radixValue (base : ℕ) (ds : List Char) : ℕ := Nat.ofDigits base (ds.map digitPlace).reverse

structure RadixDigits (base : ℕ) (ds : List Char) : Prop where
  nonempty : ds ≠ []
  place : ∀ c ∈ ds, digitPlace c < base

instance (base : ℕ) (ds : List Char) : Decidable (RadixDigits base ds) :=
  decidable_of_iff (ds ≠ [] ∧ ds.all (digitPlace · < base)) <| by
    rw [List.all_eq_true]
    simp only [decide_eq_true_eq]
    exact ⟨fun h => ⟨h.1, h.2⟩, fun h => ⟨h.nonempty, h.place⟩⟩

def radixMarks : List (Char × ℕ) :=
  [('x', 16), ('X', 16), ('o', 8), ('O', 8), ('b', 2), ('B', 2)]

theorem radix?_eq_some_iff {mark : Char} {base : ℕ} :
    radix? mark = some base ↔ (mark, base) ∈ radixMarks := by
  constructor
  · intro h
    unfold radix? at h
    split at h
    case h_7 => cases h
    all_goals
      obtain rfl := Option.some.inj h
      decide
  · intro h
    have hall : ∀ p ∈ radixMarks, radix? p.1 = some p.2 := by decide
    exact hall _ h

theorem le_sixteen_of_mem_radixMarks {mark : Char} {base : ℕ} (h : (mark, base) ∈ radixMarks) :
    base ≤ 16 := by
  have hall : ∀ p ∈ radixMarks, p.2 ≤ 16 := by decide
  exact hall _ h

theorem isBlank_of_mem_radixMarks {mark : Char} {base : ℕ} (h : (mark, base) ∈ radixMarks) :
    isBlank mark = false := by
  have hall : ∀ p ∈ radixMarks, isBlank p.1 = false := by decide +kernel
  exact hall (mark, base) h

theorem radixValue_cons (base : ℕ) (c : Char) (cs : List Char) :
    radixValue base (c :: cs) = base ^ cs.length * digitPlace c + radixValue base cs := by
  rw [radixValue, List.map_cons, List.reverse_cons, Nat.ofDigits_append, Nat.ofDigits_singleton,
    List.length_reverse, List.length_map, Nat.add_comm]
  rfl

theorem digitPlace_of_le {c : Char} (h : 128 ≤ c.toNat) : digitPlace c = 16 := by
  have hlower : c.toLower = c := by
    refine dif_neg fun hupper => ?_
    have hle : c.toNat ≤ 'Z'.toNat := UInt32.le_iff_toNat_le.mp hupper.2
    exact absurd (Nat.le_trans h hle) (by decide)
  have hlength : "0123456789abcdef".toList.length = 16 := by decide
  rw [digitPlace, hlower, List.idxOf_eq_length, hlength]
  intro hmem
  have hall : "0123456789abcdef".toList.all (·.toNat < 128) = true := by decide
  have hlt := List.all_eq_true.mp hall c hmem
  exact absurd h (Nat.not_le.mpr (of_decide_eq_true hlt))

theorem digitValue?_of_le {c : Char} (h : 128 ≤ c.toNat) : digitValue? c = none := by
  have hlt {d : Char} (hd : d.toNat < 128) : ¬ c ≤ d := fun hle => by
    have : c.toNat ≤ d.toNat := Char.le_def.mp hle
    omega
  have hdigit : ¬ c.isDigit := fun hc => by
    have := (Char.isDigit_iff_toNat.mp hc).2
    have : '9'.toNat = 57 := rfl
    omega
  rw [digitValue?, if_neg hdigit, if_neg fun hc => hlt (by decide) hc.2,
    if_neg fun hc => hlt (by decide) hc.2]

theorem digitValue?_eq_some_iff {c : Char} {d : ℕ} (hd : d < 16) :
    digitValue? c = some d ↔ digitPlace c = d := by
  have hascii : ∀ n < 128, ∀ d < 16,
      digitValue? (Char.ofNat n) = some d ↔ digitPlace (Char.ofNat n) = d := by decide +kernel
  cases Nat.lt_or_ge c.toNat 128 with
  | inl hlt => simpa using hascii c.toNat hlt d hd
  | inr hle =>
    rw [digitValue?_of_le hle, digitPlace_of_le hle]
    constructor
    · nofun
    · omega

theorem isBlank_of_digitPlace_lt {c : Char} (h : digitPlace c < 16) : isBlank c = false := by
  have hascii : ∀ n < 128, digitPlace (Char.ofNat n) < 16 → isBlank (Char.ofNat n) = false := by
    decide +kernel
  cases Nat.lt_or_ge c.toNat 128 with
  | inl hlt => simpa [h] using hascii c.toNat hlt
  | inr hle =>
    rw [digitPlace_of_le hle] at h
    omega

theorem readDigits?_eq_some_iff {base : ℕ} (hbase : base ≤ 16) {ds : List Char} {start n : ℕ} :
    readDigits? base ds start = some n ↔
      (∀ c ∈ ds, digitPlace c < base) ∧ n = start * base ^ ds.length + radixValue base ds := by
  induction ds generalizing start with
  | nil => simp [readDigits?, radixValue, eq_comm]
  | cons c cs ih =>
    rw [List.forall_mem_cons]
    by_cases hc : digitPlace c < base
    · have hvalue : digitValue? c = some (digitPlace c) :=
        (digitValue?_eq_some_iff (Nat.lt_of_lt_of_le hc hbase)).mpr rfl
      have hsum : (start * base + digitPlace c) * base ^ cs.length + radixValue base cs
          = start * base ^ (c :: cs).length + radixValue base (c :: cs) := by
        rw [radixValue_cons, List.length_cons]
        ring
      simp only [readDigits?, hvalue, if_pos hc, ih, hsum, and_iff_right hc]
    · simp only [hc, false_and, iff_false]
      intro h
      rw [readDigits?] at h
      split at h
      · next d hvalue =>
        split at h
        · next hd =>
          have hplace := (digitValue?_eq_some_iff (Nat.lt_of_lt_of_le hd hbase)).mp hvalue
          omega
        · cases h
      · cases h

theorem RadixDigits.ne_plus {base : ℕ} (hbase : base ≤ 16) {ds : List Char}
    (h : RadixDigits base ds) (rest : List Char) : ds ≠ '+' :: rest := by
  rintro rfl
  have hplace : digitPlace '+' = 16 := by decide
  have := h.place '+' List.mem_cons_self
  omega

/-- Behind a mark stand digits of the base, maybe after a plus sign, that fit a word. -/
theorem readWord?_eq_some_iff {base : ℕ} (hbase : base ≤ 16) {cs : List Char} {n : ℕ} :
    readWord? base cs = some n ↔ ∃ ds, (cs = ds ∨ cs = '+' :: ds) ∧ RadixDigits base ds ∧
      radixValue base ds = n ∧ n < wordLimit := by
  have hdigits (ds : List Char) :
      (if ds.isEmpty then none else (readDigits? base ds 0).filter (· < wordLimit)) = some n ↔
        RadixDigits base ds ∧ radixValue base ds = n ∧ n < wordLimit := by
    split
    · next hnil =>
      simp only [reduceCtorEq, false_iff]
      rintro ⟨hds, -⟩
      exact hds.nonempty (List.isEmpty_iff.mp hnil)
    · next hne =>
      rw [Option.filter_eq_some_iff, readDigits?_eq_some_iff hbase, Nat.zero_mul, Nat.zero_add,
        decide_eq_true_eq, and_assoc, eq_comm (a := n)]
      constructor
      · rintro ⟨hplace, hvalue, hlt⟩
        exact ⟨⟨fun hnil => hne (List.isEmpty_iff.mpr hnil), hplace⟩, hvalue, hlt⟩
      · rintro ⟨hds, hvalue, hlt⟩
        exact ⟨hds.place, hvalue, hlt⟩
  unfold readWord?
  split
  · next rest =>
    simp only [hdigits]
    constructor
    · intro h
      exact ⟨rest, .inr rfl, h⟩
    · rintro ⟨ds, rfl | heq, hds, hvalue⟩
      · exact absurd rfl (hds.ne_plus hbase rest)
      · obtain rfl := (List.cons.inj heq).2
        exact ⟨hds, hvalue⟩
  · next hplus =>
    simp only [hdigits]
    constructor
    · intro h
      exact ⟨cs, .inl rfl, h⟩
    · rintro ⟨ds, rfl | rfl, h⟩
      · exact h
      · exact absurd rfl (hplus ds)

namespace Number

theorem ofNumeral_marked {mark : Char} {base : ℕ} (h : (mark, base) ∈ radixMarks)
    (rest : List Char) :
    ofNumeral ('0' :: mark :: rest) = ((readWord? base rest).map ofNat).getD .nan := by
  rw [ofNumeral, radix?_eq_some_iff.mpr h]

theorem exists_ofNat_eq {n : ℕ} (h : n < wordLimit) : ∃ rank : Fin rankLimit,
    Nearest ((n : ℚ) * unitsPerOne) rank ∧ ofNat n = .finite false rank := by
  have hunits : units (1086 * binade + binade) = wordLimit * unitsPerOne := by
    have hlimit : wordLimit = 2 ^ 64 := rfl
    have hexponent : 52 + 1086 = 64 + exactPlaces := rfl
    rw [units_split (.inr (Nat.le_refl _)) (by omega), binade_eq, unitsPerOne_eq, hlimit,
      ← Nat.pow_add, ← Nat.pow_add, hexponent]
  have hle : n * unitsPerOne ≤ 1 * units (1086 * binade + binade) := by
    rw [hunits, Nat.one_mul]
    exact Nat.mul_le_mul_right _ (Nat.le_of_lt h)
  have hlt : nearestRank (n * unitsPerOne) 1 < rankLimit :=
    Nat.lt_of_le_of_lt (nearestRank_le Nat.one_pos hle) (by decide)
  have hnearest := nearest_nearestRank (n * unitsPerOne) Nat.one_pos
  rw [Nat.cast_one, div_one, Nat.cast_mul] at hnearest
  exact ⟨⟨_, hlt⟩, hnearest, ofRank_of_lt false hlt⟩

/-- Digits behind a radix mark, with any blanks around them, are the double nearest to what they
denote, as long as that fits a word. -/
theorem ofText_marked {mark : Char} {base : ℕ} (hmark : (mark, base) ∈ radixMarks)
    {left ds right : List Char} (hds : RadixDigits base ds) (hleft : ∀ c ∈ left, isBlank c)
    (hright : ∀ c ∈ right, isBlank c) :
    (radixValue base ds < wordLimit → ∃ rank : Fin rankLimit,
      Nearest ((radixValue base ds : ℚ) * unitsPerOne) rank ∧
        ofText (left ++ ('0' :: mark :: ds ++ right)) = .finite false rank) ∧
    (wordLimit ≤ radixValue base ds →
      ofText (left ++ ('0' :: mark :: ds ++ right)) = .nan) := by
  have hbase := le_sixteen_of_mem_radixMarks hmark
  have htrimmed : Trimmed ('0' :: mark :: ds) := by
    refine trimmed_of_forall (List.forall_mem_cons.mpr ⟨rfl, List.forall_mem_cons.mpr
      ⟨isBlank_of_mem_radixMarks hmark, fun c hc => ?_⟩⟩)
    exact isBlank_of_digitPlace_lt (Nat.lt_of_lt_of_le (hds.place c hc) hbase)
  rw [ofText, htrimmed.trimBlanks_between hleft hright, ofNumeral_marked hmark]
  constructor
  · intro hlt
    obtain ⟨rank, hnearest, hfinite⟩ := exists_ofNat_eq hlt
    rw [(readWord?_eq_some_iff hbase).mpr ⟨ds, .inl rfl, hds, rfl, hlt⟩, Option.map_some,
      Option.getD_some]
    exact ⟨rank, hnearest, hfinite⟩
  · intro hle
    have hnone : readWord? base ds = none := by
      rw [Option.eq_none_iff_forall_ne_some]
      intro n hn
      obtain ⟨digits, rfl | rfl, -, rfl, hlt⟩ := (readWord?_eq_some_iff hbase).mp hn
      · omega
      · exact hds.ne_plus hbase digits rfl
    rw [hnone, Option.map_none, Option.getD_none]

theorem ofText_marked_halfway :
    radixValue 16 "0020000000000001".toList = 2 ^ 53 + 1 ∧
      ∃ rank : Fin rankLimit, Nearest (((2 ^ 53 + 1 : ℕ) : ℚ) * unitsPerOne) rank ∧
        ofText "\u00A0 0X0020000000000001\n".toList = .finite false rank := by
  have hmark : ('X', 16) ∈ radixMarks := by decide
  have hds : RadixDigits 16 "0020000000000001".toList := by decide +kernel
  have hvalue : radixValue 16 "0020000000000001".toList = 2 ^ 53 + 1 := by decide +kernel
  have hleft : ∀ c ∈ ['\u00A0', ' '], isBlank c := List.all_eq_true.mp rfl
  have hright : ∀ c ∈ ['\n'], isBlank c := List.all_eq_true.mp rfl
  have hnearest := (ofText_marked hmark hds hleft hright).1 (by rw [hvalue]; decide)
  rw [hvalue] at hnearest
  exact ⟨hvalue, hnearest⟩

/-- The first number past a word has a nearest double, but it is not what is read. -/
theorem ofText_past_word :
    RadixDigits 16 "10000000000000000".toList ∧
      radixValue 16 "10000000000000000".toList = 2 ^ 64 ∧
      ¬ ∃ rank, Nearest (((2 ^ 64 : ℕ) : ℚ) * unitsPerOne) rank ∧
        ofText "0x10000000000000000".toList = .ofRank false rank := by
  refine ⟨by decide +kernel, by decide +kernel, ?_⟩
  rintro ⟨rank, -, hread⟩
  have hnan : ofText "0x10000000000000000".toList = .nan := by decide +kernel
  have hnumber := isNaN_ofRank false rank
  rw [← hread, hnan] at hnumber
  cases hnumber

end Number
end ScriptBuiltins
