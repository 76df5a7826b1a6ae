import ScriptBuiltins.Proofs.Number.RoundTrip
import ScriptBuiltins.Proofs.Render.Padding

/-!
The parts of the magnitudes that `f F e E g G` write: digits around a point, and an exponent part or
none. What is written is read as the numeral of these parts.
-/
namespace ScriptBuiltins

def isExponentMark (c : Char) : Bool := c = 'e' ∨ c = 'E'

def mantissaOf (cs : List Char) : List Char := cs.takeWhile fun c => !isExponentMark c

def mantissaDigits (cs : List Char) : List Char := (mantissaOf cs).filter Char.isDigit

/-- The digits of a mantissa from the first one that counts. -/
def significantDigits (cs : List Char) : List Char := (mantissaDigits cs).dropWhile (· == '0')

theorem isExponentMark_of_isDigit {c : Char} (h : c.isDigit) : isExponentMark c = false := by
  rw [isExponentMark, decide_eq_false_iff_not]
  rintro (rfl | rfl)
  · contradiction
  · contradiction

theorem isExponentMark_of_isSign {c : Char} (h : isSign c) : isExponentMark c = false := by
  simp only [isSign, Bool.or_eq_true, beq_iff_eq] at h
  obtain (rfl | rfl) | rfl := h <;> rfl

theorem isDigit_of_isSign {c : Char} (h : isSign c) : c.isDigit = false := by
  simp only [isSign, Bool.or_eq_true, beq_iff_eq] at h
  obtain (rfl | rfl) | rfl := h <;> rfl

namespace Json.ExponentText
variable {exponent : Option ℤ} {power : List Char}

theorem stops (h : ExponentText exponent power) : Stops (fun c => !isExponentMark c) power := by
  cases h with
  | none => exact stops_nil _
  | some he => exact stops_cons.mpr (by rw [isExponentMark, decide_eq_true he]; rfl)

theorem exists_mark_iff (h : ExponentText exponent power) :
    (∃ c ∈ power, isExponentMark c) ↔ exponent.isSome := by
  cases h with
  | none => simp
  | some he =>
    simp only [Option.isSome_some, iff_true]
    exact ⟨_, List.mem_cons_self, decide_eq_true he⟩

theorem point_not_mem (h : ExponentText exponent power) : '.' ∉ power := by
  cases h with
  | none => simp
  | @some e below sign ds he hsign hds =>
    simp only [List.mem_cons, List.mem_append, not_or]
    refine ⟨?_, ?_, fun hmem => absurd (hds.2 '.' hmem) (by decide)⟩
    · obtain rfl | rfl := he <;> decide
    · cases hsign <;> decide

theorem apply (h : ExponentText exponent power) (letters : LetterCase) :
    ExponentText exponent (letters.apply power) := by
  cases letters with
  | lower => exact h
  | upper =>
    cases h with
    | none => exact .none
    | @some e below sign ds he hsign hds =>
      have hdigits : LetterCase.upper.apply ds = ds := LetterCase.apply_digits hds.2 .upper
      have hsigns : LetterCase.upper.apply sign = sign := by cases hsign <;> rfl
      have hmark : e.toUpper = 'E' := by obtain rfl | rfl := he <;> rfl
      have htext : LetterCase.upper.apply (e :: (sign ++ ds)) = 'E' :: (sign ++ ds) := by
        rw [← List.singleton_append, LetterCase.apply_append, LetterCase.apply_append, hdigits,
          hsigns]
        exact congrArg (· :: (sign ++ ds)) hmark
      rw [htext]
      exact .some (.inr rfl) hsign hds

end Json.ExponentText

section
variable {sign whole point fraction power : List Char} {exponent : Option ℤ}
  (hsign : ∀ c ∈ sign, isSign c) (hwhole : ∀ c ∈ whole, c.isDigit)
  (hpoint : point = ['.'] ∨ point = [] ∧ fraction = []) (hfraction : ∀ c ∈ fraction, c.isDigit)

include hsign hwhole hpoint hfraction

theorem not_mark_of_mem : ∀ c ∈ sign ++ (whole ++ point ++ fraction), isExponentMark c = false := by
  simp only [List.mem_append]
  rintro c (hc | (hc | hc) | hc)
  · exact isExponentMark_of_isSign (hsign c hc)
  · exact isExponentMark_of_isDigit (hwhole c hc)
  · obtain rfl | ⟨rfl, -⟩ := hpoint
    · obtain rfl := List.mem_singleton.mp hc
      rfl
    · cases hc
  · exact isExponentMark_of_isDigit (hfraction c hc)

theorem mantissaOf_parts (hpower : Json.ExponentText exponent power) :
    mantissaOf (sign ++ (whole ++ point ++ fraction ++ power))
      = sign ++ (whole ++ point ++ fraction) := by
  have hmantissa := not_mark_of_mem hsign hwhole hpoint hfraction
  rw [mantissaOf, ← List.append_assoc]
  exact takeWhile_run (fun c hc => by rw [hmantissa c hc]; rfl) hpower.stops

end

theorem apply_parts (letters : LetterCase) {whole point fraction : List Char}
    (hwhole : ∀ c ∈ whole, c.isDigit) (hpoint : point = ['.'] ∨ point = [] ∧ fraction = [])
    (hfraction : ∀ c ∈ fraction, c.isDigit) (power : List Char) :
    letters.apply (whole ++ point ++ fraction ++ power)
      = whole ++ point ++ fraction ++ letters.apply power := by
  have hsame : letters.apply point = point := by
    obtain rfl | ⟨rfl, -⟩ := hpoint <;> cases letters <;> rfl
  rw [letters.apply_append, letters.apply_append, letters.apply_append, letters.apply_digits hwhole,
    letters.apply_digits hfraction, hsame]

/-- A magnitude as it is written. -/
inductive Written : DecimalLiteral → List Char → Prop
  | mk {whole point fraction power : List Char} {exponent : Option ℤ} (hwhole : Json.IsWhole whole)
      (hpoint : point = ['.'] ∨ point = [] ∧ fraction = []) (hfraction : ∀ c ∈ fraction, c.isDigit)
      (hpower : Json.ExponentText exponent power) :
      Written ⟨false, whole, fraction, exponent⟩ (whole ++ point ++ fraction ++ power)

namespace Written
variable {l : DecimalLiteral} {sign text : List Char}

theorem parse? (h : Written l text) : DecimalLiteral.parse? text = some l := by
  cases h with
  | @mk whole point fraction power exponent hwhole hpoint hfraction hpower =>
    have hbehind : PointText fraction (point ++ fraction) := by
      obtain rfl | ⟨rfl, rfl⟩ := hpoint
      · exact .some hfraction
      · exact .none
    have htext := DecimalText.mk .none hwhole.isDigits.2 hbehind (.inl hwhole.isDigits.1) hpower
    rw [List.nil_append, ← List.append_assoc, ← List.append_assoc] at htext
    exact DecimalLiteral.parse?_eq_some_iff.mpr htext

theorem exists_mark_iff (h : Written l text) (hsign : ∀ c ∈ sign, isSign c) :
    (∃ c ∈ sign ++ text, isExponentMark c) ↔ l.exponent.isSome := by
  cases h with
  | mk hwhole hpoint hfraction hpower =>
    rw [← hpower.exists_mark_iff, ← List.append_assoc]
    constructor
    · rintro ⟨c, hc, hmark⟩
      obtain hc | hc := List.mem_append.mp hc
      · rw [not_mark_of_mem hsign hwhole.isDigits.2 hpoint hfraction c hc] at hmark
        cases hmark
      · exact ⟨c, hc, hmark⟩
    · rintro ⟨c, hc, hmark⟩
      exact ⟨c, List.mem_append_right _ hc, hmark⟩

theorem mantissaDigits_append (h : Written l text) (hsign : ∀ c ∈ sign, isSign c) :
    mantissaDigits (sign ++ text) = l.whole ++ l.fraction := by
  cases h with
  | @mk whole point fraction power exponent hwhole hpoint hfraction hpower =>
    have hnone : sign.filter Char.isDigit = [] := by
      rw [List.filter_eq_nil_iff]
      intro c hc
      rw [isDigit_of_isSign (hsign c hc)]
      exact Bool.false_ne_true
    have hpoints : point.filter Char.isDigit = [] := by
      obtain rfl | ⟨rfl, -⟩ := hpoint <;> rfl
    rw [mantissaDigits, mantissaOf_parts hsign hwhole.isDigits.2 hpoint hfraction hpower,
      List.filter_append, List.filter_append, List.filter_append, hnone, hpoints,
      List.filter_eq_self.mpr hwhole.isDigits.2, List.filter_eq_self.mpr hfraction,
      List.append_nil, List.nil_append]

end Written

/-! ### The forms of a magnitude -/

theorem placesPoint_cases {places : ℕ} {fraction : List Char} (h : fraction.length = places)
    (alternate : Bool) : placesPoint places alternate = ['.'] ∨
      placesPoint places alternate = [] ∧ fraction = [] := by
  rw [placesPoint]
  split
  · exact .inl rfl
  · next hnone =>
    rw [not_or, Nat.pos_iff_ne_zero, not_not] at hnone
    exact .inr ⟨rfl, List.length_eq_zero_iff.mp (h.trans hnone.1)⟩

theorem Placed.written {places n : ℕ} {whole fraction power : List Char} {exponent : Option ℤ}
    (h : Placed places n whole fraction) (hpower : Json.ExponentText exponent power)
    (letters : LetterCase) (alternate : Bool) : Written ⟨false, whole, fraction, exponent⟩
      (letters.apply (whole ++ placesPoint places alternate ++ fraction ++ power)) := by
  have hpoint := placesPoint_cases h.length alternate
  rw [apply_parts letters h.isWhole.isDigits.2 hpoint h.isDigit]
  exact .mk h.isWhole hpoint h.isDigit (hpower.apply letters)

theorem exponentText_spelled (exponent : ℤ) :
    Json.ExponentText (some exponent) (exponentText exponent) := by
  have hpower := powerDigits_paddedDigits exponent.natAbs
  have hds : Json.IsDigits (paddedDigits 2 exponent.natAbs) :=
    ⟨List.ne_nil_of_length_pos (Nat.lt_of_lt_of_le Nat.two_pos hpower.two_le), hpower.isDigit⟩
  rw [exponentText]
  by_cases hneg : exponent < 0
  · rw [if_pos hneg]
    exact exponentText_of_natAbs (.inl ⟨hneg, rfl⟩) hds hpower.value
  · rw [if_neg hneg]
    exact exponentText_of_natAbs (.inr ⟨Int.not_lt.mp hneg, .inr rfl⟩) hds hpower.value

variable (rank : ℕ) {places : ℕ} (h : places ≤ maxFractionDigits)

include h

theorem exists_fixedText : ∃ whole fraction,
    Placed places (roundToPlaces (exactDecimal rank) places) whole fraction ∧
      ∀ alternate, fixedText rank places alternate
        = some (whole ++ placesPoint places alternate ++ fraction) := by
  unfold fixedText fixedDigits
  generalize roundToPlaces (exactDecimal rank) places = n
  obtain ⟨whole, fraction, htext, hplaced⟩ := exists_positional_point places n
  refine ⟨whole, fraction, hplaced, fun alternate => ?_⟩
  rw [if_pos h, htext]

theorem exists_scientificText : ∃ whole fraction,
    Placed places (Scientific.ofRank rank places).coefficient whole fraction ∧
      ∀ alternate, scientificText rank places alternate
        = some (whole ++ placesPoint places alternate ++ fraction
          ++ exponentText (Scientific.ofRank rank places).exponent) := by
  unfold scientificText
  generalize Scientific.ofRank rank places = s
  obtain ⟨whole, fraction, htext, hplaced⟩ := exists_positional_point places s.coefficient
  refine ⟨whole, fraction, hplaced, fun alternate => ?_⟩
  simp only [if_pos h, mantissaText, htext]

/-- The alternate form has a point where the other may have none, and else the same characters. -/
theorem exists_magnitudeText (scientific : Bool) : ∃ whole fraction power exponent,
    Json.IsWhole whole ∧ (∀ c ∈ fraction, c.isDigit) ∧ fraction.length = places ∧
      Json.ExponentText exponent power ∧ Stops (· != 'e') power ∧
      ∀ alternate, magnitudeText scientific rank places alternate
        = some (whole ++ placesPoint places alternate ++ fraction ++ power) := by
  cases scientific with
  | true =>
    obtain ⟨whole, fraction, hplaced, htext⟩ := exists_scientificText rank h
    exact ⟨whole, fraction, _, _, hplaced.isWhole, hplaced.isDigit, hplaced.length,
      exponentText_spelled _, stops_cons.mpr rfl, htext⟩
  | false =>
    obtain ⟨whole, fraction, hplaced, htext⟩ := exists_fixedText rank h
    refine ⟨whole, fraction, [], none, hplaced.isWhole, hplaced.isDigit, hplaced.length, .none,
      stops_nil _, fun alternate => ?_⟩
    rw [List.append_nil]
    exact htext alternate

end ScriptBuiltins
