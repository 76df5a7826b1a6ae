import ScriptBuiltins.Proofs.Render.Magnitude

/-!
The alternate form of `g G`. It has the significant digits that `e E` has, though it rounds to a
number of places, and so the same value; where the exponent is too small or too large for the
positional form it is the text of `e E`.
-/
namespace ScriptBuiltins

theorem signedWord_eq_self {n : ℕ} (h : n ≤ maxFractionDigits + 1) : signedWord n = n := by
  have hlimit : maxFractionDigits = 65535 := rfl
  have hshort : shortWordLimit = 4294967296 := rfl
  have hword := signedWord_cases n
  rw [Nat.mod_eq_of_lt (by omega)] at hword
  omega

theorem isScientific_iff {precision : ℕ} (h : max precision 1 - 1 ≤ maxFractionDigits)
    (exponent : ℤ) : isScientific precision exponent = true ↔
      exponent < -4 ∨ (max precision 1 : ℕ) ≤ exponent := by
  rw [isScientific, decide_eq_true_iff, signedWord_eq_self (by omega)]

theorem of_generalExponent? {rank precision : ℕ} {exponent : ℤ} (hrank : rank ≠ 0)
    (h : generalExponent? rank precision = some exponent) :
    max precision 1 - 1 ≤ maxFractionDigits ∧
      (Scientific.ofRank rank (max precision 1 - 1)).exponent = exponent := by
  rw [generalExponent?, if_neg hrank, Option.ite_none_right_eq_some] at h
  exact ⟨h.1, Option.some.inj h.2⟩

theorem generalText_cases {rank precision : ℕ} {text : List Char} (hrank : rank ≠ 0)
    (h : generalText rank precision true = some text) : ∃ exponent,
    max precision 1 - 1 ≤ maxFractionDigits ∧
    (Scientific.ofRank rank (max precision 1 - 1)).exponent = exponent ∧
    ((exponent < -4 ∨ (max precision 1 : ℕ) ≤ exponent) ∧
        scientificText rank (max precision 1 - 1) true = some text ∨
      ¬ (exponent < -4 ∨ (max precision 1 : ℕ) ≤ exponent) ∧
        fixedText rank ((max precision 1 : ℕ) - 1 - exponent).toNat true = some text) := by
  rw [generalText_eq, Option.bind_eq_some_iff] at h
  obtain ⟨exponent, hexponent, h⟩ := h
  obtain ⟨hlimit, hofRank⟩ := of_generalExponent? hrank hexponent
  rw [if_pos rfl, Option.map_id, id] at h
  refine ⟨exponent, hlimit, hofRank, ?_⟩
  rw [← isScientific_iff hlimit exponent]
  cases hscientific : isScientific precision exponent with
  | true =>
    rw [hscientific, generalPlaces, hscientific, if_pos rfl, magnitudeText] at h
    exact .inl ⟨rfl, h⟩
  | false =>
    rw [hscientific, generalPlaces, hscientific, if_neg Bool.false_ne_true, magnitudeText,
      signedWord_eq_self (by omega)] at h
    exact .inr ⟨Bool.false_ne_true, h⟩

/-- How the numeral of the alternate general form goes with that of the exponent form which has as
many significant digits. -/
structure Agrees (significant : ℕ) (exponent : ℤ) (plain general : DecimalLiteral) : Prop where
  printed : plain.exponent = some exponent
  length : (plain.whole ++ plain.fraction).length = significant
  digits : (general.whole ++ general.fraction).dropWhile (· == '0') = plain.whole ++ plain.fraction
  magnitude : general.magnitude = plain.magnitude
  form : general.exponent.isSome ↔ exponent < -4 ∨ (significant : ℤ) ≤ exponent

variable {rank last : ℕ} {whole fraction : List Char}

theorem digits_of_placed (hrank : rank ≠ 0)
    (h : Placed last (Scientific.ofRank rank last).coefficient whole fraction) :
    whole ++ fraction = digits (Scientific.ofRank rank last).coefficient ∧
      (whole ++ fraction).length = last + 1 := by
  refine ⟨?_, ?_⟩
  · rw [h.padded, paddedDigits_eq_digits (Scientific.le_coefficient_ofRank hrank last)]
  · rw [List.length_append, h.length, h.length_whole (Scientific.coefficient_ofRank_lt rank last)]
    omega

theorem coefficient_ofRank_pos (hrank : rank ≠ 0) (last : ℕ) :
    0 < (Scientific.ofRank rank last).coefficient :=
  Nat.lt_of_lt_of_le (Nat.pow_pos (by decide)) (Scientific.le_coefficient_ofRank hrank last)

theorem agrees_scientific (hrank : rank ≠ 0) {exponent : ℤ}
    (h : Placed last (Scientific.ofRank rank last).coefficient whole fraction)
    (hform : exponent < -4 ∨ ((last + 1 : ℕ) : ℤ) ≤ exponent) :
    Agrees (last + 1) exponent ⟨false, whole, fraction, some exponent⟩
      ⟨false, whole, fraction, some exponent⟩ where
  printed := rfl
  length := (digits_of_placed hrank h).2
  digits := by
    rw [h.padded, dropWhile_paddedDigits _ (coefficient_ofRank_pos hrank last),
      paddedDigits_eq_digits (Scientific.le_coefficient_ofRank hrank last)]
  magnitude := rfl
  form := ⟨fun _ => hform, fun _ => rfl⟩

theorem agrees_fixed (hrank : rank ≠ 0) {exponent : ℤ} {places : ℕ} {before behind : List Char}
    (h : Placed last (Scientific.ofRank rank last).coefficient whole fraction)
    (hfixed : Placed places (Scientific.ofRank rank last).coefficient before behind)
    (hform : ¬ (exponent < -4 ∨ ((last + 1 : ℕ) : ℤ) ≤ exponent))
    (hplaces : exponent - last = -places) :
    Agrees (last + 1) exponent ⟨false, whole, fraction, some exponent⟩
      ⟨false, before, behind, none⟩ where
  printed := rfl
  length := (digits_of_placed hrank h).2
  digits := by
    rw [hfixed.padded, dropWhile_paddedDigits _ (coefficient_ofRank_pos hrank last),
      (digits_of_placed hrank h).1]
  magnitude := by
    rw [hfixed.magnitude, h.magnitude, Option.getD_none, Option.getD_some, hplaces, zero_sub]
  form := ⟨fun hnone => (Bool.false_ne_true hnone).elim, fun hyes => absurd hyes hform⟩

/-- The positional form rounds to the place that the significant digits reach to. There it shows the
same digits as the exponent form, also if rounding carries to the next power of ten. -/
theorem exists_agrees {precision : ℕ} {text : List Char} (hrank : rank ≠ 0)
    (h : generalText rank precision true = some text) (letters : LetterCase) :
    ∃ exponent plain l k, scientificText rank (max precision 1 - 1) false = some plain ∧
      Written l (letters.apply plain) ∧ Written k (letters.apply text) ∧
      Agrees (max precision 1) exponent l k ∧
      ((exponent < -4 ∨ (max precision 1 : ℕ) ≤ exponent) →
        scientificText rank (max precision 1 - 1) true = some text) ∧
      (¬ (exponent < -4 ∨ (max precision 1 : ℕ) ≤ exponent) →
        fixedText rank ((max precision 1 : ℕ) - 1 - exponent).toNat true = some text) := by
  obtain ⟨exponent, hlimit, hexponent, hcases⟩ := generalText_cases hrank h
  obtain ⟨last, hlast⟩ : ∃ last, max precision 1 = last + 1 := ⟨max precision 1 - 1, by omega⟩
  rw [hlast, Nat.add_sub_cancel] at hlimit hexponent hcases ⊢
  obtain ⟨whole, fraction, hplaced, htext⟩ := exists_scientificText rank hlimit
  rw [hexponent] at htext
  have hpower := exponentText_spelled exponent
  obtain ⟨hform, hscientific⟩ | ⟨hform, hfixed⟩ := hcases
  · obtain rfl := Option.some.inj ((htext true).symm.trans hscientific)
    exact ⟨exponent, _, _, _, htext false, hplaced.written hpower letters false,
      hplaced.written hpower letters true, agrees_scientific hrank hplaced hform,
      fun _ => hscientific, fun hnot => absurd hform hnot⟩
  · have hplaces : exponent - last = -(((last + 1 : ℕ) : ℤ) - 1 - exponent).toNat := by omega
    have hsame := Scientific.roundToPlaces_eq_coefficient hrank
      ((congrArg (· - (last : ℤ)) hexponent).trans hplaces)
    have hdigits := (Option.ite_none_right_eq_some.mp (fixedText.eq_1 _ _ _ ▸ hfixed)).1
    obtain ⟨before, behind, hplacedFixed, htextFixed⟩ := exists_fixedText rank hdigits
    rw [hsame] at hplacedFixed
    obtain rfl := Option.some.inj ((htextFixed true).symm.trans hfixed)
    have hwritten := hplacedFixed.written .none letters true
    rw [List.append_nil] at hwritten
    exact ⟨exponent, _, _, _, htext false, hplaced.written hpower letters false, hwritten,
      agrees_fixed hrank hplaced hplacedFixed hform hplaces, fun hyes => absurd hyes hform,
      fun _ => hfixed⟩

namespace Directive

def asExponent (d : Directive) (letters : LetterCase) (places : ℕ) (alternate : Bool) : Directive :=
  { d with
    flags := { d.flags with alternate }
    precision := some places
    conversion := .exponent letters }

def asFixed (d : Directive) (letters : LetterCase) (places : ℕ) : Directive :=
  { d with precision := some places, conversion := .fixed letters }

/-- A finite number other than zero in the alternate form of `g G`, next to `e E` with as many
significant digits. The exponent printed there decides between the forms: below -4, or if it is not
below the number of digits, this is the alternate exponent form, and otherwise the positional form
with the places that these digits reach to. In either form the digits are those of `e E`, and so is
the number. -/
theorem render_general_agrees {d : Directive} {letters : LetterCase}
    (hconversion : d.conversion = .general letters) (halternate : d.flags.alternate = true)
    (hwidth : d.width = none) {v : Value} {negative : Bool} {rank : Fin rankLimit}
    (hvalue : v.toNumber = .finite negative rank) (hrank : rank.val ≠ 0) {config : Config}
    {text : List Char} (hrender : d.render v config = some text) :
    let sign := d.flags.signFor negative
    let significant := max (config.precisionOf d) 1
    ∃ plain body l k exponent,
      (d.asExponent letters (significant - 1) false).render v config = some (sign ++ plain) ∧
      text = sign ++ body ∧ DecimalLiteral.parse? plain = some l ∧ l.exponent = some exponent ∧
      DecimalLiteral.parse? body = some k ∧ k.magnitude = l.magnitude ∧
      (mantissaDigits (sign ++ plain)).length = significant ∧
      significantDigits text = mantissaDigits (sign ++ plain) ∧
      ((∃ c ∈ text, isExponentMark c) ↔ exponent < -4 ∨ (significant : ℤ) ≤ exponent) ∧
      ((exponent < -4 ∨ (significant : ℤ) ≤ exponent) →
        (d.asExponent letters (significant - 1) true).render v config = some text) ∧
      (¬ (exponent < -4 ∨ (significant : ℤ) ≤ exponent) →
        (d.asFixed letters (significant - 1 - exponent).toNat).render v config = some text) := by
  intro sign significant
  have hfield : d.field v config = floatField d letters generalText v.toNumber config := by
    rw [field, hconversion]
  have hexponentForm (places : ℕ) (alternate : Bool) :
      (d.asExponent letters places alternate).render v config
        = (scientificText rank places alternate).map fun body => sign ++ letters.apply body :=
    render_of_floatField hwidth hvalue rfl
  have hfixedForm (places : ℕ) : (d.asFixed letters places).render v config
      = (fixedText rank places true).map fun body => sign ++ letters.apply body := by
    rw [← halternate]
    exact render_of_floatField hwidth hvalue rfl
  rw [render_of_floatField hwidth hvalue hfield, halternate, Option.map_eq_some_iff] at hrender
  obtain ⟨body, hbody, rfl⟩ := hrender
  obtain ⟨exponent, plain, l, k, hplain, hl, hk, hagrees, hscientific, hfixed⟩ :=
    exists_agrees hrank hbody letters
  have hsign := isSign_of_mem_signFor d.flags negative
  refine ⟨_, _, l, k, exponent, ?_, rfl, hl.parse?, hagrees.printed, hk.parse?, hagrees.magnitude,
    ?_, ?_, ?_, fun hform => ?_, fun hform => ?_⟩
  · rw [hexponentForm, hplain, Option.map_some]
  · rw [hl.mantissaDigits_append hsign, hagrees.length]
  · rw [significantDigits, hk.mantissaDigits_append hsign, hl.mantissaDigits_append hsign,
      hagrees.digits]
  · rw [hk.exists_mark_iff hsign, hagrees.form]
  · rw [hexponentForm, hscientific hform, Option.map_some]
  · rw [hfixedForm, hfixed hform, Option.map_some]

/-- Both roundings carry 9.96 to ten, which has one place less. -/
theorem render_general_agrees_carry :
    let d : Directive := ⟨{ alternate := true }, none, some 2, none, .general .lower⟩
    let rank : Fin rankLimit := ⟨0x4023EB851EB851EC, by decide⟩
    let v : Value := .number (.finite false rank)
    d.conversion = .general .lower ∧ d.flags.alternate = true ∧ d.width = none ∧
      v.toNumber = .finite false rank ∧ rank.val ≠ 0 ∧ d.render v {} = some "10.".toList ∧
      (d.asExponent .lower 1 false).render v {} = some "1.0e+01".toList ∧
      significantDigits "10.".toList = mantissaDigits "1.0e+01".toList ∧
      (d.asFixed .lower 0).render v {} = some "10.".toList := by
  intro d rank v
  have hrender : d.render v {} = some "10.".toList := by decide +kernel
  have hexponent : (d.asExponent .lower 1 false).render v {} = some "1.0e+01".toList := by
    decide +kernel
  obtain ⟨plain, body, l, k, exponent, hplain, -, hl, hprinted, -, -, -, hdigits, -, -, hfixed⟩ :=
    render_general_agrees (d := d) (v := v) rfl rfl rfl rfl (by decide) hrender
  obtain rfl : plain = "1.0e+01".toList := Option.some.inj (hplain.symm.trans hexponent)
  have hparse : DecimalLiteral.parse? "1.0e+01".toList = some ⟨false, ['1'], ['0'], some 1⟩ := by
    decide
  obtain rfl := Option.some.inj (hl.symm.trans hparse)
  obtain rfl : 1 = exponent := Option.some.inj hprinted
  exact ⟨rfl, rfl, rfl, rfl, by decide, hrender, hexponent, hdigits, hfixed (by decide)⟩

end Directive
end ScriptBuiltins
