import ScriptBuiltins.Proofs.Number.Decimal
import ScriptBuiltins.Proofs.Render.Precision

/-! How long a rendering gets. The limits bound what each directive adds, whatever its value is;
without a precision a text or JSON is bounded by itself. -/
namespace ScriptBuiltins

theorem Field.length_text (f : Field) :
    f.text.length = f.sign.length + f.radixMark.length + f.body.length := by
  rw [text, List.length_append, List.length_append]

theorem Flags.length_signFor_le (flags : Flags) (negative : Bool) :
    (flags.signFor negative).length ≤ 1 := by
  unfold signFor
  split
  · exact Nat.le_refl 1
  · split
    · exact Nat.le_refl 1
    · split
      · exact Nat.le_refl 1
      · exact Nat.zero_le 1

/-! ### Integers -/

theorem length_withPrecision_le (precision : Option Nat) (n : Nat) (ds : List Char) :
    (withPrecision precision n ds).length ≤ max (precision.getD 0) ds.length := by
  cases precision with
  | none => exact Nat.le_max_right _ _
  | some p =>
    rw [withPrecision, Option.getD_some]
    split
    · exact Nat.zero_le _
    · rw [List.length_append, List.length_replicate]
      omega

theorem length_toDigits_toWord_le (x : Number) {base : Nat} (hbase : 8 ≤ base) :
    (Nat.toDigits base x.toWord).length ≤ 11 := by
  have hlimit : shortWordLimit ≤ 8 ^ 11 := by decide
  rw [Nat.length_toDigits_le_iff (by omega) (by decide)]
  calc
    x.toWord < 8 ^ 11 := Nat.lt_of_lt_of_le x.toWord_lt hlimit
    _ ≤ base ^ 11 := Nat.pow_le_pow_left hbase 11

theorem length_signedField_le (d : Directive) (x : Number) :
    (signedField d x).text.length ≤ max (d.precision.getD 0) 11 + 2 := by
  have hlimit : shortWordLimit < 10 ^ 11 := by decide
  have hword := x.toWord_lt
  have hsign := d.flags.length_signFor_le (decide (shortWordLimit ≤ 2 * x.toWord))
  simp only [Field.length_text, signedField, List.length_nil]
  generalize hmagnitude : (if decide (shortWordLimit ≤ 2 * x.toWord)
    then shortWordLimit - x.toWord else x.toWord) = magnitude
  have hdigits : (digits magnitude).length ≤ 11 := by
    apply length_digits_le (by decide)
    rw [← hmagnitude]
    split <;> omega
  have hbody := length_withPrecision_le d.precision x.toWord (digits magnitude)
  omega

theorem length_octalField_le (d : Directive) (x : Number) :
    (octalField d x).text.length ≤ max (d.precision.getD 0) 11 + 2 := by
  have hdigits := length_toDigits_toWord_le x (Nat.le_refl 8)
  have hbody := length_withPrecision_le d.precision x.toWord (Nat.toDigits 8 x.toWord)
  have hmark : (octalField d x).radixMark.length ≤ 1 := by
    rw [octalField]
    split
    · exact Nat.le_refl 1
    · exact Nat.zero_le 1
  rw [Field.length_text]
  simp only [octalField, List.length_nil] at hmark ⊢
  omega

theorem length_hexField_le (d : Directive) (letters : LetterCase) (x : Number) :
    (hexField d letters x).text.length ≤ max (d.precision.getD 0) 11 + 2 := by
  have hdigits := length_toDigits_toWord_le x (show 8 ≤ 16 by decide)
  have hbody := length_withPrecision_le d.precision x.toWord
    (letters.apply (Nat.toDigits 16 x.toWord))
  have hmark : (hexField d letters x).radixMark.length ≤ 2 := by
    rw [hexField]
    split
    · rw [letters.length_apply]
      exact Nat.le_refl 2
    · exact Nat.zero_le 2
  rw [letters.length_apply] at hbody
  rw [Field.length_text]
  simp only [hexField, List.length_nil] at hmark ⊢
  omega

/-! ### Floats -/

theorem length_barePoint_le (alternate : Bool) (places : Nat) :
    (if places = 0 then 0 else 1) + (barePoint alternate places).length ≤ 1 := by
  by_cases hplaces : places = 0
  · rw [if_pos hplaces, Nat.zero_add, barePoint]
    split
    · exact Nat.le_refl 1
    · exact Nat.zero_le 1
  · rw [if_neg hplaces, barePoint, beq_false_of_ne hplaces, Bool.and_false]
    exact Nat.le_refl 1

theorem length_fixedText_le {rank bound whole places : Nat} {alternate : Bool} {text : List Char}
    (h : exactDecimal rank < bound * 10 ^ exactPlaces) (hbound : bound < 10 ^ (whole + 1))
    (htext : fixedText rank places alternate = some text) :
    text.length ≤ whole + 2 + places := by
  have hdigits := length_fixedDigits_le h hbound places
  have hpoint := length_barePoint_le alternate places
  rw [fixedText] at htext
  split at htext
  · obtain rfl := Option.some.inj htext
    rw [List.length_append]
    omega
  · cases htext

theorem length_exponentText_le {exponent : Int} (h : exponent.natAbs ≤ exactPlaces) :
    (exponentText exponent).length ≤ 6 := by
  have hplaces : exactPlaces < 10 ^ 4 := by decide
  have hdigits := length_digits_le (by decide) (Nat.lt_of_le_of_lt h hplaces)
  rw [exponentText, List.length_cons, List.length_cons, length_paddedDigits]
  omega

theorem length_scientificText_le {rank places : Nat} {alternate : Bool} {text : List Char}
    (h : rank < rankLimit) (htext : scientificText rank places alternate = some text) :
    text.length ≤ places + 8 := by
  have hcoefficient := length_digits_le (Nat.succ_pos places)
    (Scientific.coefficient_ofRank_lt rank places)
  have hexponent := length_exponentText_le (Scientific.natAbs_exponent_ofRank_le h places)
  have hpoint := length_barePoint_le alternate places
  rw [scientificText] at htext
  split at htext
  · obtain rfl := Option.some.inj htext
    rw [List.length_append, mantissaText, List.length_append, length_positional]
    omega
  · cases htext

theorem length_trimFraction_le (cs : List Char) : (trimFraction cs).length ≤ cs.length := by
  have hkept := (cs.reverse.dropWhile_suffix (· == '0')).length_le
  rw [List.length_reverse] at hkept
  simp only [trimFraction]
  split
  · split
    · rw [List.length_dropLast, List.length_reverse]
      omega
    · rwa [List.length_reverse]
  · exact Nat.le_refl _

theorem length_trimMantissa_le (cs : List Char) : (trimMantissa cs).length ≤ cs.length := by
  have hmantissa := length_trimFraction_le (cs.takeWhile (· != 'e'))
  have hwhole := congrArg List.length (List.takeWhile_append_dropWhile (p := (· != 'e')) (l := cs))
  rw [List.length_append] at hwhole
  rw [trimMantissa, List.length_append]
  omega

theorem exactDecimal_lt_of_generalExponent {rank precision : Nat} {exponent : Int}
    (h : generalExponent? rank precision = some exponent) (hneg : exponent < 0) :
    exactDecimal rank < 10 ^ exactPlaces := by
  rw [generalExponent?] at h
  split at h
  · cases h
    exact absurd hneg (Int.lt_irrefl 0)
  · split at h
    · rw [← Option.some.inj h] at hneg
      exact Scientific.exactDecimal_lt_of_exponent hneg
    · cases h

theorem length_magnitudeText_le {rank precision : Nat} {exponent : Int} {alternate : Bool}
    {text : List Char} (h : rank < rankLimit)
    (hexponent : generalExponent? rank precision = some exponent)
    (htext : magnitudeText (isScientific precision exponent) rank
      (generalPlaces precision exponent) alternate = some text) :
    text.length ≤ max precision 1 + 309 := by
  have hplaces := generalPlaces_le precision exponent
  cases hform : isScientific precision exponent with
  | true =>
    rw [hform, magnitudeText] at htext
    have hlength := length_scientificText_le h htext
    omega
  | false =>
    rw [hform, magnitudeText] at htext
    by_cases hneg : exponent < 0
    · have hsmall : exactDecimal rank < 1 * 10 ^ exactPlaces := by
        rw [Nat.one_mul]
        exact exactDecimal_lt_of_generalExponent hexponent hneg
      have hlength := length_fixedText_le hsmall (show 1 < 10 ^ (0 + 1) by decide) htext
      omega
    · have hlength := length_fixedText_le (exactDecimal_lt h) largest_lt_pow htext
      have hfewer : generalPlaces precision exponent ≤ max precision 1 - 1 := by
        have hword := signedWord_le (max precision 1)
        rw [generalPlaces, hform, if_neg Bool.false_ne_true]
        omega
      omega

theorem length_generalText_le {rank precision : Nat} {alternate : Bool} {text : List Char}
    (h : rank < rankLimit) (htext : generalText rank precision alternate = some text) :
    text.length ≤ max precision 1 + 309 := by
  rw [generalText_eq, Option.bind_eq_some_iff] at htext
  obtain ⟨exponent, hexponent, htext⟩ := htext
  obtain ⟨untrimmed, huntrimmed, rfl⟩ := Option.map_eq_some_iff.mp htext
  have hlength := length_magnitudeText_le h hexponent huntrimmed
  cases alternate with
  | true => exact hlength
  | false => exact Nat.le_trans (length_trimMantissa_le untrimmed) hlength

/-- A form of finite magnitudes that takes up to 310 characters over the precision. -/
def IsShort (form : Nat → Nat → Bool → Option (List Char)) : Prop :=
  ∀ {rank precision : Nat} {alternate : Bool} {text : List Char}, rank < rankLimit →
    form rank precision alternate = some text → text.length ≤ precision + 310

theorem isShort_fixedText : IsShort fixedText := by
  intro rank precision alternate text hrank htext
  have hlength := length_fixedText_le (exactDecimal_lt hrank) largest_lt_pow htext
  omega

theorem isShort_scientificText : IsShort scientificText := by
  intro rank precision alternate text hrank htext
  have hlength := length_scientificText_le hrank htext
  omega

theorem isShort_generalText : IsShort generalText := by
  intro rank precision alternate text hrank htext
  have hlength := length_generalText_le hrank htext
  omega

theorem length_floatField_le {d : Directive} {letters : LetterCase}
    {form : Nat → Nat → Bool → Option (List Char)} {x : Number} {config : Config} {f : Field}
    (hform : IsShort form) (h : floatField d letters form x config = some f) :
    f.text.length ≤ config.precisionOf d + 311 := by
  have hsign := d.flags.length_signFor_le x.isNegative
  cases x with
  | nan =>
    obtain rfl := Option.some.inj h
    have hbody : "nan".toList.length = 3 := rfl
    simp only [Field.length_text, letters.length_apply, List.length_nil, hbody]
    omega
  | infinite negative =>
    obtain rfl := Option.some.inj h
    have hbody : "inf".toList.length = 3 := rfl
    simp only [Field.length_text, letters.length_apply, List.length_nil, hbody]
    omega
  | finite negative rank =>
    obtain ⟨body, hbody, rfl⟩ := Option.map_eq_some_iff.mp h
    have hlength := hform rank.isLt hbody
    simp only [Field.length_text, letters.length_apply, List.length_nil]
    omega

/-! ### Directives -/

namespace Directive

/-- The most that a directive adds within the limits of a configuration. -/
def lengthBound (d : Directive) (v : Value) (config : Config) : Nat :=
  max config.maxWidth
    (if d.conversion.isNumeric then max config.maxPrecision config.defaultPrecision + 311
    else if d.precision.isSome then config.maxPrecision
    else if d.conversion = .text then v.toText.length
    else v.toJson.length)

variable {d : Directive} {v : Value} {config : Config} {f : Field}

theorem length_cut_le (hcheck : config.check d = .ok ()) (cs : List Char) :
    (match d.precision with
      | some p => cs.take p
      | none => cs).length ≤ if d.precision.isSome then config.maxPrecision else cs.length := by
  obtain ⟨-, hle⟩ := le_of_check hcheck
  cases hprecision : d.precision with
  | none => exact Nat.le_refl _
  | some p =>
    rw [hprecision, Option.getD_some] at hle
    exact Nat.le_trans (List.length_take_le p cs) hle

theorem length_field_le (hcheck : config.check d = .ok ()) (hfield : d.field v config = some f) :
    f.text.length ≤ d.lengthBound v config := by
  apply Nat.le_trans _ (Nat.le_max_right _ _)
  have hinteger (h : f.text.length ≤ max (d.precision.getD 0) 11 + 2) :
      f.text.length ≤ max config.maxPrecision config.defaultPrecision + 311 := by
    obtain ⟨-, hprecision⟩ := le_of_check hcheck
    omega
  have hfloat (h : f.text.length ≤ config.precisionOf d + 311) :
      f.text.length ≤ max config.maxPrecision config.defaultPrecision + 311 :=
    Nat.le_trans h (Nat.add_le_add_right (precisionOf_le hcheck) 311)
  rw [field] at hfield
  cases hconversion : d.conversion <;> rw [hconversion] at hfield
  case text =>
    obtain rfl := Option.some.inj hfield
    exact length_cut_le hcheck v.toText
  case json =>
    obtain rfl := Option.some.inj hfield
    exact length_cut_le hcheck v.toJson
  case decimal =>
    obtain rfl := Option.some.inj hfield
    exact hinteger (length_signedField_le d v.toNumber)
  case integer =>
    obtain rfl := Option.some.inj hfield
    exact hinteger (length_signedField_le d v.toNumber)
  case octal =>
    obtain rfl := Option.some.inj hfield
    exact hinteger (length_octalField_le d v.toNumber)
  case hex letters =>
    obtain rfl := Option.some.inj hfield
    exact hinteger (length_hexField_le d letters v.toNumber)
  case fixed letters => exact hfloat (length_floatField_le isShort_fixedText hfield)
  case exponent letters => exact hfloat (length_floatField_le isShort_scientificText hfield)
  case general letters => exact hfloat (length_floatField_le isShort_generalText hfield)

theorem length_render_le {text : List Char} (hcheck : config.check d = .ok ())
    (h : d.render v config = some text) : text.length ≤ d.lengthBound v config := by
  obtain ⟨f, hfield, rfl⟩ := Option.map_eq_some_iff.mp h
  obtain ⟨hwidth, -⟩ := le_of_check hcheck
  rw [Field.length_pad]
  exact Nat.max_le.mpr
    ⟨Nat.le_trans hwidth (Nat.le_max_left _ _), length_field_le hcheck hfield⟩

end Directive

namespace Segment

/-- The most that a placed segment adds: a literal its characters, an escaped percent sign one. -/
def lengthBound (config : Config) (queue : List Value) (lookup : Option (Object Value)) :
    Nat × Segment → Nat
  | (_, .literal text) => text.length
  | (_, .percent) => 1
  | (k, .directive d _) => (d.value? queue lookup k).elim 0 (d.lengthBound · config)

variable {config : Config} {queue : List Value} {lookup : Option (Object Value)}

theorem length_text?_le {p : Nat × Segment} {text : List Char}
    (hstop : stop? config queue lookup p = none)
    (htext : text? config queue lookup p = some text) :
    text.length ≤ lengthBound config queue lookup p := by
  obtain ⟨k, s⟩ := p
  cases s with
  | literal literal =>
    obtain rfl := Option.some.inj htext
    exact Nat.le_of_eq String.length_toList
  | percent =>
    obtain rfl := Option.some.inj htext
    exact Nat.le_refl 1
  | directive d offset =>
    have hfailure : d.failure? config queue lookup k offset = none := by
      rw [stop?, htext] at hstop
      split at hstop
      · cases hstop
      · cases hstop
      · assumption
    obtain ⟨hcheck, v, hvalue⟩ := Directive.of_failure?_eq_none hfailure
    rw [text?, hvalue, Option.bind_some] at htext
    rw [lengthBound, hvalue]
    exact Directive.length_render_le hcheck htext

theorem length_flatten_le {placed : List (Nat × Segment)} {texts : List (List Char)}
    (h : List.Forall₂ (fun p text => text? config queue lookup p = some text ∧
      text.length ≤ lengthBound config queue lookup p) placed texts) :
    texts.flatten.length ≤ (placed.map (lengthBound config queue lookup)).sum := by
  induction h with
  | nil => exact Nat.le_refl 0
  | cons hfirst _ ih =>
    rw [List.flatten_cons, List.length_append, List.map_cons, List.sum_cons]
    exact Nat.add_le_add hfirst.2 ih

end Segment

/-- A rendering is joined from the texts of its segments. Each of them is within its bound, and so
the whole is no longer than all bounds together. -/
theorem Template.length_le_sum_of_render {t : Template} {values : List Value} {config : Config}
    {text : List Char} (h : (t.render values config).result = .ok text) :
    let queue := queueOf t.hasNamed values
    let lookup := lookupOf t.hasNamed values
    let bound := Segment.lengthBound config queue lookup
    (∃ texts, List.Forall₂ (fun p part => Segment.text? config queue lookup p = some part ∧
        part.length ≤ bound p) (Segment.placed t.segments) texts ∧ text = texts.flatten) ∧
    text.length ≤ ((Segment.placed t.segments).map bound).sum := by
  intro queue lookup bound
  have hdecided := t.decided_render values config
  rw [← Segment.placed_eq_placedFrom, h] at hdecided
  obtain ⟨hstop, texts, htexts, rfl⟩ := hdecided.of_ok
  have hwithin : List.Forall₂ (fun p part => Segment.text? config queue lookup p = some part ∧
      part.length ≤ bound p) (Segment.placed t.segments) texts := by
    have hboth := (List.forall₂_and_left _ _).mpr
      ⟨List.findSome?_eq_none_iff.mp hstop, htexts⟩
    exact hboth.imp fun p part hp => ⟨hp.2, Segment.length_text?_le hp.1 hp.2⟩
  exact ⟨⟨texts, hwithin, rfl⟩, Segment.length_flatten_le hwithin⟩

theorem Template.length_le_sum_of_render_cut :
    let t : Template := ⟨"%g: %.2s%%", [.directive ⟨{}, none, none, none, .general .lower⟩ 0,
      .literal ": ", .directive ⟨{}, none, some 2, none, .text⟩ 4, .percent]⟩
    let values : List Value := [.string "1e-4", .string "abc"]
    let config : Config := ⟨6, 3, 2⟩
    let bound := Segment.lengthBound config values none
    (t.render values config).result = .ok "0.0001: ab%".toList ∧
      ((Segment.placed t.segments).map bound).sum = 323 ∧ "0.0001: ab%".toList.length ≤ 323 := by
  intro t values config bound
  have hrender : (t.render values config).result = .ok "0.0001: ab%".toList := by decide +kernel
  have hsum : ((Segment.placed t.segments).map bound).sum = 323 := by decide
  exact ⟨hrender, hsum, hsum ▸ (Template.length_le_sum_of_render hrender).2⟩

end ScriptBuiltins
