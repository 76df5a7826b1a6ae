import Mathlib.Data.List.Induction
import ScriptBuiltins.Proofs.Render.Magnitude

/-!
The zeros that `g G` leave out of the alternate form: those at the end of the fraction, and the
point if nothing stands behind it then. Nothing else is left out, and the number stays the same.
-/
namespace ScriptBuiltins

theorem exists_trailing_zeros (cs : List Char) :
    ∃ kept zeros, cs = kept ++ List.replicate zeros '0' ∧ kept.getLast? ≠ some '0' := by
  induction cs using List.reverseRecOn with
  | nil => exact ⟨[], 0, rfl, by simp⟩
  | append_singleton cs c ih =>
    by_cases hc : c = '0'
    · obtain ⟨kept, zeros, rfl, hlast⟩ := ih
      refine ⟨kept, zeros + 1, ?_, hlast⟩
      rw [hc, List.append_assoc, List.replicate_succ']
    · refine ⟨cs ++ [c], 0, (List.append_nil _).symm, ?_⟩
      rw [List.getLast?_concat]
      exact fun heq => hc (Option.some.inj heq)

def keptPoint (kept : List Char) : List Char := if kept = [] then [] else ['.']

theorem trimFraction_point {whole kept : List Char} (hkept : ∀ c ∈ kept, c.isDigit)
    (hlast : kept.getLast? ≠ some '0') (zeros : ℕ) :
    trimFraction (whole ++ ['.'] ++ (kept ++ List.replicate zeros '0'))
      = whole ++ keptPoint kept ++ kept := by
  have hzeros : ∀ c ∈ List.replicate zeros '0', (c == '0') = true := by
    intro c hc
    rw [List.eq_of_mem_replicate hc]
    rfl
  have hstop : Stops (· == '0') (whole ++ ['.'] ++ kept).reverse := by
    intro c hc
    rw [List.head?_reverse, Option.mem_def] at hc
    apply beq_false_of_ne
    rintro rfl
    obtain rfl | hne := eq_or_ne kept []
    · rw [List.append_nil, List.getLast?_concat] at hc
      cases hc
    · rw [List.getLast?_append_of_ne_nil _ hne] at hc
      exact hlast hc
  have hdrop : ((whole ++ ['.'] ++ (kept ++ List.replicate zeros '0')).reverse.dropWhile
      (· == '0')).reverse = whole ++ ['.'] ++ kept := by
    rw [← List.append_assoc, List.reverse_append, List.reverse_replicate,
      dropWhile_run hzeros hstop, List.reverse_reverse]
  have hpoint : (whole ++ ['.'] ++ (kept ++ List.replicate zeros '0')).contains '.' = true := by
    simp
  simp only [trimFraction, hpoint, if_true, hdrop]
  obtain rfl | hne := eq_or_ne kept []
  · rw [List.append_nil, List.getLast?_concat, if_pos rfl, List.dropLast_concat, keptPoint,
      if_pos rfl, List.append_nil, List.append_nil]
  · have hpointless : (whole ++ ['.'] ++ kept).getLast? ≠ some '.' := by
      rw [List.getLast?_append_of_ne_nil _ hne]
      intro heq
      exact absurd (hkept '.' (List.mem_of_getLast? heq)) (by decide)
    rw [if_neg hpointless, keptPoint, if_neg hne]

theorem trimFraction_of_isDigits {whole : List Char} (h : ∀ c ∈ whole, c.isDigit) :
    trimFraction whole = whole := by
  have hpoint : whole.contains '.' = false := by
    rw [← Bool.not_eq_true, List.contains_iff_mem]
    intro hmem
    exact absurd (h '.' hmem) (by decide)
  rw [trimFraction, hpoint, if_neg Bool.false_ne_true]

theorem trimMantissa_parts {whole kept power : List Char} {places zeros : ℕ}
    (hwhole : ∀ c ∈ whole, c.isDigit) (hkept : ∀ c ∈ kept, c.isDigit)
    (hlast : kept.getLast? ≠ some '0') (hpower : Stops (· != 'e') power)
    (hplaces : (kept ++ List.replicate zeros '0').length = places) :
    trimMantissa (whole ++ placesPoint places false ++ (kept ++ List.replicate zeros '0') ++ power)
      = whole ++ keptPoint kept ++ kept ++ power := by
  have hrun : ∀ c ∈ whole ++ placesPoint places false ++ (kept ++ List.replicate zeros '0'),
      (c != 'e') = true := by
    have hdigit {c : Char} (h : c.isDigit) : (c != 'e') = true := by
      rw [bne_iff_ne]
      rintro rfl
      contradiction
    intro c hc
    simp only [List.mem_append] at hc
    obtain (hc | hc) | hc | hc := hc
    · exact hdigit (hwhole c hc)
    · rw [placesPoint] at hc
      split at hc
      · obtain rfl := List.mem_singleton.mp hc
        rfl
      · cases hc
    · exact hdigit (hkept c hc)
    · rw [List.eq_of_mem_replicate hc]
      rfl
  rw [trimMantissa, takeWhile_run hrun hpower, dropWhile_run hrun hpower]
  congr 1
  cases places with
  | zero =>
    obtain ⟨rfl, hzeros⟩ := List.append_eq_nil_iff.mp (List.length_eq_zero_iff.mp hplaces)
    have hpoint : placesPoint 0 false = [] := rfl
    simp only [hzeros, hpoint, keptPoint, if_true, List.append_nil]
    exact trimFraction_of_isDigits hwhole
  | succ places =>
    rw [placesPoint, if_pos (.inl places.succ_pos)]
    exact trimFraction_point hkept hlast zeros

/-- A written magnitude with a point, and what is left of it without the zeros that end its
fraction, and without the point if nothing stands behind it then. -/
inductive Trims : List Char → List Char → Prop
  | mk {whole kept power : List Char} {exponent : Option ℤ} (zeros : ℕ)
      (hwhole : Json.IsWhole whole) (hkept : ∀ c ∈ kept, c.isDigit)
      (hlast : kept.getLast? ≠ some '0') (hpower : Json.ExponentText exponent power) :
      Trims (whole ++ ['.'] ++ (kept ++ List.replicate zeros '0') ++ power)
        (whole ++ keptPoint kept ++ kept ++ power)

theorem keptPoint_cases (kept : List Char) :
    keptPoint kept = ['.'] ∨ keptPoint kept = [] ∧ kept = [] := by
  rw [keptPoint]
  split
  · next hnil => exact .inr ⟨rfl, hnil⟩
  · exact .inl rfl

namespace Trims
variable {full trimmed sign : List Char}

/-- Both texts are read as the same number, with the same whole part and the same exponent. -/
theorem exists_written (h : Trims full trimmed) : ∃ l k : DecimalLiteral, Written l full ∧
    Written k trimmed ∧ k.whole = l.whole ∧ k.exponent = l.exponent ∧
    k.magnitude = l.magnitude := by
  cases h with
  | @mk whole kept power exponent zeros hwhole hkept hlast hpower =>
    have hfraction : ∀ c ∈ kept ++ List.replicate zeros '0', c.isDigit := by
      intro c hc
      obtain hc | hc := List.mem_append.mp hc
      · exact hkept c hc
      · rw [List.eq_of_mem_replicate hc]
        rfl
    refine ⟨_, _, .mk hwhole (.inl rfl) hfraction hpower,
      .mk hwhole (keptPoint_cases kept) hkept hpower, rfl, rfl, ?_⟩
    rw [DecimalLiteral.magnitude_eq, DecimalLiteral.magnitude_eq, ← List.append_assoc,
      scaledValue_append_zeros]

theorem exists_last (h : Trims full trimmed) (hsign : ∀ c ∈ sign, isSign c)
    (hpoint : '.' ∈ sign ++ trimmed) :
    ∃ c, (mantissaOf (sign ++ trimmed)).getLast? = some c ∧ c.isDigit ∧ c ≠ '0' := by
  cases h with
  | @mk whole kept power exponent zeros hwhole hkept hlast hpower =>
    rw [mantissaOf_parts hsign hwhole.isDigits.2 (keptPoint_cases kept) hkept hpower]
    obtain rfl | hne := eq_or_ne kept []
    · simp only [keptPoint, if_true, List.append_nil, List.mem_append] at hpoint
      obtain hmem | hmem | hmem := hpoint
      · exact absurd (hsign '.' hmem) (by decide)
      · exact absurd (hwhole.isDigits.2 '.' hmem) (by decide)
      · exact absurd hmem hpower.point_not_mem
    · have hc := List.getLast?_eq_some_getLast hne
      refine ⟨kept.getLast hne, ?_, hkept _ (List.getLast_mem hne), fun hzero => ?_⟩
      · rw [List.getLast?_append_of_ne_nil _ (by simp [hne]), List.getLast?_append_of_ne_nil _ hne,
          hc]
      · exact hlast (hzero ▸ hc)

end Trims

/-- There is a general form of a magnitude exactly if there is its alternate form, and it is what is
left of that. -/
theorem generalText_trims (rank precision : ℕ) (letters : LetterCase) :
    (generalText rank precision false = none ∧ generalText rank precision true = none) ∨
    ∃ full trimmed, generalText rank precision true = some full ∧
      generalText rank precision false = some trimmed ∧
      Trims (letters.apply full) (letters.apply trimmed) := by
  rw [generalText_eq, generalText_eq]
  cases generalExponent? rank precision with
  | none => exact .inl ⟨rfl, rfl⟩
  | some exponent =>
    simp only [Option.bind_some, if_true, Bool.false_eq_true, if_false]
    generalize isScientific precision exponent = scientific
    generalize generalPlaces precision exponent = places
    by_cases hplaces : places ≤ maxFractionDigits
    · right
      obtain ⟨whole, fraction, power, written, hwhole, hfraction, hlength, hpower, hstop, htext⟩ :=
        exists_magnitudeText rank hplaces scientific
      obtain ⟨kept, zeros, rfl, hlast⟩ := exists_trailing_zeros fraction
      have hkept : ∀ c ∈ kept, c.isDigit := fun c hc => hfraction c (List.mem_append_left _ hc)
      have hpoint : placesPoint places true = ['.'] := by simp [placesPoint]
      have htrims := Trims.mk zeros hwhole hkept hlast (hpower.apply letters)
      rw [htext, htext, hpoint]
      refine ⟨_, _, rfl, rfl, ?_⟩
      rw [id, trimMantissa_parts hwhole.isDigits.2 hkept hlast hstop hlength,
        apply_parts letters hwhole.isDigits.2 (.inl rfl) hfraction,
        apply_parts letters hwhole.isDigits.2 (keptPoint_cases kept) hkept]
      exact htrims
    · left
      have hnone (alternate : Bool) : magnitudeText scientific rank places alternate = none :=
        (magnitudeText_eq_none_iff _ _ _ _).mpr (Nat.lt_of_not_le hplaces)
      rw [hnone, hnone]
      exact ⟨rfl, rfl⟩

namespace Directive

def alternated (d : Directive) : Directive := { d with flags := { d.flags with alternate := true } }

/-- A finite number in `g G` is what is left of its alternate form without the zeros that end the
fraction, and without the point if nothing stands behind it then. The sign, the digits in front of
the point and the exponent part stay, and the number is the same. -/
theorem render_general_trims {d : Directive} {letters : LetterCase}
    (hconversion : d.conversion = .general letters) (halternate : d.flags.alternate = false)
    (hwidth : d.width = none) {v : Value} {negative : Bool} {rank : Fin rankLimit}
    (hvalue : v.toNumber = .finite negative rank) (config : Config) :
    (d.render v config = none ↔ d.alternated.render v config = none) ∧
    ∀ text, d.render v config = some text → ∃ full trimmed,
      d.alternated.render v config = some (d.flags.signFor negative ++ full) ∧
      text = d.flags.signFor negative ++ trimmed ∧ Trims full trimmed ∧
      (∃ l k, DecimalLiteral.parse? full = some l ∧ DecimalLiteral.parse? trimmed = some k ∧
        k.whole = l.whole ∧ k.exponent = l.exponent ∧ k.magnitude = l.magnitude) ∧
      ('.' ∈ text → ∃ c, (mantissaOf text).getLast? = some c ∧ c.isDigit ∧ c ≠ '0') := by
  have hfield : d.field v config = floatField d letters generalText v.toNumber config := by
    rw [field, hconversion]
  have hfull : d.alternated.field v config
      = floatField d.alternated letters generalText v.toNumber config := by
    have hsame : d.alternated.conversion = .general letters := hconversion
    rw [field, hsame]
  have hrender := render_of_floatField hwidth hvalue hfield
  have halternated := render_of_floatField (d := d.alternated) hwidth hvalue hfull
  rw [halternate] at hrender
  rw [show d.alternated.flags.alternate = true from rfl,
    show config.precisionOf d.alternated = config.precisionOf d from rfl,
    show d.alternated.flags.signFor negative = d.flags.signFor negative from rfl] at halternated
  rw [hrender, halternated]
  obtain ⟨hnone, hnone'⟩ | ⟨full, trimmed, hfulltext, htrimmed, htrims⟩ :=
    generalText_trims rank (config.precisionOf d) letters
  · rw [hnone, hnone']
    exact ⟨Iff.rfl, fun text htext => by cases htext⟩
  · rw [hfulltext, htrimmed]
    refine ⟨by simp, fun text htext => ?_⟩
    obtain rfl := Option.some.inj htext
    obtain ⟨l, k, hl, hk, hwhole, hexponent, hmagnitude⟩ := htrims.exists_written
    exact ⟨_, _, rfl, rfl, htrims, ⟨l, k, hl.parse?, hk.parse?, hwhole, hexponent, hmagnitude⟩,
      htrims.exists_last (isSign_of_mem_signFor d.flags negative)⟩

theorem render_general_trims_power :
    let d : Directive := ⟨{}, none, some 3, none, .general .upper⟩
    let rank : Fin rankLimit := ⟨0x4202A05F20000000, by decide⟩
    let v : Value := .number (.finite true rank)
    d.conversion = .general .upper ∧ d.flags.alternate = false ∧ d.width = none ∧
      v.toNumber = .finite true rank ∧ d.render v {} = some "-1E+10".toList ∧
      d.alternated.render v {} = some "-1.00E+10".toList ∧
      Trims "1.00E+10".toList "1E+10".toList := by
  intro d rank v
  have hrender : d.render v {} = some "-1E+10".toList := by decide +kernel
  have halternated : d.alternated.render v {} = some "-1.00E+10".toList := by decide +kernel
  obtain ⟨-, htrims⟩ := render_general_trims (d := d) (v := v) rfl rfl rfl rfl {}
  obtain ⟨full, trimmed, hfull, htrimmed, htrims, -⟩ := htrims _ hrender
  obtain rfl := (List.cons.inj htrimmed).2
  obtain rfl := (List.cons.inj (Option.some.inj (hfull.symm.trans halternated))).2
  exact ⟨rfl, rfl, rfl, rfl, hrender, halternated, htrims⟩

end Directive
end ScriptBuiltins
