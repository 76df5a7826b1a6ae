import ScriptBuiltins.Proofs.Json.Reading

/-!
The spelling of decimal literals: an optional sign, digits with an optional point among them or at
either end, and an optional exponent. The reader takes exactly these texts.
-/
namespace ScriptBuiltins
open Json

/-- Digits behind a point, maybe none; without a point there are none. -/
inductive PointText : List Char → List Char → Prop
  | none : PointText [] []
  | some {ds : List Char} (h : ∀ c ∈ ds, c.isDigit) : PointText ds ('.' :: ds)

/-- A decimal literal is spelled by a text. At least one digit stands before or after the point. -/
inductive DecimalText : DecimalLiteral → List Char → Prop
  | mk {negative : Bool} {sign whole fraction point power : List Char} {exponent : Option Int}
      (hsign : SignText negative sign) (hwhole : ∀ c ∈ whole, c.isDigit)
      (hpoint : PointText fraction point) (hdigit : whole ≠ [] ∨ fraction ≠ [])
      (hexponent : ExponentText exponent power) :
      DecimalText ⟨negative, whole, fraction, exponent⟩ (sign ++ (whole ++ (point ++ power)))

theorem exists_signText (cs : List Char) :
    ∃ sign, SignText (splitSign cs).1 sign ∧ cs = sign ++ (splitSign cs).2 := by
  unfold splitSign
  split
  · exact ⟨['-'], .minus, rfl⟩
  · exact ⟨['+'], .plus, rfl⟩
  · exact ⟨[], .none, rfl⟩

theorem PointText.stops {fraction point rest : List Char} (h : PointText fraction point)
    (hrest : Stops Char.isDigit rest) : Stops Char.isDigit (point ++ rest) := by
  cases h with
  | none => exact hrest
  | some h => exact stops_cons.mpr (by decide)

theorem Json.FractionText.pointText {fraction point : List Char} (h : FractionText fraction point) :
    PointText fraction point := by
  cases h with
  | none => exact .none
  | some h => exact .some h.2

theorem exists_sign_signed (negative : Bool) (cs : List Char) :
    ∃ sign, SignText negative sign ∧ signed negative cs = sign ++ cs := by
  cases negative with
  | false => exact ⟨[], .none, rfl⟩
  | true => exact ⟨['-'], .minus, rfl⟩

theorem Json.NumberText.decimalText {l : DecimalLiteral} {text : List Char} (h : NumberText l text) :
    DecimalText l text := by
  cases h with
  | @mk whole fraction point power exponent negative hwhole hfraction hexponent =>
    obtain ⟨sign, hsign, htext⟩ := exists_sign_signed negative (whole ++ point ++ power)
    rw [htext, List.append_assoc]
    exact .mk hsign hwhole.isDigits.2 hfraction.pointText (.inl hwhole.isDigits.1) hexponent

theorem exists_body_cons {whole fraction point : List Char} (hwhole : ∀ c ∈ whole, c.isDigit)
    (hpoint : PointText fraction point) (hdigit : whole ≠ [] ∨ fraction ≠ []) (power : List Char) :
    ∃ c cs, whole ++ (point ++ power) = c :: cs ∧ (c.isDigit ∨ c = '.') := by
  match whole with
  | d :: ds => exact ⟨d, ds ++ (point ++ power), rfl, .inl (hwhole d List.mem_cons_self)⟩
  | [] =>
    cases hpoint with
    | none => simp at hdigit
    | some => exact ⟨'.', fraction ++ power, rfl, .inr rfl⟩

theorem stops_isSignMark_body {whole fraction point : List Char} (hwhole : ∀ c ∈ whole, c.isDigit)
    (hpoint : PointText fraction point) (hdigit : whole ≠ [] ∨ fraction ≠ []) (power : List Char) :
    Stops isSignMark (whole ++ (point ++ power)) := by
  obtain ⟨c, cs, hcons, hc | rfl⟩ := exists_body_cons hwhole hpoint hdigit power
  · exact hcons ▸ stops_cons.mpr (isSignMark_of_isDigit hc)
  · exact hcons ▸ stops_cons.mpr rfl

namespace DecimalLiteral

theorem exponentValue?_eq_some_iff {cs : List Char} {exponent : Int} :
    exponentValue? cs = some exponent ↔ ∃ below sign ds, SignText below sign ∧ IsDigits ds ∧
      cs = sign ++ ds ∧ exponent = if below then -(decimalValue ds : Int) else decimalValue ds := by
  constructor
  · intro h
    obtain ⟨sign, hsign, hcs⟩ := exists_signText cs
    rw [exponentValue?] at h
    generalize splitSign cs = parts at h hsign hcs
    obtain ⟨below, ds⟩ := parts
    simp only at h
    split at h
    · cases h
    · next hds =>
      rw [Bool.or_eq_true, not_or, List.isEmpty_iff, Bool.not_eq_true', Bool.not_eq_false,
        List.all_eq_true] at hds
      exact ⟨below, sign, ds, hsign, hds, hcs, (Option.some.inj h).symm⟩
  · rintro ⟨below, sign, ds, hsign, hds, rfl, rfl⟩
    have hsplit := splitSign_append hsign hds []
    rw [List.append_nil, List.append_nil] at hsplit
    have hall : ds.all Char.isDigit = true := List.all_eq_true.mpr hds.2
    simp [exponentValue?, hsplit, hds.1, hall]

def splitFraction : List Char → List Char × List Char
  | '.' :: after => (after.takeWhile Char.isDigit, after.dropWhile Char.isDigit)
  | rest => ([], rest)

def readPower? : List Char → Option (Option Int)
  | [] => some none
  | c :: cs => if c = 'e' ∨ c = 'E' then (exponentValue? cs).map some else none

theorem parse?_eq (cs : List Char) : parse? cs =
    let whole := (splitSign cs).2.takeWhile Char.isDigit
    let behind := splitFraction ((splitSign cs).2.dropWhile Char.isDigit)
    if whole.isEmpty && behind.1.isEmpty then none
    else (readPower? behind.2).map (mk (splitSign cs).1 whole behind.1) := by
  have hpower (negative : Bool) (whole fraction : List Char) : ∀ rest : List Char,
      (match rest with
        | [] => some (mk negative whole fraction none)
        | c :: cs => if c = 'e' ∨ c = 'E' then
            (exponentValue? cs).map fun exponent => mk negative whole fraction (some exponent)
          else none) = (readPower? rest).map (mk negative whole fraction)
    | [] => rfl
    | c :: cs => by
      simp only [readPower?]
      split
      · rw [Option.map_map]
        rfl
      · rfl
  simp only [← hpower]
  rfl

theorem splitFraction_append {fraction point rest : List Char} (hpoint : PointText fraction point)
    (hrest : Stops Char.isDigit rest) (hhead : rest.head? ≠ some '.') :
    splitFraction (point ++ rest) = (fraction, rest) := by
  cases hpoint with
  | none =>
    rw [List.nil_append, splitFraction]
    rintro after rfl
    exact hhead rfl
  | some hfraction =>
    rw [List.cons_append, splitFraction, takeWhile_run hfraction hrest, dropWhile_run hfraction hrest]

theorem exists_point_of_splitFraction (cs : List Char) :
    ∃ point, PointText (splitFraction cs).1 point ∧ cs = point ++ (splitFraction cs).2 := by
  unfold splitFraction
  split
  · next after =>
    refine ⟨'.' :: after.takeWhile Char.isDigit, .some ?_, ?_⟩
    · exact fun c hc => List.all_eq_true.mp List.all_takeWhile c hc
    · rw [List.cons_append, List.takeWhile_append_dropWhile]
  · exact ⟨[], .none, rfl⟩

theorem readPower?_eq_some_iff {cs : List Char} {exponent : Option Int} :
    readPower? cs = some exponent ↔ ExponentText exponent cs := by
  constructor
  · intro h
    cases cs with
    | nil =>
      obtain rfl := Option.some.inj h
      exact .none
    | cons e cs =>
      rw [readPower?] at h
      split at h
      · next he =>
        obtain ⟨value, hvalue, rfl⟩ := Option.map_eq_some_iff.mp h
        obtain ⟨below, sign, ds, hsign, hds, rfl, rfl⟩ := exponentValue?_eq_some_iff.mp hvalue
        exact .some he hsign hds
      · cases h
  · intro h
    cases h with
    | none => rfl
    | @some e below sign ds he hsign hds =>
      have hvalue := exponentValue?_eq_some_iff.mpr ⟨below, sign, ds, hsign, hds, rfl, rfl⟩
      rw [readPower?, if_pos he, hvalue]
      rfl

/-- The reader takes exactly the texts of decimal literals. -/
theorem parse?_eq_some_iff {l : DecimalLiteral} {cs : List Char} :
    parse? cs = some l ↔ DecimalText l cs := by
  rw [parse?_eq]
  constructor
  · intro h
    obtain ⟨sign, hsign, hcs⟩ := exists_signText cs
    generalize splitSign cs = parts at h hsign hcs
    obtain ⟨negative, body⟩ := parts
    obtain ⟨point, hpoint, hbehind⟩ := exists_point_of_splitFraction (body.dropWhile Char.isDigit)
    simp only at h hcs hsign
    generalize splitFraction (body.dropWhile Char.isDigit) = behind at h hpoint hbehind
    obtain ⟨fraction, power⟩ := behind
    split at h
    · cases h
    · next hdigit =>
      rw [Bool.and_eq_true, not_and_or, List.isEmpty_iff, List.isEmpty_iff] at hdigit
      obtain ⟨exponent, hpower, rfl⟩ := Option.map_eq_some_iff.mp h
      have hwhole : ∀ c ∈ body.takeWhile Char.isDigit, c.isDigit :=
        fun c hc => List.all_eq_true.mp List.all_takeWhile c hc
      have htext := DecimalText.mk hsign hwhole hpoint hdigit (readPower?_eq_some_iff.mp hpower)
      rwa [← hbehind, List.takeWhile_append_dropWhile, ← hcs] at htext
  · intro h
    cases h with
    | @mk negative sign whole fraction point power exponent hsign hwhole hpoint hdigit hexponent =>
      have hstop : Stops Char.isDigit power := by
        simpa using stops_digit_of_exponentText hexponent (stops_nil _)
      have hhead : power.head? ≠ some '.' := by
        simpa using head?_exponentText hexponent (stops_nil _)
      have hsplit := hsign.splitSign_append (stops_isSignMark_body hwhole hpoint hdigit power)
      have hsome : ¬ (whole.isEmpty && fraction.isEmpty) = true := by
        rwa [Bool.and_eq_true, not_and_or, List.isEmpty_iff, List.isEmpty_iff]
      simp only [hsplit, takeWhile_run hwhole (hpoint.stops hstop),
        dropWhile_run hwhole (hpoint.stops hstop), splitFraction_append hpoint hstop hhead,
        readPower?_eq_some_iff.mpr hexponent, if_neg hsome, Option.map_some]

end DecimalLiteral

theorem radix?_eq_none {c : Char} (h : c.isDigit) : radix? c = none := by
  unfold radix?
  split
  case h_7 => rfl
  all_goals contradiction

/-- Behind a leading zero there is no radix mark but a digit, the point or the exponent. -/
theorem DecimalText.radix?_eq_none {l : DecimalLiteral} {c : Char} {rest : List Char}
    (h : DecimalText l ('0' :: c :: rest)) : radix? c = none := by
  generalize htext : '0' :: c :: rest = text at h
  cases h with
  | @mk negative sign whole fraction point power exponent hsign hwhole hpoint hdigit hexponent =>
    cases hsign with
    | plus => cases htext
    | minus => cases htext
    | none =>
      rw [List.nil_append] at htext
      match whole with
      | [] =>
        cases hpoint with
        | none => simp at hdigit
        | some => cases htext
      | [_] =>
        have htail : c :: rest = point ++ power := (List.cons.inj htext).2
        cases hpoint with
        | some =>
          obtain ⟨rfl, -⟩ := List.cons.inj htail
          rfl
        | none =>
          cases hexponent with
          | none => cases htail
          | some he =>
            obtain ⟨rfl, -⟩ := List.cons.inj htail
            obtain rfl | rfl := he <;> rfl
      | _ :: d :: ds =>
        obtain ⟨rfl, -⟩ := List.cons.inj (List.cons.inj htext).2
        exact ScriptBuiltins.radix?_eq_none (hwhole c (by simp))

namespace Number

theorem ofNumeral_of_decimalText {l : DecimalLiteral} {cs : List Char} (h : DecimalText l cs) :
    ofNumeral cs = l.toNumber := by
  have hparse := DecimalLiteral.parse?_eq_some_iff.mpr h
  unfold ofNumeral
  split
  · cases hparse
  · rw [h.radix?_eq_none, hparse]
    rfl
  · have hinfinity : (splitSign cs).2 ≠ "Infinity".toList := by
      cases h with
      | @mk negative sign whole fraction point power exponent hsign hwhole hpoint hdigit hexponent =>
        obtain ⟨c, cs, hcons, hc⟩ := exists_body_cons hwhole hpoint hdigit power
        rw [hsign.splitSign_append (stops_isSignMark_body hwhole hpoint hdigit power), hcons]
        rintro heq
        obtain ⟨rfl, -⟩ := List.cons.inj heq
        exact absurd hc (by decide)
    rw [if_neg hinfinity, hparse]
    rfl

end Number
end ScriptBuiltins
