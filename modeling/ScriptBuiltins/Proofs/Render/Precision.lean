import ScriptBuiltins.Proofs.Render.Binding

/-! How many fraction digits a rendering asks for. Under moderate limits the printer has them all,
and only a failing directive ends a rendering. -/
namespace ScriptBuiltins

theorem signedWord_cases (n : Nat) :
    2 * (n % shortWordLimit) < shortWordLimit ∧ signedWord n = (n % shortWordLimit : Nat) ∨
    shortWordLimit ≤ 2 * (n % shortWordLimit) ∧
      signedWord n = (n % shortWordLimit : Nat) - shortWordLimit := by
  have hshort : shortWordLimit = 4294967296 := rfl
  rw [signedWord, Int.bmod_def, hshort]
  omega

theorem signedWord_le (n : Nat) : signedWord n ≤ n := by
  have hword := signedWord_cases n
  have hrest := Nat.mod_le n shortWordLimit
  omega

/-- The exponent that the form of a magnitude is chosen by. It takes the digits of the magnitude to
find it, except for zero. -/
def generalExponent? (rank precision : Nat) : Option Int :=
  if rank = 0 then some 0
  else if max precision 1 - 1 ≤ maxFractionDigits then
    some (Scientific.ofRank rank (max precision 1 - 1)).exponent
  else none

def isScientific (precision : Nat) (exponent : Int) : Bool :=
  exponent < -4 ∨ signedWord (max precision 1) ≤ exponent

def generalPlaces (precision : Nat) (exponent : Int) : Nat :=
  if isScientific precision exponent then max precision 1 - 1
  else (signedWord (max precision 1) - 1 - exponent).toNat

def magnitudeText : Bool → Nat → Nat → Bool → Option (List Char)
  | true => scientificText
  | false => fixedText

theorem generalText_eq (rank precision : Nat) (alternate : Bool) :
    generalText rank precision alternate = (generalExponent? rank precision).bind fun exponent =>
      (magnitudeText (isScientific precision exponent) rank (generalPlaces precision exponent)
        alternate).map (if alternate then id else trimMantissa) := by
  cases hexponent : generalExponent? rank precision with
  | none =>
    rw [generalExponent?] at hexponent
    simp only [generalText, hexponent, Option.bind_none]
  | some exponent =>
    rw [generalExponent?] at hexponent
    have htext : (if exponent < -4 ∨ signedWord (max precision 1) ≤ exponent then
          scientificText rank (max precision 1 - 1) alternate
        else fixedText rank (signedWord (max precision 1) - 1 - exponent).toNat alternate)
        = magnitudeText (isScientific precision exponent) rank (generalPlaces precision exponent)
          alternate := by
      cases hscientific : isScientific precision exponent with
      | true =>
        rw [generalPlaces, hscientific, if_pos rfl, if_pos (of_decide_eq_true hscientific),
          magnitudeText]
      | false =>
        rw [generalPlaces, hscientific, if_neg Bool.false_ne_true,
          if_neg (of_decide_eq_false hscientific), magnitudeText]
    simp only [generalText, hexponent, htext, Option.bind_some]
    cases alternate with
    | true => rw [if_pos rfl, if_pos rfl, Option.map_id, id]
    | false => rw [if_neg Bool.false_ne_true, if_neg Bool.false_ne_true]

/-- A positional form with the exponent -4 has three more fraction digits than significant ones. -/
theorem generalPlaces_le (precision : Nat) (exponent : Int) :
    generalPlaces precision exponent ≤ max precision 1 + 3 := by
  have hword := signedWord_le (max precision 1)
  rw [generalPlaces]
  split
  · omega
  · next h =>
    simp only [isScientific, decide_eq_true_eq, not_or] at h
    omega

/-- The numbers of fraction digits that the printer is asked for, one after the other, to write a
magnitude. -/
def generalRequests (rank precision : Nat) : List Nat :=
  (if rank = 0 then [] else [max precision 1 - 1])
    ++ ((generalExponent? rank precision).map (generalPlaces precision)).toList

def Directive.requests (d : Directive) (v : Value) (config : Config) : List Nat :=
  match d.conversion, v.toNumber with
  | .fixed _, .finite _ _ => [config.precisionOf d]
  | .exponent _, .finite _ _ => [config.precisionOf d]
  | .general _, .finite _ rank => generalRequests rank (config.precisionOf d)
  | _, _ => []

theorem fixedText_eq_none_iff (rank places : Nat) (alternate : Bool) :
    fixedText rank places alternate = none ↔ maxFractionDigits < places := by
  simp [fixedText]

theorem scientificText_eq_none_iff (rank places : Nat) (alternate : Bool) :
    scientificText rank places alternate = none ↔ maxFractionDigits < places := by
  simp [scientificText]

theorem magnitudeText_eq_none_iff (scientific : Bool) (rank places : Nat) (alternate : Bool) :
    magnitudeText scientific rank places alternate = none ↔ maxFractionDigits < places := by
  cases scientific with
  | true => exact scientificText_eq_none_iff rank places alternate
  | false => exact fixedText_eq_none_iff rank places alternate

theorem generalText_eq_none_iff (rank precision : Nat) (alternate : Bool) :
    generalText rank precision alternate = none ↔
      ∃ n ∈ generalRequests rank precision, maxFractionDigits < n := by
  rw [generalText_eq, generalRequests]
  cases hexponent : generalExponent? rank precision with
  | none =>
    have hrank : rank ≠ 0 := by
      intro hrank
      rw [generalExponent?, if_pos hrank] at hexponent
      cases hexponent
    have hlt : maxFractionDigits < max precision 1 - 1 := by
      rw [generalExponent?, if_neg hrank, ite_eq_right_iff] at hexponent
      exact Nat.lt_of_not_le fun hle => by cases hexponent hle
    rw [if_neg hrank]
    simp only [Option.bind_none, Option.map_none, Option.toList_none, List.append_nil,
      List.mem_singleton, exists_eq_left, hlt]
  | some exponent =>
    have hfirst : ∀ n ∈ (if rank = 0 then [] else [max precision 1 - 1]),
        ¬ maxFractionDigits < n := by
      intro n hn hlt
      split at hn
      · cases hn
      · next hrank =>
        obtain rfl := List.mem_singleton.mp hn
        rw [generalExponent?, if_neg hrank, if_neg (Nat.not_le.mpr hlt)] at hexponent
        cases hexponent
    simp only [Option.bind_some, Option.map_some, Option.toList_some, Option.map_eq_none_iff,
      magnitudeText_eq_none_iff, List.mem_append, List.mem_singleton]
    constructor
    · intro h
      exact ⟨_, .inr rfl, h⟩
    · rintro ⟨n, hn | rfl, h⟩
      · exact absurd h (hfirst n hn)
      · exact h

theorem generalRequests_le {rank precision n : Nat} (h : n ∈ generalRequests rank precision) :
    n ≤ max precision 1 + 3 := by
  obtain h | h := List.mem_append.mp h
  · split at h
    · cases h
    · obtain rfl := List.mem_singleton.mp h
      omega
  · obtain ⟨exponent, -, rfl⟩ := Option.map_eq_some_iff.mp (Option.mem_toList.mp h)
    exact generalPlaces_le precision exponent

theorem floatField_eq_none_iff (d : Directive) (letters : LetterCase)
    (form : Nat → Nat → Bool → Option (List Char)) (x : Number) (config : Config) :
    floatField d letters form x config = none ↔ ∃ negative rank, x = .finite negative rank ∧
      form rank (config.precisionOf d) d.flags.alternate = none := by
  cases x with
  | nan => simp [floatField]
  | infinite negative => simp [floatField]
  | finite negative rank => simp [floatField]

namespace Directive

/-- There is no text exactly when the printer is asked for more digits than it has. -/
theorem render_eq_none_iff (d : Directive) (v : Value) (config : Config) :
    d.render v config = none ↔ ∃ n ∈ d.requests v config, maxFractionDigits < n := by
  rw [render, Option.map_eq_none_iff, field, requests]
  cases hconversion : d.conversion with
  | fixed letters =>
    rw [floatField_eq_none_iff]
    cases v.toNumber <;> simp [fixedText_eq_none_iff]
  | exponent letters =>
    rw [floatField_eq_none_iff]
    cases v.toNumber <;> simp [scientificText_eq_none_iff]
  | general letters =>
    rw [floatField_eq_none_iff]
    cases v.toNumber <;> simp [generalText_eq_none_iff]
  | text => simp
  | json => simp
  | decimal => simp
  | integer => simp
  | octal => simp
  | hex => simp

theorem requests_le {d : Directive} {v : Value} {config : Config} {n : Nat}
    (h : n ∈ d.requests v config) : n ≤ max (config.precisionOf d) 1 + 3 := by
  unfold requests at h
  split at h
  · obtain rfl := List.mem_singleton.mp h
    omega
  · obtain rfl := List.mem_singleton.mp h
    omega
  · exact generalRequests_le h
  · cases h

theorem isSome_render {d : Directive} {config : Config}
    (h : max (config.precisionOf d) 1 + 3 ≤ maxFractionDigits) (v : Value) :
    (d.render v config).isSome := by
  rw [Option.isSome_iff_ne_none, Ne, render_eq_none_iff]
  rintro ⟨n, hn, hlimit⟩
  have hle := requests_le hn
  omega

theorem le_of_check {d : Directive} {config : Config} (h : config.check d = .ok ()) :
    d.width.getD 0 ≤ config.maxWidth ∧ d.precision.getD 0 ≤ config.maxPrecision := by
  rw [Config.check] at h
  split at h
  · cases h
  · split at h
    · cases h
    · omega

theorem precisionOf_le {d : Directive} {config : Config} (h : config.check d = .ok ()) :
    config.precisionOf d ≤ max config.maxPrecision config.defaultPrecision := by
  obtain ⟨-, hle⟩ := le_of_check h
  rw [Config.precisionOf]
  cases hprecision : d.precision with
  | none => exact Nat.le_max_right _ _
  | some p =>
    rw [hprecision, Option.getD_some] at hle
    exact Nat.le_trans hle (Nat.le_max_left _ _)

theorem of_failure?_eq_none {d : Directive} {config : Config} {queue : List Value}
    {lookup : Option (Object Value)} {k offset : Nat}
    (h : d.failure? config queue lookup k offset = none) :
    config.check d = .ok () ∧ ∃ v, d.value? queue lookup k = some v := by
  rw [Config.check_eq]
  cases hwidth : d.width.filter (config.maxWidth < ·) with
  | some w => simp [failure?, hwidth] at h
  | none =>
    cases hprecision : d.precision.filter (config.maxPrecision < ·) with
    | some p => simp [failure?, hwidth, hprecision] at h
    | none =>
      refine ⟨rfl, ?_⟩
      cases hname : d.name with
      | none =>
        by_cases hk : k < queue.length
        · exact ⟨queue[k], by simp [value?, hname, hk]⟩
        · simp [failure?, hwidth, hprecision, hname, hk] at h
      | some name =>
        cases lookup with
        | none => simp [failure?, hwidth, hprecision, hname] at h
        | some o =>
          cases hget : o.get? name with
          | none => simp [failure?, hwidth, hprecision, hname, Object.contains, hget] at h
          | some v => exact ⟨v, by simp [value?, hname, hget]⟩

theorem failure?_ne_tooManyDigits {d : Directive} {config : Config} {queue : List Value}
    {lookup : Option (Object Value)} {k offset : Nat} :
    d.failure? config queue lookup k offset ≠ some .tooManyDigits := by
  unfold failure?
  split
  · simp
  · simp
  · split
    · split <;> simp
    · simp
    · split <;> simp

end Directive

/-- Limits under which no directive asks for more fraction digits than there are. -/
def Config.Moderate (config : Config) : Prop :=
  max (max config.maxPrecision config.defaultPrecision) 1 + 3 ≤ maxFractionDigits

instance (config : Config) : Decidable config.Moderate := inferInstanceAs (Decidable (_ ≤ _))

theorem Config.moderate_default : Config.Moderate {} := by decide

theorem Directive.isSome_render_of_check {d : Directive} {config : Config}
    (hmoderate : config.Moderate) (hcheck : config.check d = .ok ()) (v : Value) :
    (d.render v config).isSome := by
  have hprecision := precisionOf_le hcheck
  rw [Config.Moderate] at hmoderate
  exact isSome_render (by omega) v

namespace Segment

variable {config : Config} (hmoderate : config.Moderate) (queue : List Value)
  (lookup : Option (Object Value))

include hmoderate

theorem stop?_ne_tooManyDigits (p : Nat × Segment) :
    stop? config queue lookup p ≠ some .tooManyDigits := by
  obtain ⟨k, s⟩ := p
  cases s with
  | literal text => simp [stop?, failure?, text?]
  | percent => simp [stop?, failure?, text?]
  | directive d offset =>
    intro hstop
    rw [stop?, failure?] at hstop
    cases hfailure : d.failure? config queue lookup k offset with
    | some e =>
      rw [hfailure] at hstop
      exact Directive.failure?_ne_tooManyDigits (hfailure.trans hstop)
    | none =>
      obtain ⟨hcheck, v, hvalue⟩ := Directive.of_failure?_eq_none hfailure
      obtain ⟨text, htext⟩ := Option.isSome_iff_exists.mp
        (Directive.isSome_render_of_check hmoderate hcheck v)
      simp [text?, hfailure, hvalue, htext] at hstop

theorem findSome?_stop?_eq_failure? (placed : List (Nat × Segment)) :
    placed.findSome? (stop? config queue lookup)
      = placed.findSome? (failure? config queue lookup) := by
  apply findSome?_stop?_eq
  intro hstop
  obtain ⟨p, _, hp⟩ := List.exists_of_findSome?_eq_some hstop
  exact stop?_ne_tooManyDigits hmoderate queue lookup p hp

end Segment

theorem Template.decided_render (t : Template) (values : List Value) (config : Config) :
    Segment.Decided config (queueOf t.hasNamed values) (lookupOf t.hasNamed values)
      (Segment.placedFrom 0 t.segments) (t.render values config).result := by
  have hdecided := Segment.decided_renderAll config (queueOf t.hasNamed values)
    (lookupOf t.hasNamed values) 0 t.segments
  rwa [List.drop_zero, ← Arguments.ofValues_eq] at hdecided

theorem Template.render_error_iff {config : Config} (hmoderate : config.Moderate) (t : Template)
    (values : List Value) (e : FormatError) :
    (t.render values config).result = .error e ↔ (Segment.placedFrom 0 t.segments).findSome?
      (Segment.failure? config (queueOf t.hasNamed values) (lookupOf t.hasNamed values))
        = some e := by
  have hdecided := t.decided_render values config
  rw [← Segment.findSome?_stop?_eq_failure? hmoderate]
  cases hstop : (Segment.placedFrom 0 t.segments).findSome?
      (Segment.stop? config (queueOf t.hasNamed values) (lookupOf t.hasNamed values)) with
  | some first =>
    rw [hdecided.error first hstop]
    simp
  | none =>
    obtain ⟨texts, _, hok⟩ := hdecided.ok hstop
    rw [hok]
    simp

theorem result_formatWith_ne {config : Config} (hmoderate : config.Moderate) (template : String)
    (values : List Value) : (formatWith template values config).result ≠ .error .tooManyDigits := by
  intro hresult
  rw [formatWith] at hresult
  cases hparse : Template.parse template with
  | error error =>
    rw [hparse] at hresult
    cases hresult
  | ok t =>
    rw [hparse] at hresult
    have hrender : (t.render values config).result = .error .tooManyDigits := hresult
    rw [Template.render_error_iff hmoderate, ← Segment.findSome?_stop?_eq_failure? hmoderate]
      at hrender
    obtain ⟨p, -, hp⟩ := List.exists_of_findSome?_eq_some hrender
    exact Segment.stop?_ne_tooManyDigits hmoderate _ _ p hp

/-- A directive asks the printer for at most three fraction digits over its precision, and renders
if the printer has as many. With limits up to 65531 it always has. -/
theorem formatWith_ne_tooManyDigits (config : Config) :
    (∀ (d : Directive) (v : Value),
      ((d.render v config).isSome ↔ ∀ n ∈ d.requests v config, n ≤ maxFractionDigits) ∧
      ∀ n ∈ d.requests v config, n ≤ max (config.precisionOf d) 1 + 3) ∧
    (config.maxPrecision ≤ 65531 → config.defaultPrecision ≤ 65531 →
      ∀ template values, (formatWith template values config).result ≠ .error .tooManyDigits) ∧
    ∀ template values, (format template values).result ≠ .error .tooManyDigits := by
  refine ⟨fun d v => ⟨?_, fun n hn => Directive.requests_le hn⟩, ?_, ?_⟩
  · rw [Option.isSome_iff_ne_none, Ne, Directive.render_eq_none_iff]
    simp only [not_exists, not_and, Nat.not_lt]
  · intro hprecision hdefault
    have hlimit : maxFractionDigits = 65535 := rfl
    have hmoderate : config.Moderate := by
      rw [Config.Moderate, hlimit]
      omega
    exact result_formatWith_ne hmoderate
  · exact result_formatWith_ne Config.moderate_default

/-- `1e-4` is written without an exponent part, and 65531 digits of it take 65534 places. -/
theorem formatWith_ne_tooManyDigits_at_limit :
    let config : Config := ⟨65531, 65536, 65531⟩
    config.maxPrecision ≤ 65531 ∧ config.defaultPrecision ≤ 65531 ∧
      (formatWith "%.65531g" [.string "1e-4"] config).result ≠ .error .tooManyDigits := by
  intro config
  have hprecision : config.maxPrecision ≤ 65531 := by decide
  have hdefault : config.defaultPrecision ≤ 65531 := by decide
  exact ⟨hprecision, hdefault,
    (formatWith_ne_tooManyDigits config).2.1 hprecision hdefault _ _⟩

end ScriptBuiltins
