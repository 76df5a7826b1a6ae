import ScriptBuiltins.CallSite
import ScriptBuiltins.Proofs.Render.Precision

/-! Call sites are checked before the program runs: what the verdict says of the calls that are made
there. -/
namespace ScriptBuiltins

def FormatError.isLimit : FormatError → Bool
  | .template ⟨.widthOverLimit _ _, _⟩ => true
  | .template ⟨.precisionOverLimit _ _, _⟩ => true
  | _ => false

variable {config : Config} {queue : List Value} {lookup : Option (Object Value)}

theorem Directive.failure?_of_unnamed {d : Directive} {k offset : Nat} {e : FormatError}
    (hname : d.isNamed = false) (h : d.failure? config queue lookup k offset = some e) :
    e.isLimit ∨ queue.length ≤ k ∧ e = .argument (.missingPositional k) := by
  rw [isNamed, Option.isSome_eq_false_iff, Option.isNone_iff_eq_none] at hname
  unfold failure? at h
  split at h
  · cases h
    exact .inl rfl
  · cases h
    exact .inl rfl
  · simp only [hname] at h
    split at h
    · cases h
    · cases h
      exact .inr ⟨by omega, rfl⟩

theorem Directive.failure?_cases {d : Directive} {k offset : Nat} {e : FormatError}
    (h : d.failure? config queue lookup k offset = some e) :
    e.isLimit ∨ ∃ error, e = .argument error := by
  unfold failure? at h
  split at h
  · cases h
    exact .inl rfl
  · cases h
    exact .inl rfl
  · split at h
    · split at h <;> cases h
      exact .inr ⟨_, rfl⟩
    · cases h
      exact .inr ⟨_, rfl⟩
    · split at h <;> cases h
      exact .inr ⟨_, rfl⟩

namespace Segment

theorem failure?_cases {p : Nat × Segment} {e : FormatError}
    (h : failure? config queue lookup p = some e) : e.isLimit ∨ ∃ error, e = .argument error := by
  obtain ⟨k, s⟩ := p
  cases s with
  | literal text => cases h
  | percent => cases h
  | directive d offset => exact Directive.failure?_cases h

variable (config lookup) in
/-- Without named directives, a rendering with enough values fails over a limit only, and one with
too few fails at the latest where the values run out. -/
theorem findSome?_failure?_of_unnamed {segments : List Segment} {k : Nat}
    (hnamed : (segments.filterMap directive?).any Directive.isNamed = false)
    (hk : k ≤ queue.length) :
    match (placedFrom k segments).findSome? (failure? config queue lookup) with
    | some e => e.isLimit ∨ queue.length < k + segments.countP isPositional ∧
        e = .argument (.missingPositional queue.length)
    | none => k + segments.countP isPositional ≤ queue.length := by
  induction segments generalizing k with
  | nil => exact hk
  | cons s rest ih =>
    cases s with
    | literal text => exact ih hnamed hk
    | percent => exact ih hnamed hk
    | directive d offset =>
      simp only [List.filterMap_cons, directive?, List.any_cons, Bool.or_eq_false_iff] at hnamed
      obtain ⟨hd, hrest⟩ := hnamed
      have hpositional : isPositional (.directive d offset) = true := by simp [isPositional, hd]
      rw [placedFrom, if_pos hpositional, List.findSome?_cons, List.countP_cons_of_pos hpositional]
      cases hfailure : failure? config queue lookup (k, .directive d offset) with
      | some e =>
        obtain hlimit | ⟨hlow, rfl⟩ := Directive.failure?_of_unnamed hd hfailure
        · exact .inl hlimit
        · obtain rfl : k = queue.length := by omega
          exact .inr ⟨by omega, rfl⟩
      | none =>
        -- The directive has found its value, so the bound on `k` goes on to the next place.
        have hroom : k < queue.length := by
          obtain ⟨_, v, hvalue⟩ := Directive.of_failure?_eq_none hfailure
          rw [Directive.isNamed, Option.isSome_eq_false_iff, Option.isNone_iff_eq_none] at hd
          rw [Directive.value?, hd] at hvalue
          exact (List.getElem?_eq_some_iff.mp hvalue).1
        rw [Nat.add_comm (List.countP _ _) 1, ← Nat.add_assoc]
        exact ih hrest hroom

end Segment

theorem Template.positionalCount_eq (t : Template) :
    t.positionalCount = t.segments.countP Segment.isPositional := by
  rw [positionalCount, directives, List.countP_filterMap]
  congr 1
  funext s
  cases s <;> rfl

theorem result_format (template : String) (values : List Value) :
    (format template values).result = match Template.parse template with
      | .error error => .error (.template error)
      | .ok t => (t.render values {}).result := by
  rw [format, formatWith]
  cases Template.parse template <;> rfl

namespace CallSite

/-- What a verdict says of formatting with the values of the arguments. -/
def Agrees (site : CallSite) (values : List Value) : Except CallError CallSite → Prop
  | .ok checked => checked = site ∧ ∃ t, Template.parse site.template = .ok t ∧
      ∀ e, (format site.template values).result = .error e →
        e.isLimit ∨ t.hasNamed ∧ ∃ error, e = .argument error
  | .error (.template error) => Template.parse site.template = .error error ∧
      (format site.template values).result = .error (.template error) ∧
      (CallError.template error).message = (FormatError.template error).message
  | .error (.tooFew directives arguments) => arguments = site.arguments.length ∧
      (∃ t, Template.parse site.template = .ok t ∧ t.hasNamed = false ∧
        t.positionalCount = directives ∧ arguments < directives) ∧
      ∃ e, (format site.template values).result = .error e ∧
        (e.isLimit ∨ e = .argument (.missingPositional arguments))
  | .error _ => False

theorem result_check {tokens : List Token} {site : CallSite} (hsite : parse tokens = .ok site) :
    (check tokens).result = match Template.parse site.template with
      | .error error => .error (.template error)
      | .ok t =>
        if site.lacksArguments t then .error (.tooFew t.positionalCount site.arguments.length)
        else .ok site := by
  rw [check, hsite]
  simp only
  cases Template.parse site.template <;> rfl

theorem agrees_of_named {site : CallSite} {t : Template}
    (hparse : Template.parse site.template = .ok t) (hnamed : t.hasNamed = true)
    (values : List Value) : site.Agrees values (.ok site) := by
  refine ⟨rfl, t, hparse, fun e he => ?_⟩
  rw [result_format, hparse] at he
  have hfirst := (t.render_error_iff Config.moderate_default values e).mp he
  obtain ⟨p, _, hp⟩ := List.exists_of_findSome?_eq_some hfirst
  exact (Segment.failure?_cases hp).imp_right fun hargument => ⟨hnamed, hargument⟩

theorem agrees_of_unnamed {site : CallSite} {t : Template}
    (hparse : Template.parse site.template = .ok t) (hnamed : t.hasNamed = false)
    {values : List Value} (hcount : values.length = site.arguments.length) :
    site.Agrees values (if site.arguments.length < t.positionalCount then
      .error (.tooFew t.positionalCount site.arguments.length) else .ok site) := by
  have hformat := result_format site.template values
  rw [hparse] at hformat
  have hfails := Segment.findSome?_failure?_of_unnamed {} (lookupOf t.hasNamed values) hnamed
    (Nat.zero_le (queueOf t.hasNamed values).length)
  have hqueue : queueOf t.hasNamed values = values := by rw [hnamed]; rfl
  rw [Nat.zero_add, ← t.positionalCount_eq, congrArg List.length hqueue, hcount] at hfails
  split
  · rename_i hfew
    refine ⟨rfl, ⟨t, hparse, hnamed, rfl, hfew⟩, ?_⟩
    split at hfails
    · rename_i e hfirst
      have herror := (t.render_error_iff Config.moderate_default values e).mpr hfirst
      exact ⟨e, hformat.trans herror, hfails.imp_right And.right⟩
    · omega
  · rename_i henough
    refine ⟨rfl, t, hparse, fun e he => ?_⟩
    rw [hformat] at he
    rw [(t.render_error_iff Config.moderate_default values e).mp he] at hfails
    exact .inl (hfails.resolve_right fun hfew => henough hfew.1)

/-- The verdict on a call site agrees with formatting: what is accepted can only fail for its limits
or for a name, what is rejected for its template fails alike, and what has too few arguments
fails. -/
theorem check_agrees {tokens : List Token} {site : CallSite} (hsite : parse tokens = .ok site)
    (values : List Value) (hcount : values.length = site.arguments.length) :
    site.Agrees values (check tokens).result := by
  rw [result_check hsite]
  cases hparse : Template.parse site.template with
  | error error =>
    have hformat := result_format site.template values
    rw [hparse] at hformat
    exact ⟨hparse, hformat, rfl⟩
  | ok t =>
    by_cases hnamed : t.hasNamed = true
    · have hverdict : ¬ site.lacksArguments t = true := by simp [lacksArguments, hnamed]
      simp only [if_neg hverdict]
      exact agrees_of_named hparse hnamed values
    · have hverdict : site.lacksArguments t = true ↔ site.arguments.length < t.positionalCount := by
        simp [lacksArguments, hnamed]
      simp only [hverdict]
      exact agrees_of_unnamed hparse (Bool.eq_false_iff.mpr hnamed) hcount

/-- `"%d %d"` with one argument is rejected, and formatting it fails. -/
theorem check_agrees_too_few :
    let tokens : List Token := [.string "%d %d", .comma, .integer 7]
    let site : CallSite := ⟨"%d %d", [.integer 7]⟩
    parse tokens = .ok site ∧ [Value.null].length = site.arguments.length ∧
      (check tokens).result = .error (.tooFew 2 1) ∧ site.Agrees [.null] (check tokens).result :=
  ⟨rfl, rfl, by decide +kernel, check_agrees rfl [.null] rfl⟩

end CallSite
end ScriptBuiltins
