import ScriptBuiltins.Proofs.CallSite.Checking

/-! What a rendering reports: the template that was read, each value that was bound before the first
directive that fails, and how many arguments are left at the end. -/
namespace ScriptBuiltins

def Event.position? : Event → Option Nat
  | .boundPositional index => some index
  | _ => none

/-- What is reported behind the bindings when `used` values of a queue were bound: those left over,
if there are any and the rendering has not failed. -/
def unusedEvents (total used : Nat) : Except FormatError (List Char) → List Event
  | .ok _ => if used < total then [.leftOver (total - used)] else []
  | .error _ => []

theorem unusedEvents_map (total used : Nat) (f : List Char → List Char)
    (result : Except FormatError (List Char)) :
    unusedEvents total used (result.map f) = unusedEvents total used result := by
  cases result <;> rfl

namespace Rendering

theorem events_report (event : Event) (r : Rendering) :
    (r.report event).events = event :: r.events := rfl

theorem events_prepend (text : List Char) (r : Rendering) :
    (r.prepend text).events = r.events := rfl

theorem result_prepend_eq_tooManyDigits {text : List Char} {r : Rendering}
    (h : r.result = .error .tooManyDigits) : (r.prepend text).result = .error .tooManyDigits := by
  rw [result_prepend, h]
  rfl

end Rendering

namespace Segment

def bindingEvent? : Nat × Segment → Option Event
  | (k, .directive d _) => some (d.bindingEvent k)
  | _ => none

/-- The bindings of the directives in front of the first one that fails. -/
def bindings (config : Config) (queue : List Value) (lookup : Option (Object Value))
    (placed : List (Nat × Segment)) : List Event :=
  (placed.takeWhile fun p => (failure? config queue lookup p).isNone).filterMap bindingEvent?

variable {config : Config} {queue : List Value} {lookup : Option (Object Value)}

theorem bindings_plain {p : Nat × Segment} (hfailure : failure? config queue lookup p = none)
    (hevent : bindingEvent? p = none) (placed : List (Nat × Segment)) :
    bindings config queue lookup (p :: placed) = bindings config queue lookup placed := by
  simp only [bindings, List.takeWhile_cons, hfailure, Option.isNone_none, if_true,
    List.filterMap_cons, hevent]

theorem bindings_bound {d : Directive} {k offset : Nat}
    (hfailure : d.failure? config queue lookup k offset = none) (placed : List (Nat × Segment)) :
    bindings config queue lookup ((k, .directive d offset) :: placed)
      = d.bindingEvent k :: bindings config queue lookup placed := by
  simp only [bindings, List.takeWhile_cons, failure?, hfailure, Option.isNone_none, if_true,
    List.filterMap_cons, bindingEvent?]

theorem bindings_failing {p : Nat × Segment} {e : FormatError}
    (hfailure : failure? config queue lookup p = some e) (placed : List (Nat × Segment)) :
    bindings config queue lookup (p :: placed) = [] := by
  simp only [bindings, List.takeWhile_cons, hfailure, Option.isNone_some, Bool.false_eq_true,
    if_false, List.filterMap_nil]

theorem countP_directive (d : Directive) (k offset : Nat) (rest : List Segment) :
    k + (Segment.directive d offset :: rest).countP isPositional
      = (if d.isNamed then k else k + 1) + rest.countP isPositional := by
  cases hnamed : d.isNamed with
  | true => simp [isPositional, hnamed]
  | false =>
    simp only [isPositional, hnamed, Bool.not_false, List.countP_cons_of_pos, Bool.false_eq_true,
      if_false]
    omega

theorem events_renderAll (segments : List Segment) (k : Nat)
    (hdigits : (renderAll config ⟨queue.drop k, k, lookup⟩ segments).result
      ≠ .error .tooManyDigits) :
    (renderAll config ⟨queue.drop k, k, lookup⟩ segments).events
      = bindings config queue lookup (placedFrom k segments)
        ++ unusedEvents queue.length (k + segments.countP isPositional)
          (renderAll config ⟨queue.drop k, k, lookup⟩ segments).result := by
  induction segments generalizing k with
  | nil =>
    by_cases hk : k < queue.length
    · have hleft : (queue.drop k).isEmpty = false := by simp [hk]
      simp [renderAll, hleft, placedFrom, bindings, unusedEvents, hk]
    · have hleft : (queue.drop k).isEmpty = true := by simp [Nat.le_of_not_lt hk]
      simp [renderAll, hleft, placedFrom, bindings, unusedEvents, hk]
  | cons s rest ih =>
    cases s with
    | literal _ | percent =>
      have hrest := ih k fun h => hdigits (Rendering.result_prepend_eq_tooManyDigits h)
      rw [placedFrom, bindings_plain rfl rfl, renderAll, Rendering.events_prepend,
        Rendering.result_prepend, unusedEvents_map]
      exact hrest
    | directive d offset =>
      rw [renderAll_directive] at hdigits ⊢
      rw [placedFrom_directive, countP_directive]
      cases hfailure : failure? config queue lookup (k, .directive d offset) with
      | some e =>
        rw [bindings_failing hfailure]
        rw [failure?] at hfailure
        rw [hfailure]
        rfl
      | none =>
        rw [failure?] at hfailure
        cases htext : (d.value? queue lookup k).bind (d.render · config) with
        | none =>
          rw [hfailure, htext] at hdigits
          exact absurd rfl hdigits
        | some text =>
          rw [hfailure, htext] at hdigits
          have hrest := ih _ fun h => hdigits (Rendering.result_prepend_eq_tooManyDigits h)
          rw [bindings_bound hfailure, hfailure, Rendering.events_report, Rendering.events_prepend,
            hrest, Rendering.result_report, Rendering.result_prepend, unusedEvents_map,
            List.cons_append]

variable (config lookup) in
/-- The values without a name are bound in the order of the queue, none of them twice or left out,
and there are never more of them than the queue has. -/
theorem positions_bindings (segments : List Segment) {k : Nat} (hk : k ≤ queue.length) :
    ∃ n, (bindings config queue lookup (placedFrom k segments)).filterMap Event.position?
        = List.range' k n ∧ k + n ≤ queue.length ∧
      ((∀ p ∈ placedFrom k segments, failure? config queue lookup p = none) →
        n = segments.countP isPositional) := by
  induction segments generalizing k with
  | nil => exact ⟨0, rfl, hk, fun _ => rfl⟩
  | cons s rest ih =>
    cases s with
    | literal _ | percent =>
      obtain ⟨n, hrange, hle, hall⟩ := ih hk
      refine ⟨n, ?_, hle, fun h => hall (List.forall_mem_cons.mp h).2⟩
      rwa [placedFrom, bindings_plain rfl rfl]
    | directive d offset =>
      rw [placedFrom_directive]
      cases hfailure : failure? config queue lookup (k, .directive d offset) with
      | some e =>
        refine ⟨0, ?_, hk, fun h => ?_⟩
        · rw [bindings_failing hfailure]
          rfl
        · rw [(List.forall_mem_cons.mp h).1] at hfailure
          cases hfailure
      | none =>
        rw [bindings_bound hfailure]
        cases hname : d.name with
        | some name =>
          have hnamed : d.isNamed = true := by rw [Directive.isNamed, hname]; rfl
          obtain ⟨n, hrange, hle, hall⟩ := ih hk
          refine ⟨n, ?_, hle, fun h => ?_⟩
          · rw [if_pos hnamed, Directive.bindingEvent, hname]
            exact hrange
          · rw [if_pos hnamed] at h
            rw [hall (List.forall_mem_cons.mp h).2]
            simp [isPositional, hnamed]
        | none =>
          have hnamed : d.isNamed = false := by rw [Directive.isNamed, hname]; rfl
          have hroom : k < queue.length := by
            obtain ⟨-, v, hvalue⟩ := Directive.of_failure?_eq_none hfailure
            rw [Directive.value?, hname] at hvalue
            exact (List.getElem?_eq_some_iff.mp hvalue).1
          obtain ⟨n, hrange, hle, hall⟩ := ih hroom
          rw [hnamed, if_neg Bool.false_ne_true]
          refine ⟨n + 1, ?_, by omega, fun h => ?_⟩
          · rw [List.range'_succ, ← hrange, Directive.bindingEvent, hname]
            rfl
          · rw [hall (List.forall_mem_cons.mp h).2]
            simp [isPositional, hnamed]

end Segment

/-- With the digits it needs, formatting reports the template that it has read, then the bindings of
the directives in front of the first one that fails, and behind them what is left of the queue. It
reports nothing of a template that it cannot read. -/
theorem formatWith_events (source : String) (values : List Value) (config : Config)
    (hdigits : (formatWith source values config).result ≠ .error .tooManyDigits) :
    (∀ e, Template.parse source = .error e → (formatWith source values config).events = []) ∧
    ∀ t, Template.parse source = .ok t →
      let queue := queueOf t.hasNamed values
      let bindings := Segment.bindings config queue (lookupOf t.hasNamed values)
        (Segment.placed t.segments)
      (formatWith source values config).events
          = .parsed t.directives.length t.hasNamed :: bindings
            ++ unusedEvents queue.length t.positionalCount
              (formatWith source values config).result ∧
      (∃ n ≤ queue.length, bindings.filterMap Event.position? = List.range n) ∧
      ∀ text, (formatWith source values config).result = .ok text →
        bindings.filterMap Event.position? = List.range t.positionalCount ∧
          t.positionalCount ≤ queue.length := by
  rw [formatWith] at hdigits ⊢
  constructor
  · intro e he
    rw [he]
    rfl
  · intro t ht queue bindings
    rw [ht] at hdigits ⊢
    rw [Rendering.result_report] at hdigits ⊢
    rw [Rendering.events_report]
    have hrender : t.render values config = Segment.renderAll config
        ⟨queue.drop 0, 0, lookupOf t.hasNamed values⟩ t.segments := by
      rw [Template.render, Arguments.ofValues_eq, List.drop_zero]
    have hevents := Segment.events_renderAll t.segments 0 (hrender ▸ hdigits)
    obtain ⟨n, hrange, hle, hall⟩ := Segment.positions_bindings config
      (lookupOf t.hasNamed values) t.segments (Nat.zero_le queue.length)
    rw [← hrender, ← Segment.placed_eq_placedFrom, Nat.zero_add, ← t.positionalCount_eq] at hevents
    rw [← Segment.placed_eq_placedFrom, ← List.range_eq_range'] at hrange
    rw [← t.positionalCount_eq] at hall
    rw [Nat.zero_add] at hle
    refine ⟨congrArg _ hevents, ⟨n, hle, hrange⟩, fun text htext => ?_⟩
    have hdecided := t.decided_render values config
    rw [htext] at hdecided
    have hstop := List.findSome?_eq_none_iff.mp hdecided.of_ok.1
    obtain rfl := hall fun p hp => (Segment.of_stop?_eq_none (hstop p hp)).1
    exact ⟨hrange, hle⟩

theorem formatWith_events_left_over :
    let values : List Value := [.string "a", .object ⟨[("x", .string "b")]⟩, .null]
    (formatWith "%(x)s%s%(x)s" values {}).result ≠ .error .tooManyDigits ∧
      (formatWith "%(x)s%s%(x)s" values {}).events
        = [.parsed 3 true, .boundNamed "x", .boundPositional 0, .boundNamed "x", .leftOver 1] := by
  intro values
  have hdigits := result_formatWith_ne Config.moderate_default "%(x)s%s%(x)s" values
  have hparse : Template.parse "%(x)s%s%(x)s" = .ok ⟨"%(x)s%s%(x)s",
      [.directive ⟨{}, none, none, some "x", .text⟩ 0, .directive ⟨{}, none, none, none, .text⟩ 5,
        .directive ⟨{}, none, none, some "x", .text⟩ 7]⟩ := by decide +kernel
  have hevents := ((formatWith_events _ values {} hdigits).2 _ hparse).1
  exact ⟨hdigits, hevents.trans (by decide +kernel)⟩

end ScriptBuiltins
