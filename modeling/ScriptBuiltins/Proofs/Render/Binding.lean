import Mathlib.Data.List.Forall2
import ScriptBuiltins.Render.Rendering

/-! Which value each directive of a template is bound to, and which directive decides how a rendering
ends. -/
namespace ScriptBuiltins

/-- The values for the directives without a name. If a template has named directives, the first
object is not among them. -/
def queueOf (named : Bool) (values : List Value) : List Value :=
  if named then values.eraseP Value.isObject else values

def lookupOf (named : Bool) (values : List Value) : Option (Object Value) :=
  if named then values.findSome? Value.asObject? else none

/-- The error of a directive that fails: its width is over the limit, or else its precision, or else
it has no value. There are `k` directives without a name before it. -/
def Directive.failure? (d : Directive) (config : Config) (queue : List Value)
    (lookup : Option (Object Value)) (k offset : Nat) : Option FormatError :=
  match d.width.filter (config.maxWidth < ·), d.precision.filter (config.maxPrecision < ·) with
  | some w, _ => some (.template ⟨.widthOverLimit w config.maxWidth, offset⟩)
  | none, some p => some (.template ⟨.precisionOverLimit p config.maxPrecision, offset⟩)
  | none, none =>
    match d.name, lookup with
    | none, _ => if k < queue.length then none else some (.argument (.missingPositional k))
    | some name, none => some (.argument (.missingObject name))
    | some name, some o =>
      if o.contains name then none else some (.argument (.missingProperty name))

def Directive.value? (d : Directive) (queue : List Value) (lookup : Option (Object Value))
    (k : Nat) : Option Value :=
  match d.name with
  | none => queue[k]?
  | some name => lookup.bind (·.get? name)

def Directive.bindingEvent (d : Directive) (k : Nat) : Event :=
  match d.name with
  | none => .boundPositional k
  | some name => .boundNamed name

namespace Segment

def isPositional : Segment → Bool
  | .directive d _ => !d.isNamed
  | _ => false

/-- Each segment with the number of directives without a name before it. -/
def placed (segments : List Segment) : List (Nat × Segment) :=
  segments.zipIdx.map fun (s, i) => ((segments.take i).countP isPositional, s)

def failure? (config : Config) (queue : List Value) (lookup : Option (Object Value)) :
    Nat × Segment → Option FormatError
  | (k, .directive d offset) => d.failure? config queue lookup k offset
  | _ => none

def text? (config : Config) (queue : List Value) (lookup : Option (Object Value)) :
    Nat × Segment → Option (List Char)
  | (_, .literal text) => some text.toList
  | (_, .percent) => some ['%']
  | (k, .directive d _) => (d.value? queue lookup k).bind (d.render · config)

def stop? (config : Config) (queue : List Value) (lookup : Option (Object Value))
    (p : Nat × Segment) : Option FormatError :=
  match failure? config queue lookup p, text? config queue lookup p with
  | some e, _ => some e
  | none, none => some .tooManyDigits
  | none, some _ => none

def placedFrom (k : Nat) : List Segment → List (Nat × Segment)
  | [] => []
  | s :: ss => (k, s) :: placedFrom (if s.isPositional then k + 1 else k) ss

theorem map_zipIdx_eq_placedFrom (segments before : List Segment) :
    (segments.zipIdx before.length).map
        (fun (s, i) => (((before ++ segments).take i).countP isPositional, s))
      = placedFrom (before.countP isPositional) segments := by
  induction segments generalizing before with
  | nil => rfl
  | cons s ss ih =>
    have htail := ih (before ++ [s])
    have hcount : (before ++ [s]).countP isPositional
        = if s.isPositional then before.countP isPositional + 1 else before.countP isPositional := by
      cases hs : s.isPositional <;> simp [hs]
    rw [List.append_assoc, List.length_append] at htail
    simp only [List.zipIdx_cons, List.map_cons, placedFrom, ← hcount]
    rw [List.take_append_of_le_length (Nat.le_refl _), List.take_length]
    exact congrArg _ htail

theorem placedFrom_directive (d : Directive) (k offset : Nat) (rest : List Segment) :
    placedFrom k (.directive d offset :: rest)
      = (k, .directive d offset) :: placedFrom (if d.isNamed then k else k + 1) rest := by
  cases hnamed : d.isNamed <;> simp [placedFrom, isPositional, hnamed]

theorem placed_eq_placedFrom (segments : List Segment) : placed segments = placedFrom 0 segments :=
  map_zipIdx_eq_placedFrom segments []

end Segment

namespace Arguments

theorem splitObject_eq (values : List Value) :
    splitObject values = (values.findSome? Value.asObject?, values.eraseP Value.isObject) := by
  induction values with
  | nil => rfl
  | cons v rest ih =>
    cases v <;> simp [splitObject, ih, List.findSome?_cons, List.eraseP_cons, Value.asObject?,
      Value.isObject]

theorem ofValues_eq (values : List Value) (named : Bool) :
    ofValues values named = ⟨queueOf named values, 0, lookupOf named values⟩ := by
  cases named <;> simp [ofValues, queueOf, lookupOf, splitObject_eq]

end Arguments

theorem Config.check_eq (config : Config) (d : Directive) : config.check d =
    match d.width.filter (config.maxWidth < ·), d.precision.filter (config.maxPrecision < ·) with
    | some w, _ => .error (.widthOverLimit w config.maxWidth)
    | none, some p => .error (.precisionOverLimit p config.maxPrecision)
    | none, none => .ok () := by
  obtain ⟨flags, width, precision, name, conversion⟩ := d
  cases width with
  | none =>
    cases precision with
    | none => simp [check]
    | some p => by_cases hp : config.maxPrecision < p <;> simp [check, Option.filter, hp]
  | some w =>
    by_cases hw : config.maxWidth < w
    · simp [check, Option.filter, hw]
    · cases precision with
      | none => simp [check, Option.filter, hw]
      | some p => by_cases hp : config.maxPrecision < p <;> simp [check, Option.filter, hw, hp]

namespace Rendering

theorem result_prepend (text : List Char) (r : Rendering) :
    (r.prepend text).result = r.result.map (text ++ ·) := rfl

theorem result_report (event : Event) (r : Rendering) : (r.report event).result = r.result := rfl

end Rendering

theorem Arguments.bind_eq (queue : List Value) (lookup : Option (Object Value)) (k : Nat)
    (name : Option String) :
    (⟨queue.drop k, k, lookup⟩ : Arguments).bind name =
      match name, lookup with
      | none, _ =>
        match queue[k]? with
        | none => .error (.missingPositional k)
        | some v => .ok (v, .boundPositional k, ⟨queue.drop (k + 1), k + 1, lookup⟩)
      | some name, none => .error (.missingObject name)
      | some name, some o =>
        match o.get? name with
        | none => .error (.missingProperty name)
        | some v => .ok (v, .boundNamed name, ⟨queue.drop k, k, some o⟩) := by
  cases name with
  | none =>
    by_cases hk : k < queue.length
    · simp only [bind, List.drop_eq_getElem_cons hk, List.getElem?_eq_getElem hk]
    · have hdrop : queue.drop k = [] := List.drop_eq_nil_of_le (by omega)
      have hget : queue[k]? = none := List.getElem?_eq_none (by omega)
      simp [bind, hdrop, hget]
  | some name => cases lookup <;> rfl

namespace Segment

variable (config : Config) (queue : List Value) (lookup : Option (Object Value)) (k : Nat)

theorem renderAll_directive (d : Directive) (offset : Nat) (rest : List Segment) :
    renderAll config ⟨queue.drop k, k, lookup⟩ (.directive d offset :: rest) =
      match d.failure? config queue lookup k offset,
        (d.value? queue lookup k).bind (d.render · config) with
      | some e, _ => .failed e
      | none, none => (Rendering.failed .tooManyDigits).report (d.bindingEvent k)
      | none, some text =>
        ((renderAll config ⟨queue.drop (if d.isNamed then k else k + 1),
          if d.isNamed then k else k + 1, lookup⟩ rest).prepend text).report (d.bindingEvent k) := by
  cases hw : d.width.filter (config.maxWidth < ·) with
  | some w => simp only [renderAll, Config.check_eq, Directive.failure?, hw]
  | none =>
    cases hp : d.precision.filter (config.maxPrecision < ·) with
    | some p => simp only [renderAll, Config.check_eq, Directive.failure?, hw, hp]
    | none =>
      cases hname : d.name with
      | none =>
        simp only [renderAll, Config.check_eq, Directive.failure?, hw, hp, Arguments.bind_eq,
          Directive.isNamed, Directive.value?, Directive.bindingEvent, hname]
        by_cases hk : k < queue.length
        · simp only [List.getElem?_eq_getElem hk, hk, if_true, Option.bind_some]
          cases d.render queue[k] config <;> rfl
        · simp only [List.getElem?_eq_none (Nat.le_of_not_lt hk), hk, if_false]
      | some name =>
        cases lookup with
        | none =>
          simp only [renderAll, Config.check_eq, Directive.failure?, hw, hp, Arguments.bind_eq,
            hname]
        | some o =>
          cases hget : o.get? name with
          | none =>
            simp only [renderAll, Config.check_eq, Directive.failure?, hw, hp, Arguments.bind_eq,
              hname, Object.contains, hget]
            rfl
          | some v =>
            simp only [renderAll, Config.check_eq, Directive.failure?, hw, hp, Arguments.bind_eq,
              Directive.isNamed, Directive.value?, Directive.bindingEvent, hname, Object.contains,
              hget, Option.bind_some]
            cases d.render v config <;> rfl

theorem result_renderAll_directive (d : Directive) (offset : Nat) (rest : List Segment) :
    (renderAll config ⟨queue.drop k, k, lookup⟩ (.directive d offset :: rest)).result =
      match d.failure? config queue lookup k offset,
        (d.value? queue lookup k).bind (d.render · config) with
      | some e, _ => .error e
      | none, none => .error .tooManyDigits
      | none, some text =>
        (renderAll config ⟨queue.drop (if d.isNamed then k else k + 1),
          if d.isNamed then k else k + 1, lookup⟩ rest).result.map (text ++ ·) := by
  rw [renderAll_directive]
  cases d.failure? config queue lookup k offset with
  | some e => rfl
  | none => cases (d.value? queue lookup k).bind (d.render · config) <;> rfl

/-- A result is the one that placed segments call for: that of the first of them that stops the
rendering, or else their joined texts. -/
structure Decided (placed : List (Nat × Segment)) (result : Except FormatError (List Char)) :
    Prop where
  error : ∀ e, placed.findSome? (stop? config queue lookup) = some e → result = .error e
  ok : placed.findSome? (stop? config queue lookup) = none → ∃ texts,
    List.Forall₂ (fun p text => text? config queue lookup p = some text) placed texts ∧
    result = .ok texts.flatten

variable {config queue lookup} in
theorem Decided.cons {p : Nat × Segment} {placed : List (Nat × Segment)}
    {result : Except FormatError (List Char)} {text : List Char}
    (hstop : stop? config queue lookup p = none) (htext : text? config queue lookup p = some text)
    (h : Decided config queue lookup placed result) :
    Decided config queue lookup (p :: placed) (result.map (text ++ ·)) where
  error := by
    intro e he
    rw [List.findSome?_cons, hstop] at he
    rw [h.error e he]
    rfl
  ok := by
    intro hnone
    rw [List.findSome?_cons, hstop] at hnone
    obtain ⟨texts, htexts, rfl⟩ := h.ok hnone
    exact ⟨text :: texts, .cons htext htexts, rfl⟩

variable {config queue lookup} in
theorem Decided.of_ok {placed : List (Nat × Segment)} {text : List Char}
    (h : Decided config queue lookup placed (.ok text)) :
    placed.findSome? (stop? config queue lookup) = none ∧ ∃ texts,
      List.Forall₂ (fun p text => text? config queue lookup p = some text) placed texts ∧
      text = texts.flatten := by
  have hstop : placed.findSome? (stop? config queue lookup) = none := by
    rw [Option.eq_none_iff_forall_ne_some]
    intro e he
    cases h.error e he
  obtain ⟨texts, htexts, hok⟩ := h.ok hstop
  exact ⟨hstop, texts, htexts, Except.ok.inj hok⟩

theorem decided_stop {p : Nat × Segment} {e : FormatError} (placed : List (Nat × Segment))
    (hstop : stop? config queue lookup p = some e) :
    Decided config queue lookup (p :: placed) (.error e) where
  error := by
    intro e' he
    rw [List.findSome?_cons, hstop] at he
    rw [Option.some.inj he]
  ok := by
    intro hnone
    rw [List.findSome?_cons, hstop] at hnone
    contradiction

theorem decided_renderAll (segments : List Segment) :
    Decided config queue lookup (placedFrom k segments)
      (renderAll config ⟨queue.drop k, k, lookup⟩ segments).result := by
  induction segments generalizing k with
  | nil => exact ⟨by simp [placedFrom], fun _ => ⟨[], .nil, rfl⟩⟩
  | cons s rest ih =>
    cases s with
    | literal t => exact (ih k).cons rfl rfl
    | percent => exact (ih k).cons rfl rfl
    | directive d offset =>
      rw [result_renderAll_directive]
      cases hfailure : d.failure? config queue lookup k offset with
      | some e =>
        apply decided_stop
        simp [stop?, failure?, hfailure]
      | none =>
        cases htext : (d.value? queue lookup k).bind (d.render · config) with
        | none =>
          apply decided_stop
          simp [stop?, failure?, text?, hfailure, htext]
        | some text =>
          have hstop : stop? config queue lookup (k, .directive d offset) = none := by
            simp [stop?, failure?, text?, hfailure, htext]
          rw [placedFrom_directive]
          exact (ih _).cons hstop htext

variable {config queue lookup} in
theorem of_stop?_eq_none {p : Nat × Segment} (h : stop? config queue lookup p = none) :
    failure? config queue lookup p = none ∧ ∃ text, text? config queue lookup p = some text := by
  unfold stop? at h
  split at h
  · cases h
  · cases h
  · next text hfailure htext => exact ⟨hfailure, text, htext⟩

variable {config queue lookup} in
theorem stop?_eq_failure? {p : Nat × Segment}
    (h : stop? config queue lookup p ≠ some .tooManyDigits) :
    stop? config queue lookup p = failure? config queue lookup p := by
  unfold stop? at h ⊢
  cases hfailure : failure? config queue lookup p with
  | some e => rfl
  | none =>
    cases htext : text? config queue lookup p with
    | some text => rfl
    | none => simp [hfailure, htext] at h

variable {config queue lookup} in
theorem findSome?_stop?_eq {placed : List (Nat × Segment)}
    (h : placed.findSome? (stop? config queue lookup) ≠ some .tooManyDigits) :
    placed.findSome? (stop? config queue lookup)
      = placed.findSome? (failure? config queue lookup) := by
  induction placed with
  | nil => rfl
  | cons p placed ih =>
    have hp : stop? config queue lookup p ≠ some .tooManyDigits := by
      intro hstop
      exact h (by simp [hstop])
    have heq := stop?_eq_failure? hp
    rw [List.findSome?_cons] at h
    rw [List.findSome?_cons, List.findSome?_cons, ← heq]
    cases hstop : stop? config queue lookup p with
    | some e => rfl
    | none =>
      rw [hstop] at h
      exact ih h

end Segment

/-- A rendering whose digits do not run out ends with the error of the leftmost directive that fails.
If none fails its text is joined from the texts of its segments. -/
theorem Template.render_decided (t : Template) (values : List Value) (config : Config)
    (hdigits : (t.render values config).result ≠ .error .tooManyDigits) :
    let queue := queueOf t.hasNamed values
    let lookup := lookupOf t.hasNamed values
    ((∃ text, (t.render values config).result = .ok text) ↔
      ∀ p ∈ Segment.placed t.segments, Segment.failure? config queue lookup p = none) ∧
    (∀ text, (t.render values config).result = .ok text → ∃ texts,
      List.Forall₂ (fun p text => Segment.text? config queue lookup p = some text)
        (Segment.placed t.segments) texts ∧ text = texts.flatten) ∧
    ∀ e, (t.render values config).result = .error e ↔
      (Segment.placed t.segments).findSome? (Segment.failure? config queue lookup) = some e := by
  intro queue lookup
  have hdecided := Segment.decided_renderAll config queue lookup 0 t.segments
  rw [← Segment.placed_eq_placedFrom] at hdecided
  have hresult : (Segment.renderAll config ⟨queue.drop 0, 0, lookup⟩ t.segments).result
      = (t.render values config).result := by
    rw [Template.render, Arguments.ofValues_eq, List.drop_zero]
  rw [hresult] at hdecided
  have hstop := Segment.findSome?_stop?_eq fun h => hdigits (hdecided.error _ h)
  rw [← List.findSome?_eq_none_iff, ← hstop]
  cases hfirst : (Segment.placed t.segments).findSome? (Segment.stop? config queue lookup) with
  | some e =>
    rw [hdecided.error e hfirst]
    simp
  | none =>
    obtain ⟨texts, htexts, hok⟩ := hdecided.ok hfirst
    rw [hok]
    refine ⟨by simp, ?_, by simp⟩
    intro text htext
    exact ⟨texts, htexts, (Except.ok.inj htext).symm⟩

/-- `%s,%(x)s,%s` with one text and one object: the name takes the object out of the queue, and the
last directive finds nothing. -/
theorem render_decided_exhausted :
    let t : Template := ⟨"%s,%(x)s,%s", [.directive ⟨{}, none, none, none, .text⟩ 0, .literal ",",
      .directive ⟨{}, none, none, some "x", .text⟩ 3, .literal ",",
      .directive ⟨{}, none, none, none, .text⟩ 9]⟩
    let values : List Value := [.object ⟨[("x", .string "b")]⟩, .string "a"]
    (t.render values {}).result ≠ .error .tooManyDigits ∧
      (t.render values {}).result = .error (.argument (.missingPositional 1)) := by
  intro t values
  have hdigits : (t.render values {}).result ≠ .error .tooManyDigits := by decide
  exact ⟨hdigits, ((Template.render_decided t values {} hdigits).2.2 _).mpr (by decide)⟩

end ScriptBuiltins
