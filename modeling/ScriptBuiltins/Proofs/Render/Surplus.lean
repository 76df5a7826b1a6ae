import ScriptBuiltins.Proofs.Render.Precision

/-! Renderings with other arguments than before: what more arguments add at the end changes no
rendering that succeeds, and the lookup object may stand anywhere in front of the next object. -/
namespace ScriptBuiltins

/-! ### More values to bind -/

variable {queue wider : List Value} {lookup other : Option (Object Value)}

/-- A queue goes on where another one ends, and has a lookup object if the other one has. -/
structure Widens (queue wider : List Value) (lookup other : Option (Object Value)) : Prop where
  queue : queue <+: wider
  lookup : ∀ o, lookup = some o → other = some o

theorem queueOf_isPrefix (named : Bool) (values more : List Value) :
    queueOf named values <+: queueOf named (values ++ more) := by
  cases named with
  | false => exact List.prefix_append values more
  | true =>
    simp only [queueOf, if_true, List.eraseP_append]
    split
    · exact List.prefix_append _ _
    · next hnone =>
      have herase : values.eraseP Value.isObject = values := by
        apply List.eraseP_of_forall_not
        intro v hv hobject
        exact hnone (List.any_eq_true.mpr ⟨v, hv, hobject⟩)
      rw [herase]
      exact List.prefix_append _ _

theorem lookupOf_append {named : Bool} {values : List Value} {o : Object Value}
    (h : lookupOf named values = some o) (more : List Value) :
    lookupOf named (values ++ more) = some o := by
  cases named with
  | false => cases h
  | true =>
    have hfirst : values.findSome? Value.asObject? = some o := h
    simp [lookupOf, List.findSome?_append, hfirst]

theorem widens_append (named : Bool) (values more : List Value) :
    Widens (queueOf named values) (queueOf named (values ++ more)) (lookupOf named values)
      (lookupOf named (values ++ more)) where
  queue := queueOf_isPrefix named values more
  lookup := fun _ h => lookupOf_append h more

theorem Directive.failure?_of_value? {d : Directive} {config : Config} {k : Nat} {v : Value}
    (hcheck : config.check d = .ok ()) (hvalue : d.value? queue lookup k = some v) (offset : Nat) :
    d.failure? config queue lookup k offset = none := by
  rw [Config.check_eq] at hcheck
  unfold failure?
  unfold value? at hvalue
  split at hcheck
  · cases hcheck
  · cases hcheck
  · cases hname : d.name with
    | none =>
      rw [hname] at hvalue
      exact if_pos (List.getElem?_eq_some_iff.mp hvalue).1
    | some name =>
      rw [hname] at hvalue
      obtain ⟨o, rfl, hget⟩ := Option.bind_eq_some_iff.mp hvalue
      simp [Object.contains, hget]

namespace Widens

variable (h : Widens queue wider lookup other) {config : Config}
include h

theorem value?_eq_some {d : Directive} {k : Nat} {v : Value}
    (hvalue : d.value? queue lookup k = some v) : d.value? wider other k = some v := by
  unfold Directive.value? at hvalue ⊢
  cases hname : d.name with
  | none =>
    rw [hname] at hvalue
    obtain ⟨hk, -⟩ := List.getElem?_eq_some_iff.mp hvalue
    obtain ⟨rest, rfl⟩ := h.queue
    exact (List.getElem?_append_left hk).trans hvalue
  | some name =>
    rw [hname] at hvalue
    obtain ⟨o, ho, hget⟩ := Option.bind_eq_some_iff.mp hvalue
    exact Option.bind_eq_some_iff.mpr ⟨o, h.lookup o ho, hget⟩

theorem failure?_eq_none {p : Nat × Segment}
    (hfailure : Segment.failure? config queue lookup p = none) :
    Segment.failure? config wider other p = none := by
  obtain ⟨k, s⟩ := p
  cases s with
  | literal text => rfl
  | percent => rfl
  | directive d offset =>
    obtain ⟨hcheck, v, hvalue⟩ := Directive.of_failure?_eq_none hfailure
    exact Directive.failure?_of_value? hcheck (h.value?_eq_some hvalue) offset

theorem text?_eq_some {p : Nat × Segment} {text : List Char}
    (htext : Segment.text? config queue lookup p = some text) :
    Segment.text? config wider other p = some text := by
  obtain ⟨k, s⟩ := p
  cases s with
  | literal t => exact htext
  | percent => exact htext
  | directive d offset =>
    obtain ⟨v, hvalue, hrender⟩ := Option.bind_eq_some_iff.mp htext
    exact Option.bind_eq_some_iff.mpr ⟨v, h.value?_eq_some hvalue, hrender⟩

theorem stop?_eq_none {p : Nat × Segment} (hstop : Segment.stop? config queue lookup p = none) :
    Segment.stop? config wider other p = none := by
  obtain ⟨hfailure, text, htext⟩ := Segment.of_stop?_eq_none hstop
  rw [Segment.stop?, h.failure?_eq_none hfailure, h.text?_eq_some htext]

theorem decided_ok {placed : List (Nat × Segment)} {text : List Char}
    {result : Except FormatError (List Char)}
    (hfew : Segment.Decided config queue lookup placed (.ok text))
    (hmore : Segment.Decided config wider other placed result) : result = .ok text := by
  obtain ⟨hstop, texts, htexts, rfl⟩ := hfew.of_ok
  obtain ⟨others, hothers, rfl⟩ := hmore.ok <| List.findSome?_eq_none_iff.mpr fun p hp =>
    h.stop?_eq_none (List.findSome?_eq_none_iff.mp hstop p hp)
  have hsame : others = texts := by
    refine List.right_unique_forall₂' ?_ hothers (htexts.imp fun _ _ => h.text?_eq_some)
    intro p a b ha hb
    exact Option.some.inj (ha.symm.trans hb)
  rw [hsame]

end Widens

/-! ### The place of the lookup object -/

theorem Arguments.ofValues_first {before : List Value} (hbefore : ∀ v ∈ before, v.isObject = false)
    (o : Object Value) (after : List Value) :
    ofValues (before ++ .object o :: after) true = ⟨before ++ after, 0, some o⟩ := by
  have hnone : ∀ v ∈ before, v.asObject? = none := by
    intro v hv
    have hv' := hbefore v hv
    rwa [Value.isObject, Option.isSome_eq_false_iff, Option.isNone_iff_eq_none] at hv'
  have hqueue : queueOf true (before ++ .object o :: after) = before ++ after := by
    rw [queueOf, if_pos rfl, List.eraseP_append_right _ (by simpa using hbefore),
      List.eraseP_cons_of_pos rfl]
  have hlookup : lookupOf true (before ++ .object o :: after) = some o := by
    rw [lookupOf, if_pos rfl, List.findSome?_append, List.findSome?_eq_none_iff.mpr hnone,
      Option.none_or]
    rfl
  rw [ofValues_eq, hqueue, hlookup]

namespace Template

/-- A text stays the same with more arguments behind those it was rendered from, objects among them
or not. With named directives, a rendering is the same whether the first object stands behind other
arguments or at their front. -/
theorem render_surplus (t : Template) (config : Config) :
    (∀ (values more : List Value) (text : List Char),
      (t.render values config).result = .ok text →
        (t.render (values ++ more) config).result = .ok text) ∧
    (t.hasNamed → ∀ (o : Object Value) (before after : List Value),
      (∀ v ∈ before, v.isObject = false) →
        t.render (before ++ .object o :: after) config
          = t.render (.object o :: (before ++ after)) config) := by
  constructor
  · intro values more text htext
    have hfew := t.decided_render values config
    rw [htext] at hfew
    exact (widens_append t.hasNamed values more).decided_ok hfew
      (t.decided_render (values ++ more) config)
  · intro hnamed o before after hbefore
    have hfront := Arguments.ofValues_first (List.forall_mem_nil _) o (before ++ after)
    rw [render, render, hnamed, Arguments.ofValues_first hbefore o after]
    exact congrArg (Segment.renderAll config · t.segments) hfront.symm

/-- `%(x)s,%s` takes `x` from the first of two objects, wherever the text is, and never from a third
one behind them. -/
theorem render_surplus_objects :
    let t : Template := ⟨"%(x)s,%s", [.directive ⟨{}, none, none, some "x", .text⟩ 0, .literal ",",
      .directive ⟨{}, none, none, none, .text⟩ 6]⟩
    let first : Object Value := ⟨[("x", .string "b")]⟩
    let second : Object Value := ⟨[("x", .string "c")]⟩
    (t.render [.string "a", .object first] {}).result = .ok "b,a".toList ∧
      (t.render ([.string "a", .object first] ++ [.object second]) {}).result
        = .ok "b,a".toList ∧
      t.hasNamed ∧ (∀ v ∈ [Value.string "a"], v.isObject = false) ∧
      t.render ([.string "a"] ++ .object first :: [.object second]) {}
        = t.render (.object first :: ([.string "a"] ++ [.object second])) {} := by
  intro t first second
  have htext : (t.render [.string "a", .object first] {}).result = .ok "b,a".toList := by decide
  have hnamed : t.hasNamed := by decide
  have hbefore : ∀ v ∈ [Value.string "a"], v.isObject = false :=
    List.forall_mem_singleton.mpr rfl
  obtain ⟨hmore, hplace⟩ := render_surplus t {}
  exact ⟨htext, hmore _ _ _ htext, hnamed, hbefore, hplace hnamed first _ _ hbefore⟩

end Template
end ScriptBuiltins
