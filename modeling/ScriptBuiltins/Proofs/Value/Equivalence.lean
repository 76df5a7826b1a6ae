import ScriptBuiltins.Proofs.Value.Equality

/-! Equality of values goes both ways and from value to value, but a value need not be equal to
itself. It is not exactly when a NaN stands in it, at whatever depth. -/
namespace ScriptBuiltins

theorem Number.equals_trans {x y z : Number} (h : x.equals y) (h' : y.equals z) : x.equals z := by
  obtain rfl | ⟨a, b, rank, hrank, rfl, rfl⟩ := eq_or_zeros_of_equals h
  · exact h'
  · obtain rfl | ⟨b, c, rank, _, heq, rfl⟩ := eq_or_zeros_of_equals h'
    · exact h
    · cases heq
      simp [equals, hrank]

namespace Value

theorem forall₂_trans_of_mem {α : Type} {R : α → α → Prop} {as bs cs : List α}
    (htrans : ∀ a ∈ as, ∀ b c, R a b → R b c → R a c) (h : List.Forall₂ R as bs)
    (h' : List.Forall₂ R bs cs) : List.Forall₂ R as cs := by
  induction h generalizing cs with
  | nil => exact h'
  | cons hfirst _ ih =>
    obtain ⟨c, cs, hfirst', hrest', rfl⟩ := List.forall₂_cons_left_iff.mp h'
    exact .cons (htrans _ List.mem_cons_self _ _ hfirst hfirst')
      (ih (fun a ha => htrans a (List.mem_cons_of_mem _ ha)) hrest')

theorem equals_symm {a b : Value} (h : a.equals b) : b.equals a := by
  induction a using nestedInduction generalizing b with
  | number x =>
    obtain ⟨y, rfl, hnumber⟩ := (equals_iff _ _).mp h
    exact (Number.equals_comm y x).trans hnumber
  | array items ih =>
    obtain ⟨others, rfl, hitems⟩ := (equals_iff _ _).mp h
    refine (equals_iff _ _).mpr ⟨items, rfl, .flip ?_⟩
    exact ((List.forall₂_and_left _ _).mpr ⟨ih, hitems⟩).imp fun _ _ h => h.1 h.2
  | object entries ih =>
    obtain ⟨others, rfl, hentries⟩ := (equals_iff _ _).mp h
    refine (equals_iff _ _).mpr ⟨⟨entries⟩, rfl, .flip ?_⟩
    refine ((List.forall₂_and_left _ _).mpr ⟨ih, hentries⟩).imp ?_
    rintro a b ⟨hsymm, hkey, hvalue⟩
    exact ⟨hkey.symm, hsymm hvalue⟩
  | null | bool _ | string _ | bytes _ | custom _ =>
    obtain rfl := (equals_iff _ _).mp h
    exact h

theorem equals_trans {a b c : Value} (h : a.equals b) (h' : b.equals c) : a.equals c := by
  induction a using nestedInduction generalizing b c with
  | number x =>
    obtain ⟨y, rfl, hnumber⟩ := (equals_iff _ _).mp h
    obtain ⟨z, rfl, hnumber'⟩ := (equals_iff _ _).mp h'
    exact Number.equals_trans hnumber hnumber'
  | array items ih =>
    obtain ⟨others, rfl, hitems⟩ := (equals_iff _ _).mp h
    obtain ⟨last, rfl, hitems'⟩ := (equals_iff _ _).mp h'
    refine (equals_iff _ _).mpr ⟨last, rfl, forall₂_trans_of_mem ?_ hitems hitems'⟩
    exact fun v hv b c => ih v hv
  | object entries ih =>
    obtain ⟨others, rfl, hentries⟩ := (equals_iff _ _).mp h
    obtain ⟨last, rfl, hentries'⟩ := (equals_iff _ _).mp h'
    refine (equals_iff _ _).mpr ⟨last, rfl, forall₂_trans_of_mem ?_ hentries hentries'⟩
    rintro entry hentry b c ⟨hkey, hvalue⟩ ⟨hkey', hvalue'⟩
    exact ⟨hkey.trans hkey', ih entry hentry hvalue hvalue'⟩
  | null | bool _ | string _ | bytes _ | custom _ =>
    obtain rfl := (equals_iff _ _).mp h
    exact h'

/-- A value stands in itself, and what stands in an item or under a key stands in the array or in
the object. -/
inductive Occurs (v : Value) : Value → Prop where
  | self : Occurs v v
  | item {items : List Value} {w : Value} (hw : w ∈ items) (h : Occurs v w) :
    Occurs v (.array items)
  | entry {o : Object Value} {entry : String × Value} (hentry : entry ∈ o.entries)
      (h : Occurs v entry.2) : Occurs v (.object o)

theorem equals_self_iff (v : Value) : v.equals v ↔ ¬ Occurs (.number .nan) v := by
  induction v using nestedInduction with
  | number x =>
    rw [equals, Number.equals_self, Bool.not_eq_true']
    constructor
    · rintro hnan (_ | _ | _)
      cases hnan
    · intro hnone
      cases x with
      | nan => exact absurd .self hnone
      | infinite | finite => rfl
  | array items ih =>
    rw [equals, equalItems_iff, List.forall₂_same]
    constructor
    · rintro hall (_ | ⟨hw, hoccurs⟩ | _)
      exact (ih _ hw).mp (hall _ hw) hoccurs
    · exact fun hnone v hv => (ih v hv).mpr fun hoccurs => hnone (.item hv hoccurs)
  | object entries ih =>
    rw [equals, equalEntries_iff, List.forall₂_same]
    constructor
    · rintro hall (_ | _ | ⟨hentry, hoccurs⟩)
      exact (ih _ hentry).mp (hall _ hentry).2 hoccurs
    · refine fun hnone entry hentry => ⟨rfl, (ih entry hentry).mpr fun hoccurs => ?_⟩
      exact hnone (.entry hentry hoccurs)
  | null | bool _ | string _ | bytes _ | custom _ =>
    refine iff_of_true (by simp [equals]) ?_
    rintro (_ | _ | _)

/-- Equality of values is symmetric and transitive, and nothing but a NaN somewhere in it keeps a
value from being equal to itself. The number of a custom value does not count: such a value is equal
to itself and to no other. -/
theorem partial_equivalence (a b c : Value) :
    (a.equals b → b.equals a) ∧
    (a.equals b → b.equals c → a.equals c) ∧
    (a.equals a ↔ ¬ Occurs (.number .nan) a) ∧
    ∀ x y : Custom, (custom x).equals (.custom y) ↔ x = y :=
  ⟨equals_symm, equals_trans, equals_self_iff a, fun x y => by simp [equals]⟩

/-- Three arrays that differ in the signs of zeros, with a custom NaN, which is not a NaN that
stands in them, and an array in which one stands. -/
theorem partial_equivalence_zeros :
    let nested (first second : Bool) : Value := .array [.custom ⟨7, some .nan, none⟩,
      .object ⟨[("x", .number (.finite first ⟨0, by decide⟩)),
        ("y", .array [.number (.finite second ⟨0, by decide⟩)])]⟩]
    let a := nested true true
    let b := nested false true
    let c := nested false false
    let d : Value := .array [a, .object ⟨[("z", .number .nan)]⟩]
    (a.equals b ∧ b.equals c) ∧ b.equals a ∧ a.equals c ∧ ¬ Occurs (.number .nan) a ∧
      Occurs (.number .nan) d ∧ ¬ d.equals d := by
  intro nested a b c d
  have hfirst : a.equals b := by decide
  have hlast : b.equals c := by decide
  have hnan : Occurs (.number .nan) d := .item (.tail _ (.head _)) (.entry (.head _) .self)
  obtain ⟨hsymm, htrans, hself, -⟩ := partial_equivalence a b c
  obtain ⟨-, -, hself', -⟩ := partial_equivalence d d d
  exact ⟨⟨hfirst, hlast⟩, hsymm hfirst, htrans hfirst hlast, hself.mp (by decide), hnan,
    fun hequal => hself'.mp hequal hnan⟩

end Value
end ScriptBuiltins
