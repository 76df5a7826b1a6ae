import ScriptBuiltins.Proofs.Number.Nearest
import ScriptBuiltins.Proofs.Value.Equality
import ScriptBuiltins.Render.Conversion

/-! Equal values look the same as texts, as JSON and under integer conversions. They may differ in
the sign of a zero only, and none of these shows it. -/
namespace ScriptBuiltins

namespace Number

/-! ### Zeros -/

variable {negative : Bool} {rank : Fin rankLimit} (h : rank.val = 0)
include h

theorem toText_zero : (finite negative rank).toText = ['0'] := if_pos h

theorem toJson_zero : (finite negative rank).toJson = ['0'] := by
  rw [toJson, h, units_zero, Nat.zero_div, Nat.zero_mod, if_pos ⟨rfl, Nat.zero_le _⟩,
    bne_self_eq_false, Bool.and_false]
  rfl

theorem toWord_zero : (finite negative rank).toWord = 0 := by
  rw [toWord, integerPart?, h, units_zero, Nat.zero_div]
  cases negative <;> rfl

end Number

namespace Number

variable {x y : Number} (h : x.equals y)
include h

theorem toText_of_equals : x.toText = y.toText := by
  obtain rfl | ⟨a, b, rank, hrank, rfl, rfl⟩ := eq_or_zeros_of_equals h
  · rfl
  · rw [toText_zero hrank, toText_zero hrank]

theorem toJson_of_equals : x.toJson = y.toJson := by
  obtain rfl | ⟨a, b, rank, hrank, rfl, rfl⟩ := eq_or_zeros_of_equals h
  · rfl
  · rw [toJson_zero hrank, toJson_zero hrank]

theorem toWord_of_equals : x.toWord = y.toWord := by
  obtain rfl | ⟨a, b, rank, hrank, rfl, rfl⟩ := eq_or_zeros_of_equals h
  · rfl
  · rw [toWord_zero hrank, toWord_zero hrank]

end Number

namespace Value

/-! ### Values -/

theorem map_eq_map_of_forall₂ {α β : Type} {f : α → β} {as bs : List α}
    (h : List.Forall₂ (fun a b => f a = f b) as bs) : as.map f = bs.map f := by
  induction h with
  | nil => rfl
  | cons hfirst _ ih => rw [List.map_cons, List.map_cons, hfirst, ih]

theorem toJson_of_equals {a b : Value} (h : a.equals b) : a.toJson = b.toJson := by
  induction a using nestedInduction generalizing b with
  | number x =>
    obtain ⟨y, rfl, hnumber⟩ := (equals_iff _ _).mp h
    exact Number.toJson_of_equals hnumber
  | array items ih =>
    obtain ⟨others, rfl, hitems⟩ := (equals_iff _ _).mp h
    have hsame : items.map toJson = others.map toJson := by
      apply map_eq_map_of_forall₂
      exact ((List.forall₂_and_left _ _).mpr ⟨ih, hitems⟩).imp fun _ _ h => h.1 h.2
    rw [toJson, toJson, itemsJson_eq_map, itemsJson_eq_map, hsame]
  | object entries ih =>
    obtain ⟨⟨others⟩, rfl, hentries⟩ := (equals_iff _ _).mp h
    have hsame : entriesJson entries = entriesJson others := by
      rw [entriesJson_eq_map, entriesJson_eq_map]
      apply map_eq_map_of_forall₂
      refine ((List.forall₂_and_left _ _).mpr ⟨ih, hentries⟩).imp ?_
      rintro a b ⟨hvalue, hkey, hequal⟩
      rw [hkey, hvalue hequal]
    rw [toJson, toJson, hsame]
  | null | bool _ | string _ | bytes _ | custom _ =>
    obtain rfl := (equals_iff _ _).mp h
    rfl

/-- Equal values are equal numbers, or they have the same number side and the same text side. -/
theorem sides_of_equals {a b : Value} (h : a.equals b) :
    (∃ x y, a = .number x ∧ b = .number y ∧ x.equals y) ∨
      a.asNumber? = b.asNumber? ∧ a.asText? = b.asText? := by
  have hjson := toJson_of_equals h
  cases a with
  | number x =>
    obtain ⟨y, rfl, hnumber⟩ := (equals_iff _ _).mp h
    exact .inl ⟨x, y, rfl, rfl, hnumber⟩
  | array items =>
    obtain ⟨others, rfl, -⟩ := (equals_iff _ _).mp h
    exact .inr ⟨rfl, congrArg some hjson⟩
  | object o =>
    obtain ⟨other, rfl, -⟩ := (equals_iff _ _).mp h
    exact .inr ⟨rfl, congrArg some hjson⟩
  | null | bool _ | string _ | bytes _ | custom _ =>
    obtain rfl := (equals_iff _ _).mp h
    exact .inr ⟨rfl, rfl⟩

theorem toText_of_equals {a b : Value} (h : a.equals b) : a.toText = b.toText := by
  obtain ⟨x, y, rfl, rfl, hnumber⟩ | ⟨hnumber, htext⟩ := sides_of_equals h
  · exact Number.toText_of_equals hnumber
  · rw [toText, toText, hnumber, htext]

theorem toWord_toNumber_of_equals {a b : Value} (h : a.equals b) :
    a.toNumber.toWord = b.toNumber.toWord := by
  obtain ⟨x, y, rfl, rfl, hnumber⟩ | ⟨hnumber, htext⟩ := sides_of_equals h
  · exact Number.toWord_of_equals hnumber
  · rw [toNumber, toNumber, hnumber, htext]

end Value

/-! ### Directives -/

namespace Directive

variable {d : Directive}

theorem signedField_congr {x y : Number} (h : x.toWord = y.toWord) :
    signedField d x = signedField d y := by
  rw [signedField, signedField, h]

theorem octalField_congr {x y : Number} (h : x.toWord = y.toWord) :
    octalField d x = octalField d y := by
  rw [octalField, octalField, h]

theorem hexField_congr {x y : Number} (h : x.toWord = y.toWord) (letters : LetterCase) :
    hexField d letters x = hexField d letters y := by
  rw [hexField, hexField, h]

theorem exists_field_of_equals {a b : Value} (h : a.equals b)
    (hconversion : d.conversion.isFloat = false) (config : Config) :
    ∃ f, d.field a config = some f ∧ d.field b config = some f := by
  have hword := Value.toWord_toNumber_of_equals h
  unfold field
  cases hc : d.conversion with
  | fixed letters | exponent letters | general letters =>
    rw [hc] at hconversion
    cases hconversion
  | text => exact ⟨_, rfl, by rw [Value.toText_of_equals h]⟩
  | json => exact ⟨_, rfl, by rw [Value.toJson_of_equals h]⟩
  | decimal | integer => exact ⟨_, rfl, congrArg some (signedField_congr hword).symm⟩
  | octal => exact ⟨_, rfl, congrArg some (octalField_congr hword).symm⟩
  | hex letters => exact ⟨_, rfl, congrArg some (hexField_congr hword letters).symm⟩

end Directive

/-- Equal values have the same text and the same JSON, and all conversions but those to floats show
them in the same way. -/
theorem Value.indistinguishable {a b : Value} (h : a.equals b) :
    a.toText = b.toText ∧ a.toJson = b.toJson ∧
    ∀ (d : Directive) (config : Config), d.conversion.isFloat = false →
      ∃ text, d.render a config = some text ∧ d.render b config = some text := by
  refine ⟨toText_of_equals h, toJson_of_equals h, fun d config hconversion => ?_⟩
  obtain ⟨f, ha, hb⟩ := Directive.exists_field_of_equals h hconversion config
  exact ⟨f.pad d.flags (d.width.getD 0), by rw [Directive.render, ha]; rfl,
    by rw [Directive.render, hb]; rfl⟩

theorem Value.indistinguishable_zeros :
    let nested (negative : Bool) : Value :=
      .object ⟨[("k", .array [.string "x", .number (.finite negative ⟨0, by decide⟩)])]⟩
    let d : Directive := ⟨{}, some 14, none, none, .json⟩
    (nested true).equals (nested false) ∧ (nested true).toText = (nested false).toText ∧
      d.conversion.isFloat = false ∧
      d.render (nested true) {} = some " \x7b\"k\":[\"x\",0]\x7d".toList ∧
      d.render (nested false) {} = some " \x7b\"k\":[\"x\",0]\x7d".toList := by
  intro nested d
  have hequal : (nested true).equals (nested false) := by decide
  obtain ⟨htext, -, hrender⟩ := indistinguishable hequal
  obtain ⟨text, htrue, hfalse⟩ := hrender d {} rfl
  have hshown : d.render (nested true) {} = some " \x7b\"k\":[\"x\",0]\x7d".toList := by
    decide +kernel
  exact ⟨hequal, htext, rfl, hshown, by rw [hfalse, ← htrue, hshown]⟩

/-- A float conversion tells the two zeros apart. -/
example :
    let d : Directive := ⟨{}, none, some 0, none, .fixed .lower⟩
    d.render (.number (.finite true ⟨0, by decide⟩)) {} = some "-0".toList ∧
      d.render (.number (.finite false ⟨0, by decide⟩)) {} = some "0".toList := by
  decide +kernel

end ScriptBuiltins
