import ScriptBuiltins.Proofs.Json.Grammar
import ScriptBuiltins.Text.Quoted

/-!
The characters that numbers and strings are written with. No control is among them, and an escaped
text is a string of the grammar.
-/
namespace ScriptBuiltins

/-- No character is a control below the space. -/
def Printed (text : List Char) : Prop := ∀ c ∈ text, 0x20 ≤ c.toNat

instance (text : List Char) : Decidable (Printed text) := List.decidableBAll _ text

theorem Printed.append {as bs : List Char} (ha : Printed as) (hb : Printed bs) :
    Printed (as ++ bs) :=
  List.forall_mem_append.mpr ⟨ha, hb⟩

theorem Printed.cons {c : Char} {cs : List Char} (hc : 0x20 ≤ c.toNat) (hcs : Printed cs) :
    Printed (c :: cs) :=
  List.forall_mem_cons.mpr ⟨hc, hcs⟩

namespace Json

/-- The characters between that of the plus sign and the letter of an exponent. -/
def IsNumeral (text : List Char) : Prop := ∀ c ∈ text, 0x2B ≤ c.toNat ∧ c.toNat ≤ 0x65

theorem isNumeral_of_isDigits {ds : List Char} (h : ∀ c ∈ ds, c.isDigit) : IsNumeral ds := by
  intro c hc
  have hdigit := Char.isDigit_iff_toNat.mp (h c hc)
  have : '0'.toNat = 0x30 := rfl
  have : '9'.toNat = 0x39 := rfl
  omega

theorem isNumeral_nil : IsNumeral [] := by
  intro c hc
  contradiction

theorem IsNumeral.append {as bs : List Char} (ha : IsNumeral as) (hb : IsNumeral bs) :
    IsNumeral (as ++ bs) :=
  List.forall_mem_append.mpr ⟨ha, hb⟩

theorem IsNumeral.cons {c : Char} {cs : List Char} (hc : 0x2B ≤ c.toNat ∧ c.toNat ≤ 0x65)
    (hcs : IsNumeral cs) : IsNumeral (c :: cs) :=
  List.forall_mem_cons.mpr ⟨hc, hcs⟩

theorem IsWhole.isNumeral {ds : List Char} (h : IsWhole ds) : IsNumeral ds := by
  obtain rfl | h := h
  · exact .cons (by decide) isNumeral_nil
  · exact isNumeral_of_isDigits h.isDigit

theorem FractionText.isNumeral {fraction point : List Char} (h : FractionText fraction point) :
    IsNumeral point := by
  cases h with
  | none => exact isNumeral_nil
  | some h => exact .cons (by decide) (isNumeral_of_isDigits h.2)

theorem SignText.isNumeral {below : Bool} {sign : List Char} (h : SignText below sign) :
    IsNumeral sign := by
  cases h with
  | none => exact isNumeral_nil
  | plus => exact .cons (by decide) isNumeral_nil
  | minus => exact .cons (by decide) isNumeral_nil

theorem ExponentText.isNumeral {exponent : Option Int} {power : List Char}
    (h : ExponentText exponent power) : IsNumeral power := by
  cases h with
  | none => exact isNumeral_nil
  | some he hsign hds =>
    refine .cons ?_ (hsign.isNumeral.append (isNumeral_of_isDigits hds.2))
    obtain rfl | rfl := he <;> decide

theorem NumberText.isNumeral {l : DecimalLiteral} {text : List Char} (h : NumberText l text) :
    IsNumeral text := by
  cases h with
  | mk negative hwhole hfraction hexponent =>
    have hbody := (hwhole.isNumeral.append hfraction.isNumeral).append hexponent.isNumeral
    cases negative with
    | false => exact hbody
    | true => exact .cons (by decide) hbody

theorem IsNumeral.printed {text : List Char} (h : IsNumeral text) : Printed text := by
  intro c hc
  have := h c hc
  omega

theorem IsNumeral.not_blank {text : List Char} (h : IsNumeral text) :
    ∀ c ∈ text, isBlank c = false := by
  intro c hc
  have := h c hc
  simp only [isBlank, Bool.or_eq_false_iff, Bool.and_eq_false_iff, decide_eq_false_iff_not,
    beq_eq_false_iff_ne]
  omega

theorem le_of_digitValue? {c : Char} {d : Nat} (h : digitValue? c = some d) : 0x30 ≤ c.toNat := by
  unfold digitValue? at h
  split at h
  · next hdigit => exact (Char.isDigit_iff_toNat.mp hdigit).1
  · split at h
    · next hlower => exact Nat.le_trans (by decide) (Char.le_def.mp hlower.1)
    · split at h
      · next hupper => exact Nat.le_trans (by decide) (Char.le_def.mp hupper.1)
      · contradiction

theorem printed_of_readDigits? {base value n : Nat} {ds : List Char}
    (h : readDigits? base ds value = some n) : Printed ds := by
  induction ds generalizing value with
  | nil =>
    intro c hc
    contradiction
  | cons c ds ih =>
    simp only [readDigits?] at h
    cases hdigit : digitValue? c with
    | none => simp [hdigit] at h
    | some d =>
      simp only [hdigit] at h
      split at h
      · exact .cons (Nat.le_trans (by decide) (le_of_digitValue? hdigit)) (ih h)
      · contradiction

theorem printed_shortEscape {mark c : Char} (h : shortEscape? mark = some c) :
    0x20 ≤ mark.toNat := by
  unfold shortEscape? at h
  split at h
  case h_9 => contradiction
  all_goals decide

theorem CharText.printed {c : Char} {text : List Char} (h : CharText c text) : Printed text := by
  have hslash : 0x20 ≤ '\\'.toNat := by decide
  have hu : 0x20 ≤ 'u'.toNat := by decide
  cases h with
  | plain hlow => simpa [Printed] using hlow
  | short h => simpa [Printed] using printed_shortEscape h
  | code h => exact .cons hslash (.cons hu (printed_of_readDigits? h))
  | pair h _ h' =>
    have hlow := Printed.cons hslash (.cons hu (printed_of_readDigits? h'))
    exact .cons hslash (.cons hu ((printed_of_readDigits? h).append hlow))

theorem CharsText.printed {cs text : List Char} (h : CharsText cs text) : Printed text := by
  induction h with
  | nil =>
    intro c hc
    contradiction
  | cons h hrest ih => exact h.printed.append ih

theorem StringText.printed {s : String} {text : List Char} (h : StringText s text) :
    Printed text := by
  cases h with
  | mk h => exact .cons (by decide) (h.printed.append (by decide))

theorem hexDigits_control : ∀ n < 0x20,
    hexDigits 4 n = ['0', '0', Nat.digitChar (n / 16), Nat.digitChar (n % 16)] ∧
      codeUnit? ['0', '0', Nat.digitChar (n / 16), Nat.digitChar (n % 16)] = some n := by
  decide

theorem charText_jsonEscape (c : Char) : CharText c (jsonEscape c) := by
  unfold jsonEscape
  split
  case h_8 hquote hslash _ _ _ _ _ =>
    split
    · next hlow =>
      obtain ⟨heq, hcode⟩ := hexDigits_control c.toNat hlow
      have htext := CharText.code hcode (by omega)
      rw [Char.ofNat_toNat] at htext
      rwa [heq]
    · next hlow => exact .plain (Nat.le_of_not_lt hlow) hquote hslash
  all_goals exact .short rfl

theorem charsText_flatMap (cs : List Char) : CharsText cs (cs.flatMap jsonEscape) := by
  induction cs with
  | nil => exact .nil
  | cons c cs ih => exact .cons (charText_jsonEscape c) ih

theorem stringText_jsonQuoted (cs : List Char) :
    StringText (String.ofList cs) (jsonQuoted cs) :=
  .mk (charsText_flatMap cs)

end Json
end ScriptBuiltins
