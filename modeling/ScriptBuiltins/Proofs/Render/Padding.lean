import Mathlib.Data.List.TakeWhile
import ScriptBuiltins.Proofs.Json.Reading
import ScriptBuiltins.Proofs.Render.Float

/-!
What a width adds: spaces behind or in front of what is rendered without it, or zeros behind its
sign and radix mark.
-/
namespace ScriptBuiltins

def isSign (c : Char) : Bool := c == '-' || c == '+' || c == ' '

namespace Directive

/-- Whether a number is brought to the width by zeros. What is not finite is not, and a precision
already says how many digits an integer has. -/
def fillsZeros (d : Directive) (x : Number) : Bool :=
  d.flags.zeroPad && d.conversion.isNumeric && (!d.conversion.isFloat || x.isFinite)
    && (!d.conversion.isInteger || d.precision.isNone)

/-- Zeros filled in behind the sign of a rendered number and the radix mark of the alternate form,
if the number has one. -/
def insertZeros (d : Directive) (fill : Nat) (natural : List Char) : List Char :=
  let unsigned := natural.dropWhile isSign
  let mark := if d.flags.alternate && d.conversion.radixMark.isPrefixOf unsigned
    then d.conversion.radixMark else []
  natural.takeWhile isSign ++ mark ++ List.replicate fill '0' ++ unsigned.drop mark.length

/-- What is rendered without a width, brought to the width. -/
def padded (d : Directive) (x : Number) (natural : List Char) : List Char :=
  let fill := d.width.getD 0 - natural.length
  if d.flags.leftJustify then natural ++ List.replicate fill ' '
  else if d.fillsZeros x then d.insertZeros fill natural
  else List.replicate fill ' ' ++ natural

end Directive

theorem isSign_of_mem_signFor (flags : Flags) (negative : Bool) :
    ∀ c ∈ flags.signFor negative, isSign c := by
  obtain ⟨-, h⟩ | ⟨-, h | h | h⟩ := flags.signFor_cases negative <;> simp [h, isSign]

theorem isSign_eq_false {letters : LetterCase} {c : Char} (h : letters.isDigit c) :
    isSign c = false := by
  by_contra hsign
  simp only [isSign, Bool.not_eq_false, Bool.or_eq_true, beq_iff_eq] at hsign
  obtain (rfl | rfl) | rfl := hsign <;> cases letters <;> contradiction

/-! ### Bodies -/

def BeginsWithDigit (cs : List Char) : Prop := ∃ c rest, cs = c :: rest ∧ c.isDigit

namespace BeginsWithDigit

theorem append {cs : List Char} (h : BeginsWithDigit cs) (ds : List Char) :
    BeginsWithDigit (cs ++ ds) := by
  obtain ⟨c, rest, rfl, hc⟩ := h
  exact ⟨c, rest ++ ds, rfl, hc⟩

theorem apply {cs : List Char} (h : BeginsWithDigit cs) (letters : LetterCase) :
    BeginsWithDigit (letters.apply cs) := by
  obtain ⟨c, rest, rfl, hc⟩ := h
  refine ⟨c, letters.apply rest, ?_, hc⟩
  rw [← List.singleton_append, letters.apply_append,
    letters.apply_digits fun d hd => List.mem_singleton.mp hd ▸ hc, List.singleton_append]

theorem stops_sign {cs : List Char} (h : BeginsWithDigit cs) : Stops isSign cs := by
  obtain ⟨c, rest, rfl, hc⟩ := h
  have hdigit : LetterCase.lower.isDigit c := by rw [LetterCase.isDigit, hc, Bool.true_or]
  exact stops_cons.mpr (isSign_eq_false hdigit)

end BeginsWithDigit

theorem FixedForm.beginsWithDigit {x : ℚ} {places : ℕ} {alternate : Bool} {text : List Char}
    (h : FixedForm x places alternate text) : BeginsWithDigit text := by
  cases h with
  | mk hwhole hfraction hplaces hrounds =>
    have hbegins : BeginsWithDigit _ := hwhole.exists_cons
    exact (hbegins.append _).append _

theorem ExponentForm.beginsWithDigit {x : ℚ} {places : ℕ} {alternate : Bool}
    {letters : LetterCase} {text : List Char} (h : ExponentForm x places alternate letters text) :
    BeginsWithDigit text := by
  cases h with
  | @mk lead fraction power exponent hlead hzero hfraction hplaces hpower hrounds =>
    have hbegins : BeginsWithDigit [lead] := ⟨lead, [], rfl, hlead⟩
    exact ((hbegins.append _).append _).append _

theorem exists_trimFraction_cons {c : Char} (hc : c ≠ '.') (cs : List Char) :
    ∃ rest, trimFraction (c :: cs) = c :: rest := by
  rw [trimFraction]
  split
  · next hpoint =>
    have hmem : '.' ∈ cs.reverse := by
      rw [List.contains_iff_mem, List.mem_cons] at hpoint
      exact List.mem_reverse.mpr (hpoint.resolve_left hc.symm)
    have hne : cs.reverse.dropWhile (· == '0') ≠ [] := by
      intro hnil
      exact absurd (List.dropWhile_eq_nil_iff.mp hnil '.' hmem) (by decide)
    have hkept : ((c :: cs).reverse.dropWhile (· == '0')).reverse
        = c :: (cs.reverse.dropWhile (· == '0')).reverse := by
      rw [List.reverse_cons, List.dropWhile_append, if_neg (by simpa using hne),
        List.reverse_append, List.reverse_singleton, List.singleton_append]
    rw [hkept]
    dsimp only
    split
    · exact ⟨_, List.dropLast_cons_of_ne_nil (by simpa using hne)⟩
    · exact ⟨_, rfl⟩
  · exact ⟨cs, rfl⟩

theorem BeginsWithDigit.trimMantissa {cs : List Char} (h : BeginsWithDigit cs) :
    BeginsWithDigit (trimMantissa cs) := by
  obtain ⟨c, rest, rfl, hc⟩ := h
  have hpoint : c ≠ '.' := by
    rintro rfl
    contradiction
  have hmark : (c != 'e') = true := by
    rw [bne_iff_ne]
    rintro rfl
    contradiction
  have htake : (c :: rest).takeWhile (· != 'e') = c :: rest.takeWhile (· != 'e') :=
    List.takeWhile_cons_of_pos hmark
  obtain ⟨kept, hkept⟩ := exists_trimFraction_cons hpoint (rest.takeWhile (· != 'e'))
  refine ⟨c, kept ++ (c :: rest).dropWhile (· != 'e'), ?_, hc⟩
  rw [ScriptBuiltins.trimMantissa, htake, hkept, List.cons_append]

def IsUnsigned (form : ℕ → ℕ → Bool → Option (List Char)) : Prop :=
  ∀ {rank precision : ℕ} {alternate : Bool} {text : List Char},
    form rank precision alternate = some text → BeginsWithDigit text

theorem isUnsigned_fixedText : IsUnsigned fixedText := fun h =>
  (fixedForm_of_fixedText h).beginsWithDigit

theorem isUnsigned_scientificText : IsUnsigned scientificText := fun h =>
  (exponentForm_of_scientificText h).beginsWithDigit

theorem isUnsigned_generalText : IsUnsigned generalText := by
  intro rank precision alternate text h
  rw [generalText_eq, Option.bind_eq_some_iff] at h
  obtain ⟨exponent, -, h⟩ := h
  obtain ⟨untrimmed, huntrimmed, rfl⟩ := Option.map_eq_some_iff.mp h
  have hbegins : BeginsWithDigit untrimmed := by
    cases hform : isScientific precision exponent with
    | true => exact isUnsigned_scientificText (by rwa [hform] at huntrimmed)
    | false => exact isUnsigned_fixedText (by rwa [hform] at huntrimmed)
  cases alternate with
  | true => exact hbegins
  | false => exact hbegins.trimMantissa

theorem Shows.stops_sign {letters : LetterCase} {base n : ℕ} {precision : Option ℕ}
    {ds : List Char} (h : Shows letters base precision n ds) : Stops isSign ds :=
  stops_of_forall fun c hc => isSign_eq_false (h.isDigit c hc)

/-! ### Zeros -/

namespace Directive
variable {d : Directive}

theorem insertZeros_unmarked (fill : ℕ) {sign body : List Char} (hsign : ∀ c ∈ sign, isSign c)
    (hbody : Stops isSign body)
    (hmark : d.flags.alternate → d.conversion.radixMark <+: body → d.conversion.radixMark = []) :
    d.insertZeros fill (sign ++ body) = sign ++ List.replicate fill '0' ++ body := by
  have hnone : (if d.flags.alternate && d.conversion.radixMark.isPrefixOf body
      then d.conversion.radixMark else []) = [] := by
    rw [ite_eq_right_iff, Bool.and_eq_true, List.isPrefixOf_iff_prefix]
    rintro ⟨halternate, hprefix⟩
    exact hmark halternate hprefix
  simp only [insertZeros, takeWhile_run hsign hbody, dropWhile_run hsign hbody, hnone,
    List.append_nil, List.length_nil, List.drop_zero]

theorem insertZeros_marked (fill : ℕ) {body : List Char} (halternate : d.flags.alternate)
    (hstops : Stops isSign (d.conversion.radixMark ++ body)) :
    d.insertZeros fill (d.conversion.radixMark ++ body)
      = d.conversion.radixMark ++ List.replicate fill '0' ++ body := by
  have hprefix : d.conversion.radixMark.isPrefixOf (d.conversion.radixMark ++ body) :=
    List.isPrefixOf_iff_prefix.mpr (List.prefix_append _ _)
  simp only [insertZeros, takeWhile_of_stops hstops, dropWhile_of_stops hstops, halternate, hprefix,
    Bool.and_self, if_true, List.nil_append, List.drop_left]

/-- The parts of a field are where zeros are filled in by its text alone. -/
def Divides (d : Directive) (f : Field) : Prop :=
  ∀ fill, d.insertZeros fill f.text = f.sign ++ f.radixMark ++ List.replicate fill '0' ++ f.body

theorem divides_signedField (hmark : d.conversion.radixMark = []) (x : Number) :
    d.Divides (signedField d x) := by
  intro fill
  have hnone : (signedField d x).radixMark = [] := rfl
  rw [Field.text, hnone, List.append_nil]
  refine insertZeros_unmarked fill ?_ (shows_signedField d x).stops_sign fun _ _ => hmark
  rw [sign_signedField]
  exact isSign_of_mem_signFor _ _

theorem divides_floatField {letters : LetterCase} {form : ℕ → ℕ → Bool → Option (List Char)}
    {x : Number} {config : Config} {f : Field} (hmark : d.conversion.radixMark = [])
    (hform : IsUnsigned form) (hfinite : x.isFinite)
    (h : floatField d letters form x config = some f) : d.Divides f := by
  intro fill
  cases x with
  | nan => cases hfinite
  | infinite negative => cases hfinite
  | finite negative rank =>
    obtain ⟨body, hbody, rfl⟩ := Option.map_eq_some_iff.mp h
    rw [Field.text]
    simp only [List.append_nil]
    exact insertZeros_unmarked fill (isSign_of_mem_signFor _ _)
      ((hform hbody).apply letters).stops_sign fun _ _ => hmark

/-- A zero that an octal number begins with anyway may stand on either side of the others. -/
theorem divides_octalField (hconversion : d.conversion = .octal) (x : Number) :
    d.Divides (octalField d x) := by
  intro fill
  have hmark : d.conversion.radixMark = ['0'] := by rw [hconversion]; rfl
  have hstops := (shows_octalField d x).stops_sign
  have hradix := radixMark_octalField d x
  have hsign : (octalField d x).sign = [] := rfl
  rw [Field.text, hsign, List.nil_append]
  generalize (octalField d x).radixMark = mark at hradix ⊢
  generalize (octalField d x).body = body at hstops hradix ⊢
  by_cases hmarked : d.flags.alternate ∧ body.head? ≠ some '0'
  · rw [if_pos hmarked, ← hconversion] at hradix
    rw [hradix]
    refine insertZeros_marked fill hmarked.1 ?_
    rw [hmark]
    exact stops_cons.mpr rfl
  · rw [if_neg hmarked] at hradix
    rw [hradix, List.nil_append, List.nil_append]
    by_cases halternate : d.flags.alternate
    · obtain ⟨rest, rfl⟩ : ∃ rest, body = '0' :: rest := by
        cases body with
        | nil => exact absurd ⟨halternate, by simp⟩ hmarked
        | cons c rest =>
          have hhead : some c = some '0' := by
            by_contra hne
            exact hmarked ⟨halternate, hne⟩
          exact ⟨rest, by rw [Option.some.inj hhead]⟩
      have hbegins : Stops isSign (d.conversion.radixMark ++ rest) := by rwa [hmark]
      have hinsert := insertZeros_marked fill halternate hbegins
      rw [hmark] at hinsert
      rw [← List.singleton_append, hinsert, ← List.append_assoc, ← List.replicate_one,
        List.replicate_append_replicate, List.replicate_append_replicate, Nat.add_comm]
    · exact insertZeros_unmarked fill (List.forall_mem_nil _) hstops
        fun h => absurd h halternate

/-- A zero has no radix mark in base sixteen, and its digit alone is not taken for one. -/
theorem divides_hexField {letters : LetterCase} (hconversion : d.conversion = .hex letters)
    (hprecision : d.precision = none) (x : Number) : d.Divides (hexField d letters x) := by
  intro fill
  have hstops := (shows_hexField d letters x).stops_sign
  have hradix := radixMark_hexField d letters x
  have hbody : (hexField d letters x).body = letters.apply (Nat.toDigits 16 x.toWord) := by
    rw [hexField, hprecision, withPrecision]
  have hsign : (hexField d letters x).sign = [] := rfl
  rw [Field.text, hsign, List.nil_append]
  generalize (hexField d letters x).radixMark = mark at hradix ⊢
  generalize (hexField d letters x).body = body at hstops hbody ⊢
  by_cases hmarked : d.flags.alternate ∧ x.toWord ≠ 0
  · rw [if_pos hmarked, ← hconversion] at hradix
    rw [hradix]
    refine insertZeros_marked fill hmarked.1 ?_
    rw [hconversion]
    cases letters <;> exact stops_cons.mpr rfl
  · rw [if_neg hmarked] at hradix
    rw [hradix]
    refine insertZeros_unmarked fill (List.forall_mem_nil _) hstops fun halternate hprefix => ?_
    have hzero : x.toWord = 0 := by
      by_contra hne
      exact hmarked ⟨halternate, hne⟩
    have hlength := hprefix.length_le
    rw [hbody, letters.length_apply, hzero, hconversion] at hlength
    cases letters <;> exact absurd hlength (by decide)

/-! ### Fields -/

variable {v : Value} {config : Config} {f : Field}

theorem zeroFill_floatField {letters : LetterCase} {form : ℕ → ℕ → Bool → Option (List Char)}
    {x : Number} (h : floatField d letters form x config = some f) : f.zeroFill = x.isFinite := by
  cases x with
  | nan =>
    obtain rfl := Option.some.inj h
    rfl
  | infinite negative =>
    obtain rfl := Option.some.inj h
    rfl
  | finite negative rank =>
    obtain ⟨body, -, rfl⟩ := Option.map_eq_some_iff.mp h
    rfl

theorem zeroFill_of_field (h : d.field v config = some f) :
    (d.flags.zeroPad && f.zeroFill) = d.fillsZeros v.toNumber := by
  have hfloat {letters : LetterCase} {form : ℕ → ℕ → Bool → Option (List Char)}
      (hfield : floatField d letters form v.toNumber config = some f) :
      f.zeroFill = v.toNumber.isFinite := zeroFill_floatField hfield
  rw [field] at h
  rw [fillsZeros]
  cases hconversion : d.conversion <;> rw [hconversion] at h <;>
    simp only [Conversion.isNumeric, Conversion.isInteger, Conversion.isFloat, Bool.or_false,
      Bool.or_true, Bool.false_or, Bool.not_true, Bool.not_false, Bool.true_or, Bool.and_true,
      Bool.and_false]
  case text => obtain rfl := Option.some.inj h; exact Bool.and_false _
  case json => obtain rfl := Option.some.inj h; exact Bool.and_false _
  case decimal => obtain rfl := Option.some.inj h; rfl
  case integer => obtain rfl := Option.some.inj h; rfl
  case octal => obtain rfl := Option.some.inj h; rfl
  case hex => obtain rfl := Option.some.inj h; rfl
  case fixed => rw [hfloat h]
  case exponent => rw [hfloat h]
  case general => rw [hfloat h]

theorem divides_of_field (h : d.field v config = some f) (hfill : f.zeroFill) : d.Divides f := by
  have hfinite {letters : LetterCase} {form : ℕ → ℕ → Bool → Option (List Char)}
      (hfield : floatField d letters form v.toNumber config = some f) :
      v.toNumber.isFinite := by rwa [← zeroFill_floatField hfield]
  rw [field] at h
  cases hconversion : d.conversion <;> rw [hconversion] at h
  case text => obtain rfl := Option.some.inj h; cases hfill
  case json => obtain rfl := Option.some.inj h; cases hfill
  case decimal =>
    obtain rfl := Option.some.inj h
    exact divides_signedField (by rw [hconversion]; rfl) _
  case integer =>
    obtain rfl := Option.some.inj h
    exact divides_signedField (by rw [hconversion]; rfl) _
  case octal =>
    obtain rfl := Option.some.inj h
    exact divides_octalField hconversion _
  case hex letters =>
    obtain rfl := Option.some.inj h
    exact divides_hexField hconversion (Option.isNone_iff_eq_none.mp hfill) _
  case fixed =>
    exact divides_floatField (by rw [hconversion]; rfl) isUnsigned_fixedText
      (hfinite h) h
  case exponent =>
    exact divides_floatField (by rw [hconversion]; rfl) isUnsigned_scientificText
      (hfinite h) h
  case general =>
    exact divides_floatField (by rw [hconversion]; rfl) isUnsigned_generalText
      (hfinite h) h

theorem pad_of_field (h : d.field v config = some f) :
    f.pad d.flags (d.width.getD 0) = d.padded v.toNumber f.text := by
  simp only [Field.pad, padded, ← zeroFill_of_field h]
  split
  · rfl
  · split
    · next hzero => rw [divides_of_field h (Bool.and_eq_true_iff.mp hzero).2]
    · rfl

end Directive

theorem Field.pad_congr {f : Field} (h : f.zeroFill = false) {flags other : Flags}
    (hjustify : flags.leftJustify = other.leftJustify) (width : ℕ) :
    f.pad flags width = f.pad other width := by
  simp only [pad, h, Bool.and_false, hjustify]

namespace Directive
variable {d : Directive} {v : Value} {config : Config}

theorem field_of_text {cs : List Char}
    (h : d.conversion = .text ∧ cs = v.toText ∨ d.conversion = .json ∧ cs = v.toJson) :
    d.field v config
      = some { body := cs.take (min (d.precision.getD cs.length) cs.length) } := by
  cases hprecision : d.precision with
  | none =>
    rw [Option.getD_none, Nat.min_self, List.take_length]
    obtain ⟨hconversion, rfl⟩ | ⟨hconversion, rfl⟩ := h <;>
      simp only [field, hconversion, hprecision]
  | some p =>
    have htake : cs.take (min p cs.length) = cs.take p := by
      rw [List.take_eq_take_iff, Nat.min_assoc, Nat.min_self]
    rw [Option.getD_some, htake]
    obtain ⟨hconversion, rfl⟩ | ⟨hconversion, rfl⟩ := h <;>
      simp only [field, hconversion, hprecision]

/-- A rendering is what is rendered without a width, brought to the width. Of a text or JSON that is
as much as the precision leaves, and only the flag `-` matters. -/
theorem render_padded {text : List Char} (h : d.render v config = some text) :
    ∃ natural, { d with width := none }.render v config = some natural ∧
      text.length = max (d.width.getD 0) natural.length ∧
      text = d.padded v.toNumber natural ∧
      ∀ cs, d.conversion = .text ∧ cs = v.toText ∨ d.conversion = .json ∧ cs = v.toJson →
        natural = cs.take (min (d.precision.getD cs.length) cs.length) ∧
        ∀ flags : Flags, flags.leftJustify = d.flags.leftJustify →
          { d with flags }.render v config = some text := by
  obtain ⟨f, hfield, rfl⟩ := Option.map_eq_some_iff.mp h
  have hnatural : { d with width := none }.field v config = some f := hfield
  refine ⟨f.text, render_of_field rfl hnatural, f.length_pad d.flags _, pad_of_field hfield, ?_⟩
  intro cs hcs
  rw [field_of_text hcs] at hfield
  obtain rfl := Option.some.inj hfield
  refine ⟨rfl, fun flags hjustify => ?_⟩
  have hother : { d with flags }.field v config = _ := field_of_text hcs
  rw [render, hother]
  exact congrArg some (Field.pad_congr rfl hjustify _)

theorem render_padded_zeros :
    let d : Directive := ⟨{ zeroPad := true }, some 8, none, none, .decimal⟩
    d.render (.string "-42") {} = some "-0000042".toList ∧
      ∃ natural, { d with width := none }.render (.string "-42") {} = some natural ∧
        "-0000042".toList.length = max 8 natural.length ∧
        "-0000042".toList = d.padded (Value.string "-42").toNumber natural := by
  intro d
  have hrender : d.render (.string "-42") {} = some "-0000042".toList := by decide +kernel
  obtain ⟨natural, hnatural, hlength, hpadded, -⟩ := render_padded hrender
  exact ⟨hrender, natural, hnatural, hlength, hpadded⟩

end Directive
end ScriptBuiltins
