import ScriptBuiltins.Proofs.Json.Decoding
import ScriptBuiltins.Proofs.Number.Whole
import ScriptBuiltins.Proofs.Render.Binding
import ScriptBuiltins.Proofs.Render.Integer
import ScriptBuiltins.Proofs.Text.Blank

/-!
Rendered integers are read back with the same word: the blanks around them do not count, and zeros
filled in or asked for by a precision stand in front of the digits. An integer conversion then shows
the same again.
-/
namespace ScriptBuiltins

theorem isBlank_eq_false {letters : LetterCase} {c : Char} (h : letters.isDigit c) :
    isBlank c = false := by
  have hcode : 48 ≤ c.toNat ∧ c.toNat ≤ 102 := by
    simp only [LetterCase.isDigit, Bool.or_eq_true, Char.isDigit_iff_toNat] at h
    obtain ⟨hlow, hhigh⟩ | h := h
    · exact ⟨hlow, Nat.le_trans hhigh (by decide)⟩
    · cases letters with
      | lower =>
        simp only [Bool.and_eq_true, decide_eq_true_eq] at h
        exact ⟨Nat.le_trans (by decide) h.1, h.2⟩
      | upper =>
        simp only [Bool.and_eq_true, decide_eq_true_eq] at h
        exact ⟨Nat.le_trans (by decide) h.1, Nat.le_trans h.2 (by decide)⟩
  simp only [isBlank, Bool.or_eq_false_iff, Bool.and_eq_false_iff, decide_eq_false_iff_not,
    beq_eq_false_iff_ne]
  omega

theorem Flags.exists_signFor_eq (flags : Flags) (negative : Bool) : ∃ spaces sign,
    flags.signFor negative = List.replicate spaces ' ' ++ sign ∧ Json.SignText negative sign := by
  obtain ⟨rfl, h⟩ | ⟨rfl, h | h | h⟩ := flags.signFor_cases negative
  · exact ⟨0, ['-'], h, .minus⟩
  · exact ⟨0, ['+'], h, .plus⟩
  · exact ⟨1, [], h, .none⟩
  · exact ⟨0, [], h, .none⟩

/-- A padded field is its text between spaces, maybe with zeros in front of the body. -/
theorem Field.exists_pad_eq (f : Field) (flags : Flags) (width : ℕ) : ∃ before zeros behind,
    f.pad flags width = List.replicate before ' '
      ++ (f.sign ++ (f.radixMark ++ (List.replicate zeros '0' ++ f.body)))
      ++ List.replicate behind ' ' := by
  generalize hfill : width - f.text.length = fill
  unfold pad
  rw [hfill]
  split
  · exact ⟨0, 0, fill, by simp [text]⟩
  · split
    · exact ⟨0, fill, 0, by simp⟩
    · exact ⟨fill, 0, 0, by simp [text]⟩

theorem Field.exists_ofText_pad {f : Field} {spaces : ℕ} {sign : List Char}
    (hsign : f.sign = List.replicate spaces ' ' ++ sign)
    (hblank : ∀ c ∈ sign ++ (f.radixMark ++ f.body), isBlank c = false) (flags : Flags)
    (width : ℕ) : ∃ zeros, Number.ofText (f.pad flags width)
      = Number.ofNumeral (sign ++ (f.radixMark ++ (List.replicate zeros '0' ++ f.body))) := by
  obtain ⟨before, zeros, behind, hpad⟩ := f.exists_pad_eq flags width
  refine ⟨zeros, ?_⟩
  have hall : ∀ c ∈ sign ++ (f.radixMark ++ (List.replicate zeros '0' ++ f.body)),
      isBlank c = false := by
    simp only [List.mem_append] at hblank ⊢
    rintro c (hc | hc | hc | hc)
    · exact hblank c (.inl hc)
    · exact hblank c (.inr (.inl hc))
    · rw [List.eq_of_mem_replicate hc]
      rfl
    · exact hblank c (.inr (.inr hc))
  have hspaces (rest : List Char) : List.replicate before ' ' ++ (f.sign ++ rest)
      = List.replicate (before + spaces) ' ' ++ (sign ++ rest) := by
    rw [hsign, ← List.replicate_append_replicate, List.append_assoc, List.append_assoc]
  have htrim := (trimmed_of_forall hall).trimBlanks_between (isBlank_spaces (before + spaces))
    (isBlank_spaces behind)
  rw [Number.ofText, hpad, hspaces, List.append_assoc, htrim]

theorem Shows.readDigits?_zeros {letters : LetterCase} {base n : ℕ} {precision : Option ℕ}
    {ds : List Char} (h : Shows letters base precision n ds) (hbase : 0 < base) (zeros : ℕ) :
    readDigits? base (List.replicate zeros '0' ++ ds) 0 = some n := by
  rw [readDigits?_zeros_append hbase, h.reads]

theorem Shows.not_blank {letters : LetterCase} {base n : ℕ} {precision : Option ℕ}
    {ds : List Char} (h : Shows letters base precision n ds) : ∀ c ∈ ds, isBlank c = false :=
  fun c hc => isBlank_eq_false (h.isDigit c hc)

/-! ### Fields -/

variable (d : Directive) (x : Number) (flags : Flags) (width : ℕ)

theorem toWord_ofText_signedField :
    (Number.ofText ((signedField d x).pad flags width)).toWord = x.toWord := by
  have hshows := shows_signedField d x
  have hlt : x.toWord < 2 ^ 32 := x.toWord_lt
  have hlimit : shortWordLimit = 2 ^ 32 := rfl
  obtain ⟨spaces, sign, hsign, hspelled⟩ :=
    d.flags.exists_signFor_eq (decide (2 ^ 31 ≤ x.toWord))
  rw [← sign_signedField] at hsign
  have hblank : ∀ c ∈ sign ++ ((signedField d x).radixMark ++ (signedField d x).body),
      isBlank c = false := by
    intro c hc
    obtain hc | hc := List.mem_append.mp hc
    · exact hspelled.isNumeral.not_blank c hc
    · exact hshows.not_blank c hc
  obtain ⟨zeros, htext⟩ := Field.exists_ofText_pad hsign hblank flags width
  have hreads := hshows.readDigits?_zeros (by decide) zeros
  rw [htext]
  by_cases hnegative : 2 ^ 31 ≤ x.toWord
  · rw [decide_eq_true hnegative] at hspelled
    rw [if_pos hnegative] at hreads
    refine (Number.toWord_ofNumeral_whole hspelled hreads (by omega)).trans ?_
    rw [if_pos rfl, hlimit]
    omega
  · rw [decide_eq_false hnegative] at hspelled
    rw [if_neg hnegative] at hreads
    refine (Number.toWord_ofNumeral_whole hspelled hreads (by omega)).trans ?_
    rw [if_neg Bool.false_ne_true, hlimit]
    omega

theorem shows_hexField_zero (letters : LetterCase) (hzero : x.toWord = 0) :
    Shows letters 10 d.precision 0 (hexField d letters x).body := by
  have hbody : (hexField d letters x).body
      = withPrecision d.precision 0 (letters.apply (Nat.toDigits 10 0)) := by
    rw [hexField, hzero, Nat.toDigits_zero, Nat.toDigits_zero]
  rw [hbody]
  exact shows_withPrecision letters (by decide) (by decide) d.precision Iff.rfl

theorem Conversion.exists_radixMark_hex (letters : LetterCase) :
    ∃ mark, (Conversion.hex letters).radixMark = ['0', mark] ∧ isBlank mark = false ∧
      radix? mark = some 16 := by
  cases letters with
  | lower => exact ⟨'x', rfl, rfl, rfl⟩
  | upper => exact ⟨'X', rfl, rfl, rfl⟩

theorem toWord_ofText_hexField (letters : LetterCase) (halternate : d.flags.alternate) :
    (Number.ofText ((hexField d letters x).pad flags width)).toWord = x.toWord := by
  have hshows := shows_hexField d letters x
  have hmark := radixMark_hexField d letters x
  obtain ⟨mark, hmarked, hblank, hradix⟩ := Conversion.exists_radixMark_hex letters
  have hsign : (hexField d letters x).sign = List.replicate 0 ' ' ++ [] := rfl
  by_cases hzero : x.toWord = 0
  · rw [if_neg fun h => h.2 hzero] at hmark
    have hten := shows_hexField_zero d x letters hzero
    obtain ⟨zeros, htext⟩ := Field.exists_ofText_pad hsign
      (by rw [hmark]; exact hten.not_blank) flags width
    rw [htext, hmark, hzero]
    exact Number.toWord_ofNumeral_whole .none (hten.readDigits?_zeros (by decide) zeros) (by decide)
  · rw [if_pos ⟨halternate, hzero⟩, hmarked] at hmark
    obtain ⟨zeros, htext⟩ := Field.exists_ofText_pad hsign (by
      rw [hmark]
      simp only [List.nil_append, List.cons_append, List.forall_mem_cons]
      exact ⟨rfl, hblank, hshows.not_blank⟩) flags width
    have hreads := hshows.readDigits?_zeros (by decide) zeros
    have hne : List.replicate zeros '0' ++ (hexField d letters x).body ≠ [] := by
      intro hnil
      rw [hnil] at hreads
      exact hzero (Option.some.inj hreads).symm
    rw [htext, hmark]
    exact Number.toWord_ofNumeral_marked hradix hne hreads x.toWord_lt

namespace Directive

theorem result_formatWith {template : String} {d : Directive}
    (hparse : Template.parse template = .ok ⟨template, [.directive d 0]⟩) (hname : d.name = none)
    {v : Value} {config : Config} (hcheck : config.check d = .ok ()) {text : List Char}
    (hrender : d.render v config = some text) :
    (formatWith template [v] config).result = .ok text := by
  have hnamed : Template.hasNamed ⟨template, [.directive d 0]⟩ = false := by
    simp [Template.hasNamed, Template.directives, Segment.directive?, isNamed, hname]
  rw [formatWith, hparse]
  simp [Template.render, hnamed, Segment.renderAll, Arguments.ofValues, hcheck, hname,
    Arguments.bind, hrender, Rendering.result_report, Rendering.result_prepend, Except.map]

/-- An integer conversion shows nothing of a number but its word. -/
theorem exists_integerField {d : Directive} (hconversion : d.conversion.isInteger) :
    ∃ shown : Number → Field, (∀ v config, d.field v config = some (shown v.toNumber)) ∧
      ∀ x y : Number, x.toWord = y.toWord → shown x = shown y := by
  cases hkind : d.conversion with
  | decimal =>
    exact ⟨signedField d, field_of_signed (.inl hkind), fun x y h => by
      rw [signedField, signedField, h]⟩
  | integer =>
    exact ⟨signedField d, field_of_signed (.inr hkind), fun x y h => by
      rw [signedField, signedField, h]⟩
  | octal =>
    exact ⟨octalField d, field_of_octal hkind, fun x y h => by rw [octalField, octalField, h]⟩
  | hex letters =>
    exact ⟨hexField d letters, field_of_hex hkind, fun x y h => by rw [hexField, hexField, h]⟩
  | fixed | exponent | general | text | json =>
    rw [hkind] at hconversion
    contradiction

theorem exists_render_eq {d : Directive} (hconversion : d.conversion.isInteger) {v w : Value}
    (h : v.toNumber.toWord = w.toNumber.toWord) (config : Config) :
    ∃ text, d.render v config = some text ∧ d.render w config = some text := by
  obtain ⟨shown, hfield, hcongr⟩ := exists_integerField hconversion
  refine ⟨(shown v.toNumber).pad d.flags (d.width.getD 0), ?_, ?_⟩
  · rw [render, hfield, Option.map_some]
  · rw [render, hfield, Option.map_some, hcongr _ _ h]

/-- The text of an integer conversion, padded or not, is read as a number with the word of the value
it shows. Formatted again, the text gives what the value gives. -/
theorem render_reads_back {d : Directive}
    (hconversion : d.conversion = .decimal ∨ d.conversion = .integer ∨
      d.flags.alternate ∧ ∃ letters, d.conversion = .hex letters) (v : Value) (config : Config) :
    ∃ text, d.render v config = some text ∧
      (Value.string (String.ofList text)).toNumber.toWord = v.toNumber.toWord ∧
      ∀ template ∈ ["%d", "%#x"], ∀ config : Config, ∃ shown,
        (formatWith template [.string (String.ofList text)] config).result = .ok shown ∧
        (formatWith template [v] config).result = .ok shown := by
  obtain ⟨text, hrender, hword⟩ : ∃ text, d.render v config = some text ∧
      (Number.ofText text).toWord = v.toNumber.toWord := by
    obtain h | h | ⟨halternate, letters, h⟩ := hconversion
    · refine ⟨_, ?_, toWord_ofText_signedField d v.toNumber d.flags (d.width.getD 0)⟩
      rw [render, field_of_signed (.inl h), Option.map_some]
    · refine ⟨_, ?_, toWord_ofText_signedField d v.toNumber d.flags (d.width.getD 0)⟩
      rw [render, field_of_signed (.inr h), Option.map_some]
    · refine ⟨_, ?_,
        toWord_ofText_hexField d v.toNumber d.flags (d.width.getD 0) letters halternate⟩
      rw [render, field_of_hex h, Option.map_some]
  have hread : (Value.string (String.ofList text)).toNumber = Number.ofText text := by
    simp [Value.toNumber, Value.asNumber?, Value.asText?]
  rw [← hread] at hword
  refine ⟨text, hrender, hword, fun template htemplate limits => ?_⟩
  obtain ⟨e, hparse, hname, hkind, hcheck⟩ : ∃ e : Directive,
      Template.parse template = .ok ⟨template, [.directive e 0]⟩ ∧ e.name = none ∧
      e.conversion.isInteger ∧ limits.check e = .ok () := by
    obtain rfl | rfl : template = "%d" ∨ template = "%#x" := by simpa using htemplate
    · exact ⟨⟨{}, none, none, none, .decimal⟩, by decide +kernel, rfl, rfl, rfl⟩
    · exact ⟨⟨{ alternate := true }, none, none, none, .hex .lower⟩, by decide +kernel, rfl, rfl,
        rfl⟩
  obtain ⟨shown, hagain, hvalue⟩ := exists_render_eq hkind hword limits
  exact ⟨shown, result_formatWith hparse hname hcheck hagain,
    result_formatWith hparse hname hcheck hvalue⟩

theorem render_reads_back_marked :
    let d : Directive := ⟨{ zeroPad := true, alternate := true }, some 12, none, none, .hex .upper⟩
    d.render (.string "-1") {} = some "0X00FFFFFFFF".toList ∧
      (Value.string "0X00FFFFFFFF").toNumber.toWord = (Value.string "-1").toNumber.toWord := by
  intro d
  have hrender : d.render (.string "-1") {} = some "0X00FFFFFFFF".toList := by decide +kernel
  obtain ⟨text, htext, hword, -⟩ :=
    render_reads_back (d := d) (.inr (.inr ⟨rfl, .upper, rfl⟩)) (.string "-1") {}
  obtain rfl := Option.some.inj (htext.symm.trans hrender)
  exact ⟨hrender, by rwa [String.ofList_toList] at hword⟩

end Directive
end ScriptBuiltins
