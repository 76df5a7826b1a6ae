import ScriptBuiltins.Proofs.Number.Digits
import ScriptBuiltins.Proofs.Template.Pieces

/-! The canonical text of directives and templates. It is read as what it was written from. -/
namespace ScriptBuiltins
open Lexeme

structure Directive.Canonical (d : Directive) : Prop where
  name : ∀ name ∈ d.name, IsName name.toList
  width : d.width ≠ some 0
  widthFits : ∀ n ∈ d.width, n < wordLimit
  precisionFits : ∀ n ∈ d.precision, n < wordLimit

def Directive.form (d : Directive) : DirectiveForm where
  early := d.name.map String.toList
  flags := d.flags.toList
  width := (d.width.map digits).getD []
  precision := d.precision.map digits
  late := none
  conversion := d.conversion

theorem Flags.isFlag_of_mem_toList {flags : Flags} {c : Char} (h : c ∈ flags.toList) :
    isFlag c := by
  simp only [toList, List.mem_append] at h
  obtain (((h | h) | h) | h) | h := h
  all_goals
    split at h
    · obtain rfl := List.mem_singleton.mp h
      rfl
    · contradiction

theorem Flags.ofRun_toList (flags : Flags) : ofRun flags.toList = flags := by
  obtain ⟨l, z, p, s, a⟩ := flags
  cases l <;> cases z <;> cases p <;> cases s <;> cases a <;> rfl

namespace Directive

theorem display_eq (d : Directive) : d.display = '%' :: d.form.body := by
  obtain ⟨flags, width, precision, name, conversion⟩ := d
  cases width <;> cases precision <;> cases name <;>
    simp [display, form, DirectiveForm.body, DirectiveForm.middle, groupText, pointText]

theorem Canonical.stops {d : Directive} (h : d.Canonical) : Stops isFlag d.form.width := by
  cases hwidth : d.width with
  | none => simp [form, hwidth, stops_nil]
  | some n =>
    have hn : 0 < n := Nat.pos_of_ne_zero fun he => h.width (he ▸ hwidth)
    have hform : d.form.width = digits n := by simp [form, hwidth]
    rw [hform]
    intro c hc
    have hdigit := isDigit_of_mem_digits (List.mem_of_mem_head? hc)
    have hne : c ≠ '0' := by
      rintro rfl
      exact head_digits_ne_zero hn hc
    cases hflag : isFlag c with
    | false => rfl
    | true =>
      simp only [isFlag, decide_eq_true_eq] at hflag
      obtain rfl | rfl | rfl | rfl | rfl := hflag
      all_goals first | exact absurd rfl hne | exact absurd hdigit (by decide)

theorem Canonical.countRun_form {d : Directive} (h : d.Canonical) :
    d.form.countRun = d.form.width :=
  dropWhile_run (fun _ => Flags.isFlag_of_mem_toList) h.stops

theorem Canonical.flagRun_form {d : Directive} (h : d.Canonical) :
    d.form.flagRun = d.flags.toList :=
  takeWhile_run (fun _ => Flags.isFlag_of_mem_toList) h.stops

theorem Canonical.wellFormed_form {d : Directive} (h : d.Canonical) : d.form.WellFormed where
  early := by
    intro name hname
    obtain ⟨n, hn, rfl⟩ := Option.map_eq_some_iff.mp hname
    exact h.name n hn
  late := by simp [form]
  once := .inr rfl
  flags := fun _ => Flags.isFlag_of_mem_toList
  width := by
    intro c hc
    cases hwidth : d.width with
    | none => simp [form, hwidth] at hc
    | some n => exact isDigit_of_mem_digits (by simpa [form, hwidth] using hc)
  widthFits := by
    rw [h.countRun_form]
    cases hwidth : d.width with
    | none =>
      have hform : d.form.width = [] := by simp [form, hwidth]
      rw [hform]
      decide
    | some n => simpa [form, hwidth, decimalValue_digits] using h.widthFits n hwidth
  precision := by
    intro ds hds c hc
    obtain ⟨n, hn, rfl⟩ := Option.map_eq_some_iff.mp hds
    exact isDigit_of_mem_digits hc
  precisionFits := by
    intro ds hds
    obtain ⟨n, hn, rfl⟩ := Option.map_eq_some_iff.mp hds
    rw [decimalValue_digits]
    exact h.precisionFits n hn

theorem Canonical.reading_form {d : Directive} (h : d.Canonical) : d.form.reading = d := by
  obtain ⟨flags, width, precision, name, conversion⟩ := d
  simp only [DirectiveForm.reading, h.flagRun_form, h.countRun_form, Flags.ofRun_toList]
  cases width <;> cases precision <;> cases name <;>
    simp [form, decimalValue_digits, digits_ne_nil]

theorem Canonical.parseBody_form {d : Directive} (h : d.Canonical) :
    parseBody d.form.body = .ok d := by
  rw [parseBody_body h.wellFormed_form, h.reading_form]

end Directive

theorem DirectiveForm.WellFormed.canonical_reading {f : DirectiveForm} (h : f.WellFormed) :
    f.reading.Canonical where
  name := by
    intro name hname
    obtain ⟨n, hn, rfl⟩ := Option.map_eq_some_iff.mp hname
    rw [String.toList_ofList]
    cases hearly : f.early with
    | none => exact h.late n (by simpa [hearly] using hn)
    | some early => exact h.early n (by simpa [hearly] using hn)
  width := by
    -- The digits that are read as the width begin with none that is a flag, so with none that is 0.
    have hsettled := h.settled
    cases hrun : f.countRun with
    | nil => simp [reading, hrun]
    | cons c cs =>
      have hstop : Stops isFlag f.countRun := stops_dropWhile isFlag (f.flags ++ f.width)
      rw [hrun, stops_cons] at hstop
      have hdigit : c.isDigit := hsettled.width c (by simp [DirectiveForm.settled, hrun])
      have hne : c ≠ '0' := by
        rintro rfl
        exact absurd hstop (by decide)
      have hpos : 0 < decimalValue (c :: cs) := decimalValue_pos hdigit hne
      simp [reading, hrun]
      omega
  widthFits := by
    intro n hn
    simp only [reading] at hn
    split at hn
    · contradiction
    · obtain rfl := Option.some.inj hn
      exact h.widthFits
  precisionFits := by
    intro n hn
    obtain ⟨ds, hds, rfl⟩ := Option.map_eq_some_iff.mp hn
    exact h.precisionFits ds hds

namespace Segment

def display : Segment → List Char
  | .literal text => text.toList
  | .percent => ['%', '%']
  | .directive d _ => d.display

def moveTo (offset : Nat) : Segment → Segment
  | .literal text => .literal text
  | .percent => .percent
  | .directive d _ => .directive d offset

/-- The same segments, standing where their canonical texts do. -/
def respaced (offset : Nat) : List Segment → List Segment
  | [] => []
  | s :: ss => s.moveTo offset :: respaced (offset + utf8Length s.display) ss

theorem ofDirective_display {d : Directive} (h : d.Canonical) (offset : Nat) :
    ofDirective offset d.display = .ok (.directive d offset) := by
  rw [d.display_eq]
  exact ofDirective_eq_ok h.parseBody_form offset

theorem exists_canonical_of_ofDirective {cs : List Char} {offset : Nat} {s : Segment}
    (h : ofDirective offset cs = .ok s) : ∃ d : Directive, d.Canonical ∧
      s = .directive d offset := by
  obtain ⟨f, hf, -, rfl⟩ := exists_form_of_ofDirective h
  exact ⟨f.reading, hf.canonical_reading, rfl⟩

end Segment

def Template.display (t : Template) : String := String.ofList (t.segments.flatMap Segment.display)

namespace Piece

/-- The piece that a piece is written back as. -/
def canonical : Piece → Piece
  | .literal cs => .literal cs
  | .escape => .escape
  | .directive f => .directive f.reading.form

theorem wellFormed_canonical {p : Piece} (h : p.WellFormed) : p.canonical.WellFormed := by
  cases p with
  | literal cs => exact h
  | escape => exact h
  | directive f =>
    have hf : f.WellFormed := h
    exact hf.canonical_reading.wellFormed_form

theorem isLiteral_canonical (p : Piece) : p.canonical.IsLiteral ↔ p.IsLiteral := by
  cases p <;> rfl

theorem text_canonical (p : Piece) (offset : Nat) :
    p.canonical.text = (p.segment offset).display := by
  cases p with
  | literal cs => simp [canonical, text, segment, Segment.display]
  | escape => rfl
  | directive f => simp [canonical, text, segment, Segment.display, Directive.display_eq]

theorem segment_canonical {p : Piece} (h : p.WellFormed) (offset old : Nat) :
    p.canonical.segment offset = (p.segment old).moveTo offset := by
  cases p with
  | literal cs => rfl
  | escape => rfl
  | directive f =>
    have hf : f.WellFormed := h
    simp [canonical, segment, Segment.moveTo, hf.canonical_reading.reading_form]

theorem flatMap_text_canonical (pieces : List Piece) (offset : Nat) :
    (pieces.map canonical).flatMap text = (segments offset pieces).flatMap Segment.display := by
  induction pieces generalizing offset with
  | nil => rfl
  | cons p ps ih =>
    rw [List.map_cons, List.flatMap_cons, segments, List.flatMap_cons, text_canonical p offset,
      ih (offset + utf8Length p.text)]

theorem segments_canonical {pieces : List Piece} (h : ∀ p ∈ pieces, p.WellFormed)
    (offset old : Nat) :
    segments offset (pieces.map canonical) = Segment.respaced offset (segments old pieces) := by
  induction pieces generalizing offset old with
  | nil => rfl
  | cons p ps ih =>
    obtain ⟨hp, hps⟩ := List.forall_mem_cons.mp h
    rw [List.map_cons, segments, segments, Segment.respaced, segment_canonical hp offset old,
      text_canonical p old, ih hps _ (old + utf8Length p.text)]

/-- Written back, no piece merges with its neighbour. -/
theorem Decompose.canonical {pieces : List Piece} {cs : List Char} (h : Decompose pieces cs)
    (offset : Nat) :
    Decompose (pieces.map Piece.canonical) ((segments offset pieces).flatMap Segment.display) where
  wellFormed := by
    intro q hq
    obtain ⟨p, hp, rfl⟩ := List.mem_map.mp hq
    exact wellFormed_canonical (h.wellFormed p hp)
  apart := by
    rw [List.isChain_map]
    simpa only [isLiteral_canonical] using h.apart
  text := flatMap_text_canonical pieces offset

end Piece

/-- A template is read back from its canonical text, at the offsets of that text. -/
theorem Template.parse_display {source : String} {t : Template} (h : parse source = .ok t) :
    parse t.display = .ok ⟨t.display, Segment.respaced 0 t.segments⟩ := by
  obtain ⟨pieces, hpieces, rfl⟩ := exists_pieces_of_parse h
  have hcanonical := hpieces.canonical 0
  rw [← String.toList_ofList (l := (Piece.segments 0 pieces).flatMap Segment.display)] at hcanonical
  rw [display, parse_pieces hcanonical, Piece.segments_canonical hpieces.wellFormed 0 0]

/-- Printing and reading are inverse to each other. A canonical directive is read back from its
text, every directive that is read is canonical, and a template is read back from its canonical text
at the offsets of that text. -/
theorem canonical_text_inverse :
    (∀ (d : Directive) (offset : Nat), d.Canonical →
      Segment.ofDirective offset d.display = .ok (.directive d offset)) ∧
    (∀ (cs : List Char) (offset : Nat) (s : Segment), Segment.ofDirective offset cs = .ok s →
      ∃ d : Directive, d.Canonical ∧ s = .directive d offset ∧
        Segment.ofDirective offset d.display = .ok s) ∧
    ∀ (source : String) (t : Template), Template.parse source = .ok t →
      Template.parse t.display = .ok ⟨t.display, Segment.respaced 0 t.segments⟩ := by
  refine ⟨fun d offset h => Segment.ofDirective_display h offset, ?_,
    fun source t h => Template.parse_display h⟩
  intro cs offset s h
  obtain ⟨d, hd, rfl⟩ := Segment.exists_canonical_of_ofDirective h
  exact ⟨d, hd, rfl, Segment.ofDirective_display hd offset⟩

/-- A late name that is no plain word, a point without digits, and flags that move. -/
theorem canonical_text_inverse_moved :
    let d : Directive :=
      ⟨{ leftJustify := true, zeroPad := true }, some 12, some 0, some "a%(", .hex .upper⟩
    let t : Template := ⟨"é%0-12.(a%()X%%", [.literal "é", .directive d 2, .percent]⟩
    (d.Canonical ∧ Segment.ofDirective 5 d.display = .ok (.directive d 5)) ∧
    (Segment.ofDirective 5 "%0-12.(a%()X".toList = .ok (.directive d 5) ∧
      ∃ d' : Directive, d'.Canonical ∧ Segment.directive d 5 = .directive d' 5 ∧
        Segment.ofDirective 5 d'.display = .ok (.directive d 5)) ∧
    (Template.parse t.source = .ok t ∧ Template.parse t.display
      = .ok ⟨t.display, [.literal "é", .directive d 2, .percent]⟩) := by
  intro d t
  have hcanonical : d.Canonical :=
    ⟨by rintro name ⟨⟩; exact ⟨by decide, by decide⟩, by decide, by decide, by decide⟩
  have hread : Segment.ofDirective 5 "%0-12.(a%()X".toList = .ok (.directive d 5) := by decide
  have hparse : Template.parse t.source = .ok t := by decide +kernel
  exact ⟨⟨hcanonical, canonical_text_inverse.1 d 5 hcanonical⟩,
    ⟨hread, canonical_text_inverse.2.1 _ 5 _ hread⟩,
    ⟨hparse, canonical_text_inverse.2.2 _ t hparse⟩⟩

end ScriptBuiltins
