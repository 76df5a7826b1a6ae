import ScriptBuiltins.Proofs.Template.Joining

/-!
Directives within templates and alone. What is read alone is what a template of one segment says, and
a directive that is cut out of a template is refused for one of its parts only.
-/
namespace ScriptBuiltins
open Lexeme

theorem bind_ite_error {ε α β : Type} (p : Prop) [Decidable p] (e : ε) (a : α)
    (f : α → Except ε β) :
    (if p then .error e else .ok a : Except ε α).bind f = if p then .error e else f a := by
  split <;> rfl

/-- A directive as it is cut out of a text, without its percent sign. Its groups may be empty or both
there, its counts have any size, and its letter need not be a conversion. -/
structure DirectiveParts where
  early : Option (List Char)
  flags : List Char
  width : List Char
  precision : Option (List Char)
  late : Option (List Char)
  letter : Char

namespace DirectiveParts

def middle (p : DirectiveParts) : List Char := p.flags ++ (p.width ++ pointText p.precision)

def body (p : DirectiveParts) : List Char :=
  groupText p.early ++ (p.middle ++ (groupText p.late ++ [p.letter]))

/-- Each part is as long as it can be, and a group belongs to the early place if it can. -/
structure WellFormed (p : DirectiveParts) : Prop where
  early : ∀ name ∈ p.early, ')' ∉ name
  flags : ∀ c ∈ p.flags, isFlag c
  width : ∀ c ∈ p.width, c.isDigit
  precision : ∀ ds ∈ p.precision, ∀ c ∈ ds, c.isDigit
  late : ∀ name ∈ p.late, ')' ∉ name
  letter : p.letter.isAlpha
  stops : Stops isFlag p.width
  inFront : p.early = none → p.middle = [] → p.late = none

def Overflows (p : DirectiveParts) : Prop :=
  wordLimit ≤ decimalValue p.width ∨ ∃ ds ∈ p.precision, wordLimit ≤ decimalValue ds

/-- The faults that the parts give cause for. -/
inductive Refused (p : DirectiveParts) : Fault → Prop
  | emptyName (h : p.early = some [] ∨ p.late = some []) : Refused p .emptyName
  | namedTwice (hearly : p.early ≠ none) (hlate : p.late ≠ none) : Refused p .namedTwice
  | malformed (h : p.Overflows) : Refused p .malformed
  | unsupported (hletter : p.letter.isAlpha) (h : Conversion.ofChar? p.letter = none) :
      Refused p (.unsupported p.letter)

/-- What reading makes of the parts: from front to back the first of them that gives cause for a
fault, and then the number of names. -/
def outcome (p : DirectiveParts) : Except Fault Directive :=
  if p.early = some [] then .error .emptyName
  else if wordLimit ≤ decimalValue p.width then .error .malformed
  else if ∃ ds ∈ p.precision, wordLimit ≤ decimalValue ds then .error .malformed
  else if p.late = some [] then .error .emptyName
  else if p.early.isSome && p.late.isSome then .error .namedTwice
  else match Conversion.ofChar? p.letter with
    | none => .error (.unsupported p.letter)
    | some conversion => .ok ⟨.ofRun p.flags, Directive.countOf p.width,
        p.precision.map decimalValue, (p.early.or p.late).map String.ofList, conversion⟩

theorem WellFormed.isOrdered {p : DirectiveParts} (h : p.WellFormed) : IsOrdered p.middle :=
  ⟨p.flags, p.width, p.precision, h.flags, h.width, h.precision, rfl⟩

theorem WellFormed.stops_early {p : DirectiveParts} (h : p.WellFormed) (hearly : p.early = none) :
    Stops (· == '(') (p.middle ++ (groupText p.late ++ [p.letter])) := by
  cases hmiddle : p.middle with
  | nil =>
    rw [h.inFront hearly hmiddle]
    exact stops_paren h.letter []
  | cons c cs =>
    refine stops_cons.mpr (beq_false_of_ne ?_)
    rintro rfl
    exact absurd (h.isOrdered.isMiddle '(' (by simp [hmiddle])) (by decide)

theorem WellFormed.parseBody_body {p : DirectiveParts} (h : p.WellFormed) :
    Directive.parseBody p.body = p.outcome := by
  have htail : Stops isMiddle (groupText p.late ++ [p.letter]) := stops_late p.late h.letter []
  have hpoint (q : Char → Bool) (hq : q '.' = false) (hmono : ∀ c, q c → isMiddle c) :
      Stops q (pointText p.precision ++ (groupText p.late ++ [p.letter])) :=
    (stops_pointText hq _).append (htail.mono hmono)
  have hflags := h.stops.append (hpoint isFlag rfl fun _ => isMiddle_of_isFlag)
  have hearly := Directive.takeName_group h.early h.stops_early
  have hwidth := Directive.takeCount_digits h.width
    (hpoint Char.isDigit rfl fun _ => isMiddle_of_isDigit)
  have hprecision := Directive.takePrecision_point h.precision htail
  have hlate := Directive.takeName_group h.late fun _ => stops_paren h.letter []
  have hnames : (p.early.map String.ofList).or (p.late.map String.ofList)
      = (p.early.or p.late).map String.ofList := by
    cases p.early <;> rfl
  simp only [Directive.parseBody, body, bind, hearly, bind_ite_error]
  simp only [middle, List.append_assoc, Flags.take_eq, Flags.adding_empty,
    takeWhile_run h.flags hflags, dropWhile_run h.flags hflags, hwidth, hprecision, hlate,
    bind_ite_error, Option.isSome_map, hnames, Directive.takeConversion, outcome]
  cases Conversion.ofChar? p.letter <;> rfl

theorem WellFormed.refused_of_outcome {p : DirectiveParts} {fault : Fault} (h : p.WellFormed)
    (hfails : p.outcome = .error fault) : p.Refused fault := by
  unfold outcome at hfails
  split at hfails
  · next hempty =>
    obtain rfl := Except.error.inj hfails
    exact .emptyName (.inl hempty)
  split at hfails
  · next hwidth =>
    obtain rfl := Except.error.inj hfails
    exact .malformed (.inl hwidth)
  split at hfails
  · next hprecision =>
    obtain rfl := Except.error.inj hfails
    exact .malformed (.inr hprecision)
  split at hfails
  · next hempty =>
    obtain rfl := Except.error.inj hfails
    exact .emptyName (.inr hempty)
  split at hfails
  · next hboth =>
    obtain rfl := Except.error.inj hfails
    rw [Bool.and_eq_true, Option.isSome_iff_ne_none, Option.isSome_iff_ne_none] at hboth
    exact .namedTwice hboth.1 hboth.2
  split at hfails
  · next hletter =>
    obtain rfl := Except.error.inj hfails
    exact .unsupported h.letter hletter
  · cases hfails

theorem Refused.exists_error {p : DirectiveParts} {fault : Fault} (h : p.Refused fault) :
    ∃ first, p.outcome = .error first := by
  unfold outcome
  split
  · exact ⟨_, rfl⟩
  split
  · exact ⟨_, rfl⟩
  split
  · exact ⟨_, rfl⟩
  split
  · exact ⟨_, rfl⟩
  split
  · exact ⟨_, rfl⟩
  next hearly hwidth hprecision hlate honce =>
  cases h with
  | emptyName h =>
    obtain h | h := h
    · exact absurd h hearly
    · exact absurd h hlate
  | namedTwice hsome hlate =>
    rw [← Option.isSome_iff_ne_none] at hsome hlate
    exact absurd (by rw [hsome, hlate]; rfl) honce
  | malformed h =>
    obtain h | h := h
    · exact absurd h hwidth
    · exact absurd h hprecision
  | unsupported hletter h =>
    rw [h]
    exact ⟨_, rfl⟩

end DirectiveParts

namespace Lexeme

theorem exists_parts {cs body rest : List Char} (h : splitDirective? cs = some (body, rest)) :
    ∃ p : DirectiveParts, p.WellFormed ∧ p.body = body := by
  rw [splitDirective?] at h
  split at h
  · cases h
  · next early behind hearly =>
    dsimp only at h
    split at h
    · next late c after hlate =>
      split at h
      · next hc =>
        obtain ⟨rfl, -⟩ := Prod.mk.inj (Option.some.inj h)
        obtain ⟨precision, hprecision, hpoint⟩ :=
          exists_point_of_splitPoint ((behind.dropWhile isFlag).dropWhile Char.isDigit)
        obtain ⟨first, hfirst, rfl⟩ := isGroup_of_splitGroup? hearly
        obtain ⟨last, hlast, rfl⟩ := isGroup_of_splitGroup? hlate
        let p : DirectiveParts := ⟨first, behind.takeWhile isFlag,
          (behind.dropWhile isFlag).takeWhile Char.isDigit, precision, last, c⟩
        have hmiddle : p.middle = (splitMiddle behind).1 := by
          simp [p, DirectiveParts.middle, splitMiddle, hpoint]
        have hwhole : behind = p.middle ++ (groupText last ++ c :: after) := by
          rw [hmiddle, splitGroup?_append hlate, splitMiddle_append]
        refine ⟨p, ⟨hfirst, List.all_eq_true.mp List.all_takeWhile,
          List.all_eq_true.mp List.all_takeWhile, hprecision, hlast, hc, ?_, ?_⟩, ?_⟩
        · have hstops := stops_dropWhile isFlag behind
          rw [← List.takeWhile_append_dropWhile (p := Char.isDigit)
            (l := behind.dropWhile isFlag)] at hstops
          exact hstops.of_append
        · rintro (rfl : first = none) hempty
          -- A group in the late place would have been found in the early one.
          have hparen := stops_of_splitGroup? hearly
          rw [← splitGroup?_append hearly, hwhole, hempty] at hparen
          show last = none
          cases last with
          | none => rfl
          | some name => exact absurd (stops_cons.mp hparen) (by decide)
        · simp [p, DirectiveParts.body, hmiddle]
      · cases h
    · cases h

theorem exists_of_mem_ofText {cs body : List Char} (h : .directive body ∈ ofText cs) :
    ∃ before behind, splitDirective? before = some (body, behind) := by
  fun_induction ofText cs with
  | case1 => cases h
  | case2 rest ih => exact ih (by simpa using h)
  | case3 cs hpercent found rest hsplit ih =>
    obtain heq | hmem := List.mem_cons.mp h
    · obtain rfl := Lexeme.directive.inj heq
      exact ⟨cs, rest, hsplit⟩
    · exact ih hmem
  | case4 cs hpercent hsplit => simp at h
  | case5 c cs hescape hpercent ih => exact ih (by simpa using h)

end Lexeme

namespace Segment
open Piece

theorem parse_of_ofDirective {text : String} {s : Segment} (h : ofDirective 0 text.toList = .ok s) :
    Template.parse text = .ok ⟨text, [s]⟩ := by
  obtain ⟨f, hf, htext, rfl⟩ := exists_form_of_ofDirective h
  have hpieces : Decompose [.directive f] text.toList :=
    ⟨List.forall_mem_singleton.mpr hf, .singleton _, by simp [Piece.text, htext]⟩
  exact Template.parse_pieces hpieces

theorem ofDirective_of_parse {t : Template} {text : String} {d : Directive} {offset : ℕ}
    (h : Template.parse text = .ok t) (hsegments : t.segments = [.directive d offset]) :
    ofDirective 0 text.toList = .ok (.directive d offset) := by
  obtain ⟨pieces, hpieces, rfl⟩ := Template.exists_pieces_of_parse h
  cases pieces with
  | nil => cases hsegments
  | cons p ps =>
    obtain ⟨hfirst, hrest⟩ := List.cons.inj hsegments
    cases ps with
    | cons q qs => cases hrest
    | nil =>
      cases p with
      | literal cs => cases hfirst
      | escape => cases hfirst
      | directive f =>
        obtain ⟨rfl, rfl⟩ := Segment.directive.inj hfirst
        have hf : f.WellFormed := hpieces.wellFormed (.directive f) (by simp)
        rw [← hpieces.text]
        simpa [Piece.text] using ofDirective_eq_ok (Directive.parseBody_body hf) 0

theorem ofDirective_eq_error_iff (offset : ℕ) (body : List Char) (e : TemplateError) :
    ofDirective offset ('%' :: body) = .error e ↔
      e.offset = offset ∧ Directive.parseBody body = .error e.fault := by
  obtain ⟨fault, place⟩ := e
  rw [ofDirective, Directive.parse]
  cases Directive.parseBody body with
  | ok d => simp
  | error found => simp [and_comm, eq_comm]

/-- A text is read as a directive exactly if it is read as a template of that one segment. A
directive that is found in a template is refused, at its own place, only for a group with nothing in
it, for two groups, for a width or a precision that does not fit a word, or for its letter; and it is
refused whenever one of these is there. -/
theorem ofDirective_agrees :
    (∀ (text : String) (d : Directive) (offset : ℕ),
      ofDirective 0 text.toList = .ok (.directive d offset) ↔
        ∃ t, Template.parse text = .ok t ∧ t.segments = [.directive d offset]) ∧
    ∀ (source : String) (body : List Char), .directive body ∈ Lexeme.ofText source.toList →
      ∃ p : DirectiveParts, p.WellFormed ∧ p.body = body ∧ ∀ offset,
        (∀ e, ofDirective offset ('%' :: body) = .error e → e.offset = offset ∧ p.Refused e.fault) ∧
        ∀ fault, p.Refused fault → ∃ e, ofDirective offset ('%' :: body) = .error e := by
  constructor
  · intro text d offset
    constructor
    · intro h
      exact ⟨_, parse_of_ofDirective h, rfl⟩
    · rintro ⟨t, ht, hsegments⟩
      exact ofDirective_of_parse ht hsegments
  · intro source body hmem
    obtain ⟨before, behind, hsplit⟩ := Lexeme.exists_of_mem_ofText hmem
    obtain ⟨p, hp, rfl⟩ := Lexeme.exists_parts hsplit
    refine ⟨p, hp, rfl, fun offset => ⟨fun e he => ?_, fun fault hfault => ?_⟩⟩
    · obtain ⟨hoffset, hfails⟩ := (ofDirective_eq_error_iff offset p.body e).mp he
      rw [hp.parseBody_body] at hfails
      exact ⟨hoffset, hp.refused_of_outcome hfails⟩
    · obtain ⟨first, hfirst⟩ := hfault.exists_error
      rw [← hp.parseBody_body] at hfirst
      exact ⟨⟨first, offset⟩, (ofDirective_eq_error_iff offset p.body _).mpr ⟨rfl, hfirst⟩⟩

/-- Two groups, an unknown letter and a width past the words, behind an escape: the width is what is
told. -/
theorem ofDirective_agrees_overflow :
    let source := "é%%%(a%)-18446744073709551616.(b)q"
    let body := "(a%)-18446744073709551616.(b)q".toList
    .directive body ∈ Lexeme.ofText source.toList ∧
      ofDirective 4 ('%' :: body) = .error ⟨.malformed, 4⟩ ∧
      ∃ p : DirectiveParts, p.body = body ∧ p.Overflows := by
  intro source body
  have hmem : .directive body ∈ Lexeme.ofText source.toList := by decide +kernel
  have herror : ofDirective 4 ('%' :: body) = .error ⟨.malformed, 4⟩ := by decide +kernel
  obtain ⟨p, -, hbody, hagrees⟩ := ofDirective_agrees.2 source body hmem
  obtain ⟨-, hrefused⟩ := (hagrees 4).1 _ herror
  cases hrefused with
  | malformed hoverflows => exact ⟨hmem, herror, p, hbody, hoverflows⟩

end Segment
end ScriptBuiltins
