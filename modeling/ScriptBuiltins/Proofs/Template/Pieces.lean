import Mathlib.Data.List.Chain
import ScriptBuiltins.Proofs.Template.Reading
import ScriptBuiltins.Template.Basic

/-! The language of templates: joined pieces, which are plain text, percent escapes and written
directives. A template is read exactly when its text is of this language. -/
namespace ScriptBuiltins
open Lexeme

inductive Piece where
  | literal (text : List Char)
  | escape
  | directive (form : DirectiveForm)

namespace Piece

def text : Piece → List Char
  | .literal cs => cs
  | .escape => ['%', '%']
  | .directive f => '%' :: f.body

def WellFormed : Piece → Prop
  | .literal cs => cs ≠ [] ∧ '%' ∉ cs
  | .escape => True
  | .directive f => f.WellFormed

def IsLiteral : Piece → Prop
  | .literal _ => True
  | _ => False

def lexeme : Piece → Lexeme
  | .literal cs => .literal cs
  | .escape => .escape
  | .directive f => .directive f.body

def segment (offset : Nat) : Piece → Segment
  | .literal cs => .literal (String.ofList cs)
  | .escape => .percent
  | .directive f => .directive f.reading offset

def segments (offset : Nat) : List Piece → List Segment
  | [] => []
  | p :: ps => p.segment offset :: segments (offset + utf8Length p.text) ps

/-- A text is taken apart into pieces. No two literals stand side by side, so that each of them is as
long as it can be. -/
structure Decompose (pieces : List Piece) (cs : List Char) : Prop where
  wellFormed : ∀ p ∈ pieces, p.WellFormed
  apart : pieces.IsChain fun a b => ¬ (a.IsLiteral ∧ b.IsLiteral)
  text : pieces.flatMap Piece.text = cs

theorem text_lexeme (p : Piece) : p.lexeme.text = p.text := by
  cases p <;> rfl

theorem head_text {p : Piece} (h : p.WellFormed) : ∃ c cs, p.text = c :: cs ∧
    (c = '%' ↔ ¬ p.IsLiteral) := by
  cases p with
  | literal cs =>
    obtain ⟨hne, hplain⟩ := h
    obtain ⟨c, cs, rfl⟩ := List.exists_cons_of_ne_nil hne
    have hc : c ≠ '%' := fun he => hplain (by simp [he])
    exact ⟨c, cs, rfl, by simp [hc, IsLiteral]⟩
  | escape => exact ⟨_, _, rfl, by simp [IsLiteral]⟩
  | directive f => exact ⟨_, _, rfl, by simp [IsLiteral]⟩

/-- The text of pieces prolongs plain text in front of it exactly if the first of them is a literal. -/
theorem Decompose.stops_iff {pieces : List Piece} {cs : List Char} (h : Decompose pieces cs) :
    Stops (· != '%') cs ↔ ∀ p ∈ pieces.head?, ¬ p.IsLiteral := by
  obtain ⟨hwell, -, rfl⟩ := h
  cases pieces with
  | nil => simp [stops_nil]
  | cons p ps =>
    obtain ⟨c, cs, htext, hc⟩ := head_text (hwell p (by simp))
    simp [htext, stops_cons, hc]

theorem Decompose.tail {p : Piece} {ps : List Piece} {cs : List Char}
    (h : Decompose (p :: ps) cs) : Decompose ps (ps.flatMap Piece.text) where
  wellFormed := fun q hq => h.wellFormed q (List.mem_cons_of_mem p hq)
  apart := h.apart.of_cons
  text := rfl

theorem Decompose.cons {p : Piece} {ps : List Piece} {cs : List Char} (hp : p.WellFormed)
    (h : Decompose ps cs) (hstop : p.IsLiteral → Stops (· != '%') cs) :
    Decompose (p :: ps) (p.text ++ cs) where
  wellFormed := List.forall_mem_cons.mpr ⟨hp, h.wellFormed⟩
  apart := by
    refine List.isChain_cons.mpr ⟨?_, h.apart⟩
    intro q hq hboth
    exact h.stops_iff.mp (hstop hboth.1) q hq hboth.2
  text := by rw [List.flatMap_cons, h.text]

end Piece

namespace Lexeme

theorem splitDirective?_percent (cs : List Char) : splitDirective? ('%' :: cs) = none := by
  simp [splitDirective?, splitGroup?, splitMiddle, splitPoint, isFlag]

theorem ofText_directive {cs body rest : List Char} (h : splitDirective? cs = some (body, rest)) :
    ofText ('%' :: cs) = .directive body :: ofText rest := by
  have hpercent : ∀ tail, cs = '%' :: tail → False := by
    rintro tail rfl
    rw [splitDirective?_percent] at h
    contradiction
  rw [ofText.eq_3 cs hpercent]
  split
  · rename_i body' rest' heq
    obtain ⟨rfl, rfl⟩ := Prod.mk.inj (Option.some.inj (heq.symm.trans h))
    rfl
  · rename_i heq
    rw [h] at heq
    contradiction

theorem ofText_literal {c : Char} (hc : c ≠ '%') (cs : List Char) : ofText (c :: cs)
    = .literal (c :: cs.takeWhile (· != '%')) :: ofText (cs.dropWhile (· != '%')) := by
  rw [ofText.eq_4 c cs (fun rest he _ => hc he) hc]

/-- The pieces at the front of a text are its first lexemes, if what follows cannot prolong the last
of them. -/
theorem ofText_append {pieces : List Piece} {cs rest : List Char} (h : Piece.Decompose pieces cs)
    (hend : ∀ p ∈ pieces.getLast?, p.IsLiteral → Stops (· != '%') rest) :
    ofText (cs ++ rest) = pieces.map Piece.lexeme ++ ofText rest := by
  obtain rfl := h.text
  induction pieces with
  | nil => rfl
  | cons p ps ih =>
    have htail : ofText (ps.flatMap Piece.text ++ rest) = ps.map Piece.lexeme ++ ofText rest := by
      cases ps with
      | nil => rfl
      | cons q qs => exact ih hend h.tail
    have hp := h.wellFormed p (by simp)
    rw [List.flatMap_cons, List.map_cons, List.append_assoc, List.cons_append, ← htail]
    cases p with
    | literal cs =>
      obtain ⟨hne, hplain⟩ := hp
      obtain ⟨c, cs, rfl⟩ := List.exists_cons_of_ne_nil hne
      rw [List.mem_cons, not_or] at hplain
      have hrun : ∀ d ∈ cs, (d != '%') = true := by
        intro d hd
        have hne : d ≠ '%' := fun he => hplain.2 (he ▸ hd)
        simpa using hne
      have hstop : Stops (· != '%') (ps.flatMap Piece.text ++ rest) := by
        cases ps with
        | nil => exact hend _ rfl trivial
        | cons q qs =>
          obtain ⟨c, cs, htext, hc⟩ := Piece.head_text (h.wellFormed q (by simp))
          have hq : ¬ q.IsLiteral := fun hliteral =>
            (List.isChain_cons.mp h.apart).1 q rfl ⟨trivial, hliteral⟩
          rw [List.flatMap_cons, htext]
          exact stops_cons.mpr (by simp [hc.mpr hq])
      show ofText (c :: (cs ++ (ps.flatMap Piece.text ++ rest))) = _
      rw [ofText_literal (Ne.symm hplain.1), takeWhile_run hrun hstop, dropWhile_run hrun hstop]
      rfl
    | escape =>
      show ofText ('%' :: '%' :: (ps.flatMap Piece.text ++ rest)) = _
      rw [ofText]
      rfl
    | directive f =>
      exact ofText_directive (DirectiveForm.WellFormed.splitDirective?_body hp _)

theorem ofText_pieces {pieces : List Piece} {cs : List Char} (h : Piece.Decompose pieces cs) :
    ofText cs = pieces.map Piece.lexeme := by
  have happend := ofText_append h fun _ _ _ => stops_nil _
  rwa [List.append_nil, ofText, List.append_nil] at happend

end Lexeme

namespace Segment

theorem ofDirective_eq_ok {cs : List Char} {d : Directive} (h : Directive.parseBody cs = .ok d)
    (offset : Nat) : ofDirective offset ('%' :: cs) = .ok (.directive d offset) := by
  simp [ofDirective, Directive.parse, h]

theorem exists_form_of_ofDirective {cs : List Char} {offset : Nat} {s : Segment}
    (h : ofDirective offset cs = .ok s) : ∃ f : DirectiveForm, f.WellFormed ∧
      '%' :: f.body = cs ∧ s = .directive f.reading offset := by
  cases hparse : Directive.parse cs with
  | error fault => simp [ofDirective, hparse] at h
  | ok d =>
    simp only [ofDirective, hparse, Except.ok.injEq] at h
    unfold Directive.parse at hparse
    split at hparse
    · obtain ⟨f, hf, rfl, rfl⟩ := Directive.exists_form_of_parseBody hparse
      exact ⟨f, hf, rfl, h.symm⟩
    · contradiction

theorem ofLexeme_piece {p : Piece} (h : p.WellFormed) (offset : Nat) :
    ofLexeme offset p.lexeme = .ok (p.segment offset) := by
  cases p with
  | literal cs => rfl
  | escape => rfl
  | directive f => exact ofDirective_eq_ok (Directive.parseBody_body h) offset

theorem ofLexemes_append {pieces : List Piece} (h : ∀ p ∈ pieces, p.WellFormed) (offset : Nat)
    (ls : List Lexeme) : ofLexemes offset (pieces.map Piece.lexeme ++ ls)
      = (ofLexemes (offset + utf8Length (pieces.flatMap Piece.text)) ls).map
        (Piece.segments offset pieces ++ ·) := by
  induction pieces generalizing offset with
  | nil =>
    show ofLexemes offset ls = (ofLexemes offset ls).map fun segments => segments
    cases ofLexemes offset ls <;> rfl
  | cons p ps ih =>
    obtain ⟨hp, hps⟩ := List.forall_mem_cons.mp h
    rw [List.flatMap_cons, utf8Length_append, ← Nat.add_assoc]
    simp only [List.map_cons, List.cons_append, ofLexemes, bind, Except.bind, ofLexeme_piece hp,
      Piece.text_lexeme, ih hps, Piece.segments]
    cases ofLexemes (offset + utf8Length p.text + utf8Length (ps.flatMap Piece.text)) ls <;> rfl

theorem ofLexemes_pieces {pieces : List Piece} (h : ∀ p ∈ pieces, p.WellFormed) (offset : Nat) :
    ofLexemes offset (pieces.map Piece.lexeme) = .ok (Piece.segments offset pieces) := by
  have happend := ofLexemes_append h offset []
  rwa [List.append_nil, ofLexemes, Except.map, List.append_nil] at happend

theorem ofLexemes_cons_ok {l : Lexeme} {ls : List Lexeme} {offset : Nat} {segments : List Segment}
    (h : ofLexemes offset (l :: ls) = .ok segments) : ∃ s rest, ofLexeme offset l = .ok s ∧
      ofLexemes (offset + utf8Length l.text) ls = .ok rest ∧ segments = s :: rest := by
  obtain ⟨s, hs, h⟩ := exists_of_bind_eq_ok h
  obtain ⟨rest, hrest, h⟩ := exists_of_bind_eq_ok h
  exact ⟨s, rest, hs, hrest, (Except.ok.inj h).symm⟩

theorem exists_piece_of_ofLexeme {l : Lexeme} {offset : Nat} {s : Segment}
    (h : ofLexeme offset l = .ok s) (hplain : ∀ cs, l = .literal cs → cs ≠ [] ∧ '%' ∉ cs) :
    ∃ p : Piece, p.WellFormed ∧ p.lexeme = l ∧ p.segment offset = s := by
  cases l with
  | literal cs => exact ⟨.literal cs, hplain cs rfl, rfl, Except.ok.inj h⟩
  | escape => exact ⟨.escape, trivial, rfl, Except.ok.inj h⟩
  | directive body =>
    obtain ⟨f, hf, htext, rfl⟩ := exists_form_of_ofDirective h
    obtain rfl := (List.cons.inj htext).2
    exact ⟨.directive f, hf, rfl, rfl⟩
  | broken rest => simp [ofLexeme] at h

theorem exists_pieces_of_ofLexemes {cs : List Char} {offset : Nat} {segments : List Segment}
    (h : ofLexemes offset (Lexeme.ofText cs) = .ok segments) :
    ∃ pieces, Piece.Decompose pieces cs ∧ segments = Piece.segments offset pieces := by
  have hstep {l : Lexeme} {offset : Nat} {rest : List Char} {s : Segment}
      {segments : List Segment} (hs : ofLexeme offset l = .ok s)
      (hrest : ∃ ps, Piece.Decompose ps rest ∧
        segments = Piece.segments (offset + utf8Length l.text) ps)
      (hplain : ∀ cs, l = .literal cs → (cs ≠ [] ∧ '%' ∉ cs) ∧ Stops (· != '%') rest) :
      ∃ ps, Piece.Decompose ps (l.text ++ rest) ∧ s :: segments = Piece.segments offset ps := by
    obtain ⟨p, hp, rfl, rfl⟩ := exists_piece_of_ofLexeme hs fun cs hcs => (hplain cs hcs).1
    obtain ⟨ps, hps, rfl⟩ := hrest
    rw [Piece.text_lexeme]
    refine ⟨p :: ps, hps.cons hp ?_, rfl⟩
    intro hliteral
    cases p with
    | literal cs => exact (hplain cs rfl).2
    | escape => exact hliteral.elim
    | directive f => exact hliteral.elim
  fun_induction Lexeme.ofText cs generalizing offset segments with
  | case1 =>
    obtain rfl := Except.ok.inj h
    exact ⟨[], ⟨by simp, .nil, rfl⟩, rfl⟩
  | case2 rest ih =>
    obtain ⟨s, segments, hs, hrest, rfl⟩ := ofLexemes_cons_ok h
    exact hstep hs (ih hrest) (by simp)
  | case3 cs hpercent body rest hsplit ih =>
    obtain ⟨s, segments, hs, hrest, rfl⟩ := ofLexemes_cons_ok h
    rw [← splitDirective?_append hsplit]
    exact hstep hs (ih hrest) (by simp)
  | case4 cs hpercent hsplit => contradiction
  | case5 c cs hescape hpercent ih =>
    obtain ⟨s, segments, hs, hrest, rfl⟩ := ofLexemes_cons_ok h
    have hjoin : c :: cs = (c :: cs.takeWhile (· != '%')) ++ cs.dropWhile (· != '%') := by
      simp
    rw [hjoin]
    refine hstep hs (ih hrest) ?_
    rintro run hrun
    obtain rfl := Lexeme.literal.inj hrun
    refine ⟨⟨by simp, ?_⟩, stops_dropWhile _ _⟩
    intro hmem
    cases List.mem_cons.mp hmem with
    | inl hc => exact hpercent hc.symm
    | inr hmem => exact not_mem_takeWhile_ne '%' cs hmem

end Segment

theorem Template.exists_pieces_of_parse {source : String} {t : Template}
    (h : Template.parse source = .ok t) : ∃ pieces : List Piece,
      Piece.Decompose pieces source.toList ∧ t = ⟨source, Piece.segments 0 pieces⟩ := by
  obtain ⟨segments, hsegments, h⟩ := exists_of_bind_eq_ok h
  obtain ⟨pieces, hpieces, rfl⟩ := Segment.exists_pieces_of_ofLexemes hsegments
  exact ⟨pieces, hpieces, (Except.ok.inj h).symm⟩

theorem Template.parse_pieces {source : String} {pieces : List Piece}
    (h : Piece.Decompose pieces source.toList) :
    Template.parse source = .ok ⟨source, Piece.segments 0 pieces⟩ := by
  simp only [Template.parse, bind, Except.bind, Lexeme.ofText_pieces h,
    Segment.ofLexemes_pieces h.wellFormed]

/-- A template is read exactly if its text can be taken apart into pieces, and its segments are what
the pieces say. -/
theorem Template.parse_eq_ok_iff (source : String) (t : Template) :
    Template.parse source = .ok t ↔ ∃ pieces : List Piece,
      Piece.Decompose pieces source.toList ∧ t = ⟨source, Piece.segments 0 pieces⟩ := by
  constructor
  · exact Template.exists_pieces_of_parse
  · rintro ⟨pieces, hpieces, rfl⟩
    exact Template.parse_pieces hpieces

end ScriptBuiltins
