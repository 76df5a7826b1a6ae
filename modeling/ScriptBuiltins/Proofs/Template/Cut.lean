import ScriptBuiltins.Proofs.Template.Front
import ScriptBuiltins.Proofs.Template.Pieces

/-! Templates that were cut off. Whatever is cut inside a directive or an escape is told to be
incomplete at the place where that stands. -/
namespace ScriptBuiltins

namespace DirectiveForm
open Lexeme

/-- A form that is cut anywhere is no directive any more, and told to be incomplete. -/
theorem WellFormed.ofText_cut {f : DirectiveForm} (h : f.WellFormed) {as bs : List Char}
    (hbody : f.body = as ++ bs) (hne : bs ≠ []) :
    ofText ('%' :: as) = [.broken as] ∧ faultOf as = .incomplete := by
  have hwhole : splitDirective? (as ++ bs) = some (as ++ bs, []) := by
    have hsplit := h.splitDirective?_body []
    rwa [List.append_nil, hbody] at hsplit
  have hloose := (orderedFront_of_cut hwhole hne).loose
  exact ⟨hloose.ofText_percent, (faultOf_eq_incomplete_iff_loose as).mpr hloose⟩

end DirectiveForm

namespace Piece

theorem segments_append (ps qs : List Piece) (offset : Nat) : segments offset (ps ++ qs)
    = segments offset ps ++ segments (offset + utf8Length (ps.flatMap text)) qs := by
  induction ps generalizing offset with
  | nil => rfl
  | cons p ps ih =>
    rw [List.cons_append, segments, segments, ih, List.flatMap_cons, utf8Length_append,
      Nat.add_assoc, List.cons_append]

theorem length_segments (ps : List Piece) (offset : Nat) :
    (segments offset ps).length = ps.length := by
  induction ps generalizing offset with
  | nil => rfl
  | cons p ps ih => rw [segments, List.length_cons, List.length_cons, ih]

theorem take_segments (ps qs : List Piece) (offset : Nat) :
    (segments offset (ps ++ qs)).take ps.length = segments offset ps := by
  rw [segments_append, ← length_segments ps offset, List.take_left]

theorem Decompose.of_append {ps qs : List Piece} {cs : List Char} (h : Decompose (ps ++ qs) cs) :
    Decompose ps (ps.flatMap Piece.text) where
  wellFormed := fun p hp => h.wellFormed p (List.mem_append_left qs hp)
  apart := h.apart.left_of_append
  text := rfl

theorem Decompose.cut_literal {ps qs : List Piece} {as bs cs : List Char}
    (h : Decompose (ps ++ .literal (as ++ bs) :: qs) cs) (hne : as ≠ []) :
    Decompose (ps ++ [.literal as]) (ps.flatMap Piece.text ++ as) where
  wellFormed := by
    have hliteral : (as ++ bs) ≠ [] ∧ '%' ∉ as ++ bs := h.wellFormed (.literal (as ++ bs)) (by simp)
    intro p hp
    obtain hp | hp := List.mem_append.mp hp
    · exact h.wellFormed p (List.mem_append_left _ hp)
    · obtain rfl := List.mem_singleton.mp hp
      exact ⟨hne, fun hmem => hliteral.2 (List.mem_append_left bs hmem)⟩
  apart := by
    have hchain := h.apart
    rw [List.isChain_append] at hchain ⊢
    refine ⟨hchain.1, .singleton _, ?_⟩
    intro p hp q hq hboth
    obtain rfl := Option.some.inj hq
    exact hchain.2.2 p hp _ rfl ⟨hboth.1, trivial⟩
  text := by simp [Piece.text]

/-- A piece that is cut and is no plain text ends the reading. -/
theorem ofText_cut {p : Piece} (h : p.WellFormed) (hp : ¬ p.IsLiteral) {as bs : List Char}
    (htext : p.text = as ++ bs) (has : as ≠ []) (hbs : bs ≠ []) :
    ∃ rest, as = '%' :: rest ∧ Lexeme.ofText as = [.broken rest] ∧
      Lexeme.faultOf rest = .incomplete := by
  obtain ⟨c, rest, rfl⟩ := List.exists_cons_of_ne_nil has
  cases p with
  | literal cs => exact absurd trivial hp
  | escape =>
    obtain ⟨rfl, htail⟩ := List.cons.inj htext
    cases rest with
    | nil => exact ⟨[], rfl, Lexeme.ofText_broken (by simp) rfl, rfl⟩
    | cons d rest =>
      have hnil := (List.cons.inj htail).2
      exact absurd (List.append_eq_nil_iff.mp hnil.symm).2 hbs
  | directive f =>
    obtain ⟨rfl, htail⟩ := List.cons.inj htext
    have hf : f.WellFormed := h
    obtain ⟨hlexemes, hfault⟩ := hf.ofText_cut htail hbs
    exact ⟨rest, rfl, hlexemes, hfault⟩

/-- What the front of joined pieces is read as, given the segments of all of them: the segments that
end in it, and the plain text that it cuts. If it cuts anything else, that is incomplete. -/
inductive Cut (segments : List Segment) (pieces : List Piece) :
    List Char → Except TemplateError (List Segment) → Prop
  | between {before after : List Piece} (h : pieces = before ++ after) :
      Cut segments pieces (before.flatMap text) (.ok (segments.take before.length))
  | literal {before after : List Piece} {as bs : List Char}
      (h : pieces = before ++ .literal (as ++ bs) :: after) (has : as ≠ []) (hbs : bs ≠ []) :
      Cut segments pieces (before.flatMap text ++ as)
        (.ok (segments.take before.length ++ [.literal (String.ofList as)]))
  | inside {before after : List Piece} {p : Piece} {as bs : List Char}
      (h : pieces = before ++ p :: after) (hp : ¬ p.IsLiteral) (htext : p.text = as ++ bs)
      (has : as ≠ []) (hbs : bs ≠ []) :
      Cut segments pieces (before.flatMap text ++ as)
        (.error ⟨.incomplete, utf8Length (before.flatMap text)⟩)

/-- Wherever joined pieces are cut, it is between two of them or within one. -/
theorem exists_place {pieces : List Piece} {as bs : List Char}
    (h : as ++ bs = pieces.flatMap text) :
    ∃ before after part, pieces = before ++ after ∧ as = before.flatMap text ++ part ∧
      (part = [] ∨ ∃ p later rest, after = p :: later ∧ p.text = part ++ rest ∧ part ≠ [] ∧
        rest ≠ []) := by
  induction pieces generalizing as with
  | nil =>
    obtain ⟨rfl, -⟩ := List.append_eq_nil_iff.mp h
    exact ⟨[], [], [], rfl, rfl, .inl rfl⟩
  | cons p ps ih =>
    rw [List.flatMap_cons] at h
    obtain ⟨rest, htext, -⟩ | ⟨more, rfl, hmore⟩ := List.append_eq_append_iff.mp h
    · by_cases has : as = []
      · exact ⟨[], p :: ps, [], rfl, has, .inl rfl⟩
      · by_cases hrest : rest = []
        · refine ⟨[p], ps, [], rfl, ?_, .inl rfl⟩
          simp [htext, hrest]
        · exact ⟨[], p :: ps, as, rfl, rfl, .inr ⟨p, ps, rest, rfl, htext, has, hrest⟩⟩
    · obtain ⟨before, after, part, rfl, rfl, hpart⟩ := ih hmore.symm
      exact ⟨p :: before, after, part, rfl, by simp, hpart⟩

theorem exists_cut (segments : List Segment) {pieces : List Piece} {as : List Char}
    (h : as <+: pieces.flatMap text) : ∃ result, Cut segments pieces as result := by
  obtain ⟨bs, h⟩ := h
  obtain ⟨before, after, part, hpieces, rfl, hpart⟩ := exists_place h
  obtain rfl | ⟨p, later, rest, rfl, htext, hne, hrest⟩ := hpart
  · rw [List.append_nil]
    exact ⟨_, .between hpieces⟩
  · cases p with
    | literal cs =>
      have hcs : cs = part ++ rest := htext
      subst hcs
      exact ⟨_, .literal hpieces hne hrest⟩
    | escape => exact ⟨_, .inside hpieces id htext hne hrest⟩
    | directive f => exact ⟨_, .inside hpieces id htext hne hrest⟩

theorem Cut.isPrefix {segments : List Segment} {pieces : List Piece} {as : List Char}
    {result : Except TemplateError (List Segment)} (h : Cut segments pieces as result) :
    as <+: pieces.flatMap text := by
  cases h with
  | between h =>
    rw [h, List.flatMap_append]
    exact List.prefix_append _ _
  | @literal before after as bs h =>
    refine ⟨bs ++ after.flatMap text, ?_⟩
    simp [h, text]
  | @inside before after p as bs h hp htext =>
    refine ⟨bs ++ after.flatMap text, ?_⟩
    simp [h, htext]

end Piece

namespace Template
open Piece

theorem parse_of_decompose {pieces : List Piece} {cs : List Char} (h : Decompose pieces cs) :
    parse (String.ofList cs) = .ok ⟨String.ofList cs, Piece.segments 0 pieces⟩ := by
  apply parse_pieces
  rwa [String.toList_ofList]

theorem parse_inside {before after : List Piece} {p : Piece} {as bs cs : List Char}
    (h : Decompose (before ++ p :: after) cs) (hp : ¬ p.IsLiteral) (htext : p.text = as ++ bs)
    (has : as ≠ []) (hbs : bs ≠ []) :
    parse (String.ofList (before.flatMap text ++ as))
      = .error ⟨.incomplete, utf8Length (before.flatMap text)⟩ := by
  obtain ⟨rest, rfl, hbroken, hfault⟩ := ofText_cut (h.wellFormed p (by simp)) hp htext has hbs
  have hbefore := h.of_append
  have hlexemes := @Lexeme.ofText_append before _ ('%' :: rest) hbefore
    fun _ _ _ => stops_cons.mpr (by decide)
  have hsegments := Segment.ofLexemes_append hbefore.wellFormed 0 [.broken rest]
  rw [parse, String.toList_ofList, hlexemes, hbroken, hsegments]
  simp [Segment.ofLexemes, Segment.ofLexeme, hfault, bind, Except.bind, Except.map]

theorem parse_of_cut {pieces : List Piece} {cs as : List Char} (h : Decompose pieces cs)
    {result : Except TemplateError (List Segment)}
    (hcut : Cut (Piece.segments 0 pieces) pieces as result) :
    parse (String.ofList as) = result.map (⟨String.ofList as, ·⟩) := by
  cases hcut with
  | between hpieces =>
    subst hpieces
    rw [take_segments, parse_of_decompose h.of_append]
    rfl
  | literal hpieces has hbs =>
    subst hpieces
    rw [take_segments, parse_of_decompose (h.cut_literal has), segments_append]
    rfl
  | inside hpieces hp htext has hbs =>
    subst hpieces
    exact parse_inside h hp htext has hbs

/-- A template that can be read is, cut off anywhere, read up to the cut, or else told to be
incomplete where the piece stands that is cut. -/
theorem parse_front_iff {source : String} {t : Template} (h : parse source = .ok t) :
    ∃ pieces : List Piece, Decompose pieces source.toList ∧ t.segments = Piece.segments 0 pieces ∧
      ∀ (as : List Char) (result : Except TemplateError (List Segment)),
        Cut t.segments pieces as result ↔ as <+: source.toList ∧
          parse (String.ofList as) = result.map (⟨String.ofList as, ·⟩) := by
  obtain ⟨pieces, hpieces, rfl⟩ := exists_pieces_of_parse h
  refine ⟨pieces, hpieces, rfl, fun as result => ?_⟩
  constructor
  · intro hcut
    exact ⟨hpieces.text ▸ hcut.isPrefix, parse_of_cut hpieces hcut⟩
  · rintro ⟨hfront, hparse⟩
    obtain ⟨found, hcut⟩ := exists_cut (Piece.segments 0 pieces) (hpieces.text.symm ▸ hfront)
    rw [parse_of_cut hpieces hcut] at hparse
    have hsame : found = result := by
      cases found <;> cases result <;> simp_all [Except.map]
    exact hsame ▸ hcut

theorem parse_front_late_name :
    let source := "é%-5.(a%b)d"
    let t : Template := ⟨source,
      [.literal "é", .directive ⟨{ leftJustify := true }, some 5, some 0, some "a%b", .decimal⟩ 2]⟩
    parse source = .ok t ∧ ∃ pieces : List Piece, Decompose pieces source.toList ∧
      Cut t.segments pieces "é%-5.(a%".toList (.error ⟨.incomplete, 2⟩) := by
  intro source t
  have hparse : parse source = .ok t := by decide +kernel
  obtain ⟨pieces, hpieces, -, hcut⟩ := parse_front_iff hparse
  exact ⟨hparse, pieces, hpieces, (hcut _ _).mpr ⟨by decide, by decide +kernel⟩⟩

end Template
end ScriptBuiltins
