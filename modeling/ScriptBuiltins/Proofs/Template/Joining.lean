import ScriptBuiltins.Proofs.Template.Cut

/-!
Templates put behind one another. Behind a template that can be read, everything is read as it is
alone, only farther along; and every error stands behind such a template.
-/
namespace ScriptBuiltins

def TemplateError.moveBy (k : ℕ) (e : TemplateError) : TemplateError :=
  { e with offset := e.offset + k }

def Segment.moveBy (k : ℕ) : Segment → Segment
  | .literal text => .literal text
  | .percent => .percent
  | .directive d offset => .directive d (offset + k)

/-- What is read, when its text stands `k` bytes farther along. -/
def movedBy {α β : Type} (k : ℕ) (move : α → β) : Except TemplateError α → Except TemplateError β
  | .ok a => .ok (move a)
  | .error e => .error (e.moveBy k)

namespace Segment

theorem ofLexeme_add (offset k : ℕ) (l : Lexeme) :
    ofLexeme (offset + k) l = movedBy k (moveBy k) (ofLexeme offset l) := by
  cases l with
  | literal cs => rfl
  | escape => rfl
  | broken rest => rfl
  | directive body =>
    simp only [ofLexeme, ofDirective]
    cases Directive.parse ('%' :: body) <;> rfl

theorem ofLexemes_add (offset k : ℕ) (ls : List Lexeme) :
    ofLexemes (offset + k) ls = movedBy k (List.map (moveBy k)) (ofLexemes offset ls) := by
  induction ls generalizing offset with
  | nil => rfl
  | cons l ls ih =>
    rw [ofLexemes, ofLexemes, ofLexeme_add, Nat.add_right_comm, ih]
    cases ofLexeme offset l with
    | error e => rfl
    | ok s => cases ofLexemes (offset + utf8Length l.text) ls <;> rfl

end Segment

namespace Piece

theorem getLast?_segments {pieces : List Piece} {cs : List Char} (offset : ℕ)
    (h : pieces.getLast? = some (.literal cs)) :
    (segments offset pieces).getLast? = some (.literal (String.ofList cs)) := by
  obtain ⟨init, rfl⟩ := List.getLast?_eq_some_iff.mp h
  rw [segments_append]
  exact List.getLast?_concat

theorem decompose_nil : Decompose [] [] := ⟨by simp, .nil, rfl⟩

/-- The text begins with a percent sign that is broken, or with a directive that cannot be read. -/
inductive FailsAtFront : List Char → Fault → Prop
  | broken {rest : List Char} (hpercent : ∀ tail, rest = '%' :: tail → False)
      (hsplit : Lexeme.splitDirective? rest = none) :
      FailsAtFront ('%' :: rest) (Lexeme.faultOf rest)
  | directive {rest body behind : List Char} {fault : Fault}
      (hsplit : Lexeme.splitDirective? rest = some (body, behind))
      (hread : Directive.parseBody body = .error fault) : FailsAtFront ('%' :: rest) fault

theorem FailsAtFront.exists_percent {cs : List Char} {fault : Fault} (h : FailsAtFront cs fault) :
    ∃ rest, cs = '%' :: rest := by
  cases h with
  | broken => exact ⟨_, rfl⟩
  | directive => exact ⟨_, rfl⟩

/-- Every text begins with joined pieces. If they are not all of it, its reading fails right behind
them. -/
theorem exists_leftmost (cs : List Char) : ∃ pieces before after, Decompose pieces before ∧
    cs = before ++ after ∧ (after = [] ∨ ∃ fault, FailsAtFront after fault) := by
  have hstep {p : Piece} {rest : List Char} (hp : p.WellFormed)
      (hstop : p.IsLiteral → Stops (· != '%') rest)
      (ih : ∃ pieces before after, Decompose pieces before ∧ rest = before ++ after ∧
        (after = [] ∨ ∃ fault, FailsAtFront after fault)) :
      ∃ pieces before after, Decompose pieces before ∧ p.text ++ rest = before ++ after ∧
        (after = [] ∨ ∃ fault, FailsAtFront after fault) := by
    obtain ⟨pieces, before, after, hpieces, rfl, hafter⟩ := ih
    refine ⟨p :: pieces, p.text ++ before, after, hpieces.cons hp fun hliteral => ?_,
      (List.append_assoc _ _ _).symm, hafter⟩
    exact (hstop hliteral).of_append
  fun_induction Lexeme.ofText cs with
  | case1 => exact ⟨[], [], [], decompose_nil, rfl, .inl rfl⟩
  | case2 rest ih => exact hstep (p := .escape) trivial False.elim ih
  | case3 cs hpercent body rest hsplit ih =>
    cases hread : Directive.parseBody body with
    | error fault =>
      exact ⟨[], [], '%' :: cs, decompose_nil, rfl, .inr ⟨fault, .directive hsplit hread⟩⟩
    | ok d =>
      obtain ⟨f, hf, rfl, -⟩ := Directive.exists_form_of_parseBody hread
      rw [← Lexeme.splitDirective?_append hsplit]
      exact hstep (p := .directive f) hf False.elim ih
  | case4 cs hpercent hsplit =>
    exact ⟨[], [], '%' :: cs, decompose_nil, rfl, .inr ⟨_, .broken hpercent hsplit⟩⟩
  | case5 c cs hescape hpercent ih =>
    have hjoin : c :: cs = (c :: cs.takeWhile (· != '%')) ++ cs.dropWhile (· != '%') := by
      simp
    have hplain : '%' ∉ c :: cs.takeWhile (· != '%') := by
      intro hmem
      cases List.mem_cons.mp hmem with
      | inl hc => exact hpercent hc.symm
      | inr hmem => exact not_mem_takeWhile_ne '%' cs hmem
    rw [hjoin]
    exact hstep (p := .literal _) ⟨by simp, hplain⟩ (fun _ => stops_dropWhile _ _) ih

end Piece

namespace Template
open Piece

/-- Behind a template that can be read, a text is read as it is alone, unless it prolongs a literal
that the template ends in. -/
theorem parse_append {p s : String} {t : Template} (h : parse p = .ok t)
    (hend : ∀ text, t.segments.getLast? = some (.literal text) → Stops (· != '%') s.toList) :
    parse (p ++ s) = movedBy p.utf8ByteSize
      (fun u => ⟨p ++ s, t.segments ++ u.segments.map (Segment.moveBy p.utf8ByteSize)⟩)
      (parse s) := by
  obtain ⟨pieces, hpieces, rfl⟩ := exists_pieces_of_parse h
  have hlexemes : Lexeme.ofText (p ++ s).toList
      = pieces.map Piece.lexeme ++ Lexeme.ofText s.toList := by
    rw [String.toList_append]
    refine Lexeme.ofText_append hpieces fun q hq hliteral => ?_
    cases q with
    | literal cs => exact hend _ (getLast?_segments 0 hq)
    | escape => exact hliteral.elim
    | directive f => exact hliteral.elim
  have hsize : utf8Length (pieces.flatMap Piece.text) = p.utf8ByteSize := by
    rw [hpieces.text, utf8Length_toList]
  rw [parse, hlexemes, Segment.ofLexemes_append hpieces.wellFormed, hsize, Segment.ofLexemes_add,
    parse]
  cases Segment.ofLexemes 0 (Lexeme.ofText s.toList) <;> rfl

theorem parse_of_failsAtFront {cs : List Char} {fault : Fault} (h : FailsAtFront cs fault) :
    parse (String.ofList cs) = .error ⟨fault, 0⟩ := by
  rw [parse, String.toList_ofList]
  cases h with
  | broken hpercent hsplit =>
    rw [Lexeme.ofText_broken hpercent hsplit]
    rfl
  | directive hsplit hread =>
    rw [Lexeme.ofText_directive hsplit]
    simp [Segment.ofLexemes, Segment.ofLexeme, Segment.ofDirective, Directive.parse, hread, bind,
      Except.bind]

theorem parse_of_decompose_failsAtFront {pieces : List Piece} {before after : List Char}
    {fault : Fault} (h : Decompose pieces before) (hfails : FailsAtFront after fault) :
    parse (String.ofList before ++ String.ofList after)
      = .error ⟨fault, (String.ofList before).utf8ByteSize⟩ := by
  have hstop : Stops (· != '%') (String.ofList after).toList := by
    obtain ⟨rest, rfl⟩ := hfails.exists_percent
    rw [String.toList_ofList]
    exact stops_cons.mpr (by decide)
  rw [parse_append (parse_of_decompose h) fun _ _ => hstop, parse_of_failsAtFront hfails, movedBy,
    TemplateError.moveBy, Nat.zero_add]

/-- An error is found at the percent sign of the leftmost bad directive. -/
theorem exists_leftmost_of_parse {source : String} {e : TemplateError}
    (h : parse source = .error e) : ∃ pieces before after, Decompose pieces before ∧
      source = String.ofList before ++ String.ofList after ∧ FailsAtFront after e.fault ∧
      e.offset = (String.ofList before).utf8ByteSize := by
  obtain ⟨pieces, before, after, hpieces, hsource, rfl | ⟨fault, hfails⟩⟩ :=
    exists_leftmost source.toList
  · rw [List.append_nil] at hsource
    rw [parse_pieces (hsource.symm ▸ hpieces)] at h
    cases h
  · have hjoin : source = String.ofList before ++ String.ofList after := by
      rw [← String.ofList_append, ← hsource, String.ofList_toList]
    have hfault := parse_of_decompose_failsAtFront hpieces hfails
    rw [← hjoin, h] at hfault
    obtain rfl := Except.error.inj hfault
    exact ⟨pieces, before, after, hpieces, hjoin, hfails, rfl⟩

/-- Templates compose: behind one that can be read, and that does not end in a literal which the
next text prolongs, the other is read as it is alone, its offsets counted from the first byte of
both. An error is always found like this, at the percent sign of the leftmost bad directive. -/
theorem parse_joined :
    (∀ (p s : String) (t : Template), parse p = .ok t →
      (s = "" ∨ s.toList.head? = some '%' ∨
        ∀ text, t.segments.getLast? ≠ some (.literal text)) →
      (∀ u, parse s = .ok u → parse (p ++ s) = .ok
        ⟨p ++ s, t.segments ++ u.segments.map (Segment.moveBy p.utf8ByteSize)⟩) ∧
      ∀ e, parse s = .error e → parse (p ++ s) = .error (e.moveBy p.utf8ByteSize)) ∧
    ∀ (source : String) (e : TemplateError), parse source = .error e →
      ∃ (before rest : String) (t : Template), source = before ++ rest ∧
        before.utf8ByteSize = e.offset ∧ rest.toList.head? = some '%' ∧ parse before = .ok t ∧
        parse rest = .error { e with offset := 0 } := by
  constructor
  · intro p s t hp hjoin
    have happend := parse_append (s := s) hp fun text htext => by
      obtain rfl | hs | hnone := hjoin
      · exact stops_nil _
      · intro c hc
        obtain rfl := Option.some.inj (hs.symm.trans hc)
        rfl
      · exact absurd htext (hnone text)
    exact ⟨fun u hu => by rw [happend, hu]; rfl, fun e he => by rw [happend, he]; rfl⟩
  · intro source e h
    obtain ⟨pieces, before, after, hpieces, hjoin, hfails, hoffset⟩ := exists_leftmost_of_parse h
    refine ⟨_, _, _, hjoin, hoffset.symm, ?_, parse_of_decompose hpieces,
      parse_of_failsAtFront hfails⟩
    obtain ⟨rest, rfl⟩ := hfails.exists_percent
    rw [String.toList_ofList]
    rfl

theorem parse_joined_multibyte :
    let t : Template :=
      ⟨"é%d", [.literal "é", .directive ⟨{}, none, none, none, .decimal⟩ 2]⟩
    let s := "ü%(é)x%5!"
    parse t.source = .ok t ∧ (∀ text, t.segments.getLast? ≠ some (.literal text)) ∧
      parse s = .error ⟨.malformed, 8⟩ ∧ parse (t.source ++ s) = .error ⟨.malformed, 12⟩ ∧
      ∃ (before rest : String) (u : Template), t.source ++ s = before ++ rest ∧
        before.utf8ByteSize = 12 ∧ rest.toList.head? = some '%' ∧ parse before = .ok u ∧
        parse rest = .error ⟨.malformed, 0⟩ := by
  intro t s
  have ht : parse t.source = .ok t := by decide +kernel
  have hend : ∀ text, t.segments.getLast? ≠ some (.literal text) := nofun
  have hs : parse s = .error ⟨.malformed, 8⟩ := by decide +kernel
  have hjoined := (parse_joined.1 t.source s t ht (.inr (.inr hend))).2 _ hs
  exact ⟨ht, hend, hs, hjoined, parse_joined.2 _ _ hjoined⟩

end Template
end ScriptBuiltins
