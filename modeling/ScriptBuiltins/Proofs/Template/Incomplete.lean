import ScriptBuiltins.Proofs.Template.Joining

/-!
Incomplete templates. Whatever can be completed is told to be incomplete, but not only that: a text
whose parts stand in an order that no directive has is told so as well.
-/
namespace ScriptBuiltins

namespace Lexeme

def IsToken (cs : List Char) : Prop := ofText cs = [.escape] ∨ ∃ body, ofText cs = [.directive body]

/-- With more put behind it, or as it is, the text is one escape or one directive. -/
def Completable (cs : List Char) : Prop := ∃ more, IsToken (cs ++ more)

/-- No front of the text is an escape or a directive. -/
def IsBroken (cs : List Char) : Prop := ∀ front, front <+: cs → ¬ IsToken front

theorem eq_nil_of_ofText {cs : List Char} (h : ofText cs = []) : cs = [] := by
  rw [← flatMap_text_ofText cs, h]
  rfl

theorem ofText_percent_cases (cs : List Char) :
    (∃ rest, cs = '%' :: rest) ∨
    (∃ body rest, splitDirective? cs = some (body, rest) ∧
      ofText ('%' :: cs) = .directive body :: ofText rest) ∨
    splitDirective? cs = none ∧ ofText ('%' :: cs) = [.broken cs] := by
  by_cases hpercent : ∃ rest, cs = '%' :: rest
  · exact .inl hpercent
  · right
    cases hsplit : splitDirective? cs with
    | some found => exact .inl ⟨found.1, found.2, rfl, ofText_directive hsplit⟩
    | none => exact .inr ⟨rfl, ofText_broken (fun rest heq => hpercent ⟨rest, heq⟩) hsplit⟩

theorem splitDirective?_of_ofText {cs body : List Char}
    (h : ofText ('%' :: cs) = [.directive body]) : splitDirective? cs = some (cs, []) := by
  obtain ⟨rest, rfl⟩ | ⟨found, rest, hsplit, htext⟩ | ⟨-, htext⟩ := ofText_percent_cases cs
  · rw [ofText] at h
    cases h
  · rw [htext] at h
    obtain rfl := eq_nil_of_ofText (List.cons.inj h).2
    have hjoin := splitDirective?_append hsplit
    rw [List.append_nil] at hjoin
    rw [hsplit, hjoin]
  · rw [htext] at h
    cases h

theorem isToken_escape : IsToken ['%', '%'] := by
  refine .inl ?_
  rw [ofText, ofText]

theorem isToken_directive {body : List Char} (h : splitDirective? body = some (body, [])) :
    IsToken ('%' :: body) := by
  refine .inr ⟨body, ?_⟩
  rw [ofText_directive h, ofText]

theorem IsToken.cases {cs : List Char} (h : IsToken cs) : cs = ['%', '%'] ∨
    ∃ body, cs = '%' :: body ∧ splitDirective? body = some (body, []) := by
  have htext := flatMap_text_ofText cs
  obtain hescape | ⟨body, hdirective⟩ := h
  · rw [hescape] at htext
    exact .inl htext.symm
  · rw [hdirective, List.flatMap_singleton, text] at htext
    subst htext
    exact .inr ⟨body, rfl, splitDirective?_of_ofText hdirective⟩

theorem isBroken_percent_iff {rest : List Char} :
    IsBroken ('%' :: rest) ↔ ofText ('%' :: rest) = [.broken rest] := by
  constructor
  · intro h
    obtain ⟨tail, rfl⟩ | ⟨body, behind, hsplit, -⟩ | ⟨-, htext⟩ := ofText_percent_cases rest
    · exact absurd isToken_escape (h _ ⟨tail, rfl⟩)
    · have hjoin : '%' :: body ++ behind = '%' :: rest := by
        rw [List.cons_append, splitDirective?_append hsplit]
      exact absurd (isToken_directive (splitDirective?_alone hsplit)) (h _ ⟨behind, hjoin⟩)
    · exact htext
  · rintro h front ⟨behind, hjoin⟩ htoken
    obtain rfl | ⟨body, rfl, hbody⟩ := htoken.cases
    · rw [← hjoin, List.cons_append, List.singleton_append, ofText] at h
      cases h
    · obtain ⟨first, middle, last, c, hfirst, hmiddle, hlast, hc, rfl⟩ :=
        exists_parts_of_splitDirective? hbody
      have hsplit := splitDirective?_run hfirst hmiddle hlast hc behind
      have hrest : first ++ (middle ++ (last ++ c :: behind)) = rest := by
        simpa using (List.cons.inj hjoin).2
      rw [hrest] at hsplit
      rw [ofText_directive hsplit] at h
      cases h

theorem IsBroken.completable_iff {rest : List Char} (h : IsBroken ('%' :: rest)) :
    Completable ('%' :: rest) ↔ OrderedFront rest := by
  constructor
  · rintro ⟨more, htoken⟩
    have hne : more ≠ [] := by
      rintro rfl
      rw [List.append_nil] at htoken
      exact h _ List.prefix_rfl htoken
    obtain hescape | ⟨body, hbody, hsplit⟩ := htoken.cases
    · have hrest : rest ++ more = ['%'] := (List.cons.inj hescape).2
      have hlength := congrArg List.length hrest
      rw [List.length_append, List.length_singleton] at hlength
      have hmore : 0 < more.length := List.length_pos_iff.mpr hne
      obtain rfl : rest = [] := List.length_eq_zero_iff.mp (by omega)
      exact ⟨[], [], [], isGroup_nil, isOrdered_nil, .inl isGroup_nil, rfl⟩
    · obtain rfl := (List.cons.inj hbody).2
      exact orderedFront_of_cut hsplit hne
  · intro hordered
    obtain ⟨more, hsplit⟩ := hordered.exists_completed
    exact ⟨more, isToken_directive hsplit⟩

theorem Loose.isBroken {n : ℕ} {rest : List Char} (h : Loose n rest) : IsBroken ('%' :: rest) :=
  isBroken_percent_iff.mpr h.ofText_percent

end Lexeme

theorem exists_of_bind_eq_error {ε α β : Type} {x : Except ε α} {f : α → Except ε β} {e : ε}
    (h : x.bind f = .error e) : x = .error e ∨ ∃ a, x = .ok a ∧ f a = .error e := by
  cases x with
  | error e' =>
    obtain rfl := Except.error.inj h
    exact .inl rfl
  | ok a => exact .inr ⟨a, rfl, h⟩

namespace Directive
open Lexeme

theorem splitGroup?_of_takeName_incomplete {cs : List Char} (h : takeName cs = .error .incomplete) :
    splitGroup? cs = none := by
  unfold takeName at h
  split at h
  · split at h
    · next hdrop => rw [splitGroup?, hdrop]
    · dsimp only at h
      split at h
      · cases h
      · cases h
  · cases h

theorem splitGroup?_of_takeName {cs rest : List Char} {name : Option String}
    (h : takeName cs = .ok (name, rest)) : ∃ group, splitGroup? cs = some (group, rest) := by
  unfold takeName at h
  split at h
  · next cs =>
    split at h
    · cases h
    · next close after hdrop =>
      dsimp only at h
      split at h
      · cases h
      · obtain ⟨-, rfl⟩ := Prod.mk.inj (Except.ok.inj h)
        rw [splitGroup?, hdrop]
        exact ⟨_, rfl⟩
  · next hparen =>
    obtain ⟨-, rfl⟩ := Prod.mk.inj (Except.ok.inj h)
    refine ⟨[], ?_⟩
    rw [splitGroup?]
    exact hparen

theorem takeCount_ne_incomplete (cs : List Char) : takeCount cs ≠ .error .incomplete := by
  intro h
  dsimp only [takeCount] at h
  split at h
  · cases h
  · split at h
    · cases h
    · cases h

theorem rest_of_takeCount {cs rest : List Char} {count : Option Nat}
    (h : takeCount cs = .ok (count, rest)) : rest = cs.dropWhile Char.isDigit := by
  dsimp only [takeCount] at h
  split at h
  · next hempty =>
    obtain ⟨-, rfl⟩ := Prod.mk.inj (Except.ok.inj h)
    have hjoin := List.takeWhile_append_dropWhile (p := Char.isDigit) (l := cs)
    rw [List.isEmpty_iff.mp hempty, List.nil_append] at hjoin
    exact hjoin.symm
  · split at h
    · exact (Prod.mk.inj (Except.ok.inj h)).2.symm
    · cases h

theorem takePrecision_ne_incomplete (cs : List Char) : takePrecision cs ≠ .error .incomplete := by
  intro h
  unfold takePrecision at h
  split at h
  · obtain hcount | ⟨taken, -, htaken⟩ := exists_of_bind_eq_error h
    · exact takeCount_ne_incomplete _ hcount
    · cases htaken
  · cases h

theorem rest_of_takePrecision {cs rest : List Char} {count : Option Nat}
    (h : takePrecision cs = .ok (count, rest)) : rest = (splitPoint cs).2 := by
  unfold takePrecision at h
  split at h
  · obtain ⟨⟨taken, after⟩, hcount, hrest⟩ := exists_of_bind_eq_ok h
    obtain ⟨-, rfl⟩ := Prod.mk.inj (Except.ok.inj hrest)
    exact rest_of_takeCount hcount
  · next hpoint =>
    obtain ⟨-, rfl⟩ := Prod.mk.inj (Except.ok.inj h)
    rw [splitPoint]
    exact hpoint

/-- The steps of a reading leave what the parts of a directive leave. So whatever is cut out as a
directive can be read to its end. -/
theorem splitDirective?_of_parseBody_incomplete {cs : List Char}
    (h : parseBody cs = .error .incomplete) : splitDirective? cs = none := by
  obtain hearly | ⟨⟨early, afterEarly⟩, hearly, h⟩ := exists_of_bind_eq_error h
  · rw [splitDirective?, splitGroup?_of_takeName_incomplete hearly]
  obtain ⟨first, hfirst⟩ := splitGroup?_of_takeName hearly
  simp only [Flags.take_eq] at h
  obtain hwidth | ⟨⟨width, afterWidth⟩, hwidth, h⟩ := exists_of_bind_eq_error h
  · exact absurd hwidth (takeCount_ne_incomplete _)
  obtain hprecision | ⟨⟨precision, afterPrecision⟩, hprecision, h⟩ := exists_of_bind_eq_error h
  · exact absurd hprecision (takePrecision_ne_incomplete _)
  have hmiddle : (splitMiddle afterEarly).2 = afterPrecision := by
    rw [rest_of_takePrecision hprecision, rest_of_takeCount hwidth]
    rfl
  obtain hlate | ⟨⟨late, afterLate⟩, hlate, h⟩ := exists_of_bind_eq_error h
  · simp only [splitDirective?, hfirst, hmiddle, splitGroup?_of_takeName_incomplete hlate]
  obtain ⟨last, hlast⟩ := splitGroup?_of_takeName hlate
  have hend : afterLate = [] := by
    cases honce : early.isSome && late.isSome with
    | true =>
      simp only [honce, if_true] at h
      cases h
    | false =>
      simp only [honce, Bool.false_eq_true, if_false] at h
      obtain hconversion | ⟨conversion, -, hread⟩ := exists_of_bind_eq_error h
      · unfold takeConversion at hconversion
        split at hconversion
        · rfl
        · split at hconversion
          · cases hconversion
          · cases hconversion
        · cases hconversion
      · cases hread
  subst hend
  simp only [splitDirective?, hfirst, hmiddle, hlast]

end Directive

namespace Piece
open Lexeme

theorem FailsAtFront.of_isBroken {rest : List Char} (h : IsBroken ('%' :: rest)) :
    FailsAtFront ('%' :: rest) (faultOf rest) := by
  have htext := isBroken_percent_iff.mp h
  have hpercent : ∀ tail, rest = '%' :: tail → False := by
    rintro tail rfl
    rw [ofText] at htext
    cases htext
  refine .broken hpercent ?_
  obtain ⟨tail, hrest⟩ | ⟨body, behind, -, hdirective⟩ | ⟨hsplit, -⟩ := ofText_percent_cases rest
  · exact (hpercent tail hrest).elim
  · rw [hdirective] at htext
    cases htext
  · exact hsplit

/-- Only a percent sign that is broken is told to be incomplete, never a directive. -/
theorem FailsAtFront.exists_loose {cs : List Char} {fault : Fault} (h : FailsAtFront cs fault)
    (hfault : fault = .incomplete) : ∃ rest, cs = '%' :: rest ∧ Loose 2 rest := by
  cases h with
  | broken hpercent hsplit => exact ⟨_, rfl, (faultOf_eq_incomplete_iff_loose _).mp hfault⟩
  | directive hsplit hread =>
    subst hfault
    have hnone := Directive.splitDirective?_of_parseBody_incomplete hread
    rw [splitDirective?_alone hsplit] at hnone
    cases hnone

end Piece

namespace Template
open Lexeme Piece

theorem parse_of_isBroken {before : String} {rest : List Char} {t : Template}
    (hbefore : parse before = .ok t) (h : IsBroken ('%' :: rest)) :
    parse (before ++ String.ofList ('%' :: rest))
      = .error ⟨faultOf rest, before.utf8ByteSize⟩ := by
  obtain ⟨pieces, hpieces, -⟩ := exists_pieces_of_parse hbefore
  have hfails := parse_of_decompose_failsAtFront hpieces (.of_isBroken h)
  rwa [String.ofList_toList] at hfails

theorem faultOf_eq_malformed_iff_not_loose (rest : List Char) :
    faultOf rest = .malformed ↔ ¬ Loose 2 rest := by
  rw [← faultOf_eq_incomplete_iff_loose]
  have hfaults : faultOf rest = .incomplete ∨ faultOf rest = .malformed := by
    unfold faultOf
    repeat' split
    all_goals simp
  obtain h | h := hfaults
  · simp [h]
  · simp [h]

/-- A template is told to be incomplete at a percent sign behind which the parts of a directive
stand in their order, and then the text can be completed; but also where flags, digits and points
stand around at most two groups in another order, and nothing completes that. Any other percent sign
that begins neither escape nor directive is told to be malformed. -/
theorem parse_incomplete (source : String) (offset : ℕ) :
    (parse source = .error ⟨.incomplete, offset⟩ ↔
      ∃ (before : String) (rest : List Char) (t : Template),
        source = before ++ String.ofList ('%' :: rest) ∧ before.utf8ByteSize = offset ∧
        parse before = .ok t ∧ IsBroken ('%' :: rest) ∧
        (OrderedFront rest ∧ Completable ('%' :: rest) ∨
          Loose 2 rest ∧ ¬ OrderedFront rest ∧ ¬ Completable ('%' :: rest))) ∧
    ∀ (before : String) (rest : List Char) (t : Template),
      source = before ++ String.ofList ('%' :: rest) → before.utf8ByteSize = offset →
      parse before = .ok t → IsBroken ('%' :: rest) →
      (parse source = .error ⟨.malformed, offset⟩ ↔ ¬ Loose 2 rest) := by
  refine ⟨⟨fun h => ?_, ?_⟩, ?_⟩
  · obtain ⟨pieces, before, after, hpieces, hjoin, hfails, hoffset⟩ := exists_leftmost_of_parse h
    obtain ⟨rest, rfl, hloose⟩ := hfails.exists_loose rfl
    refine ⟨_, rest, _, hjoin, hoffset.symm, parse_of_decompose hpieces, hloose.isBroken, ?_⟩
    rw [hloose.isBroken.completable_iff]
    by_cases hordered : OrderedFront rest
    · exact .inl ⟨hordered, hordered⟩
    · exact .inr ⟨hloose, hordered, hordered⟩
  · rintro ⟨before, rest, t, rfl, rfl, hbefore, hbroken, hrest⟩
    have hloose : Loose 2 rest := by
      obtain ⟨hordered, -⟩ | ⟨hloose, -⟩ := hrest
      · exact hordered.loose
      · exact hloose
    rw [parse_of_isBroken hbefore hbroken, (faultOf_eq_incomplete_iff_loose rest).mpr hloose]
  · rintro before rest t rfl rfl hbefore hbroken
    rw [parse_of_isBroken hbefore hbroken, ← faultOf_eq_malformed_iff_not_loose]
    simp

/-- Cut off within a second name, where the whole would be a directive, though one that is refused;
and a letter outside ASCII, which ends no directive. -/
theorem parse_incomplete_second_name : parse "é%(a)-5.(b" = .error ⟨.incomplete, 2⟩ ∧
    Completable ('%' :: "(a)-5.(b".toList) ∧ parse "é%5é" = .error ⟨.malformed, 2⟩ := by
  have hgroup : IsGroup "(a)".toList := ⟨some ['a'], by simp, rfl⟩
  have hordered : IsOrdered "-5.".toList :=
    ⟨['-'], ['5'], some [], List.forall_mem_singleton.mpr rfl, List.forall_mem_singleton.mpr rfl,
      by simp, rfl⟩
  have hopen : IsOpenGroup "(b".toList := ⟨['b'], by decide, rfl⟩
  have hfront : OrderedFront "(a)-5.(b".toList :=
    ⟨_, _, _, hgroup, hordered, .inr hopen, rfl⟩
  have hbefore : parse "é" = .ok ⟨"é", [.literal "é"]⟩ := by decide +kernel
  have hcut : IsBroken ('%' :: "(a)-5.(b".toList) := hfront.loose.isBroken
  have hcompletable := hcut.completable_iff.mpr hfront
  have hletter : IsBroken ('%' :: "5é".toList) :=
    isBroken_percent_iff.mpr (ofText_broken (fun rest heq => by cases heq) rfl)
  refine ⟨(parse_incomplete _ _).1.mpr ⟨"é", _, _, ?_, by decide, hbefore, hcut,
    .inl ⟨hfront, hcompletable⟩⟩, hcompletable,
    ((parse_incomplete _ _).2 "é" _ _ ?_ (by decide) hbefore hletter).mpr ?_⟩
  · decide
  · decide
  · rw [← faultOf_eq_malformed_iff_not_loose]
    rfl

/-- A flag behind the width is told to be incomplete, though nothing completes it. -/
theorem parse_flag_behind_width : parse "%5-" = .error ⟨.incomplete, 0⟩ ∧
    ¬ Completable "%5-".toList := by
  refine ⟨by decide +kernel, ?_⟩
  rintro ⟨more, htoken⟩
  have hbroken : ofText ("%5-".toList ++ more) = [.broken ('5' :: '-' :: more)] :=
    ofText_broken (fun rest heq => absurd (List.cons.inj heq).1 (by decide)) rfl
  rw [IsToken, hbroken] at htoken
  obtain htoken | ⟨body, htoken⟩ := htoken
  · cases htoken
  · cases htoken

end Template
end ScriptBuiltins
