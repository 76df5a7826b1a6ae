import Mathlib.Data.List.TakeWhile
import ScriptBuiltins.Proofs.Template.Form

/-! Fronts of directives. A directive that was cut off has kept the order of its parts. What the
fault of a broken percent sign is told by is looser: the parts may stand in any order. -/
namespace ScriptBuiltins

theorem isPrefix_append {α : Type} {as bs cs : List α} (h : as <+: bs ++ cs) :
    as <+: bs ∨ ∃ more, as = bs ++ more ∧ more <+: cs := by
  obtain ⟨rest, h⟩ := h
  obtain ⟨more, rfl, -⟩ | ⟨more, rfl, hmore⟩ := List.append_eq_append_iff.mp h
  · exact .inl (List.prefix_append as more)
  · exact .inr ⟨more, rfl, rest, hmore.symm⟩

namespace Lexeme

def IsOpenGroup (cs : List Char) : Prop := ∃ name, ')' ∉ name ∧ cs = '(' :: name

/-- What a directive begins with: a group, flags, width and precision in their order, and a group
again, which may be cut off. -/
def OrderedFront (cs : List Char) : Prop :=
  ∃ first middle last, IsGroup first ∧ IsOrdered middle ∧ (IsGroup last ∨ IsOpenGroup last) ∧
    cs = first ++ (middle ++ last)

theorem isGroup_nil : IsGroup [] := ⟨none, by simp, rfl⟩

theorem isOrdered_nil : IsOrdered [] := ⟨[], [], none, by simp, by simp, by simp, rfl⟩

theorem IsGroup.of_prefix {group as : List Char} (h : IsGroup group) (has : as <+: group) :
    as = group ∨ as = [] ∨ IsOpenGroup as := by
  obtain ⟨name, hname, rfl⟩ := h
  cases name with
  | none => exact .inl (List.prefix_nil.mp has)
  | some name =>
    obtain hwhole | has := List.prefix_concat_iff.mp has
    · exact .inl hwhole
    · obtain rfl | ⟨front, rfl, hfront⟩ := List.prefix_cons_iff.mp has
      · exact .inr (.inl rfl)
      · exact .inr (.inr ⟨front, fun hmem => hname name rfl (hfront.subset hmem), rfl⟩)

theorem IsOrdered.of_prefix {cs as : List Char} (h : IsOrdered cs) (has : as <+: cs) :
    IsOrdered as := by
  obtain ⟨flags, width, precision, hflags, hwidth, hprecision, rfl⟩ := h
  obtain hfront | ⟨more, rfl, hmore⟩ := isPrefix_append has
  · exact ⟨as, [], none, fun c hc => hflags c (hfront.subset hc), by simp, by simp,
      (List.append_nil as).symm⟩
  · obtain hfront | ⟨point, rfl, hpoint⟩ := isPrefix_append hmore
    · exact ⟨flags, more, none, hflags, fun c hc => hwidth c (hfront.subset hc), by simp,
        by rw [pointText, List.append_nil]⟩
    · have hnone : IsOrdered (flags ++ (width ++ [])) :=
        ⟨flags, width, none, hflags, hwidth, by simp, rfl⟩
      cases precision with
      | none =>
        obtain rfl := List.prefix_nil.mp hpoint
        exact hnone
      | some ds =>
        obtain rfl | ⟨front, rfl, hfront⟩ := List.prefix_cons_iff.mp hpoint
        · exact hnone
        · refine ⟨flags, width, some front, hflags, hwidth, ?_, rfl⟩
          intro _ hmem c hc
          obtain rfl := Option.mem_some.mp hmem
          exact hprecision ds rfl c (hfront.subset hc)

theorem orderedFront_of_prefix {first middle last as : List Char} (hfirst : IsGroup first)
    (hmiddle : IsOrdered middle) (hlast : IsGroup last) (has : as <+: first ++ (middle ++ last)) :
    OrderedFront as := by
  obtain hfront | ⟨more, rfl, hmore⟩ := isPrefix_append has
  · obtain rfl | rfl | hopen := hfirst.of_prefix hfront
    · exact ⟨as, [], [], hfirst, isOrdered_nil, .inl isGroup_nil, by simp⟩
    · exact ⟨[], [], [], isGroup_nil, isOrdered_nil, .inl isGroup_nil, rfl⟩
    · exact ⟨[], [], as, isGroup_nil, isOrdered_nil, .inr hopen, rfl⟩
  · obtain hfront | ⟨tail, rfl, htail⟩ := isPrefix_append hmore
    · exact ⟨first, more, [], hfirst, hmiddle.of_prefix hfront, .inl isGroup_nil, by simp⟩
    · refine ⟨first, middle, tail, hfirst, hmiddle, ?_, rfl⟩
      obtain rfl | rfl | hopen := hlast.of_prefix htail
      · exact .inl hlast
      · exact .inl isGroup_nil
      · exact .inr hopen

theorem isGroup_of_splitGroup? {cs group rest : List Char}
    (h : splitGroup? cs = some (group, rest)) : IsGroup group := by
  unfold splitGroup? at h
  split at h
  · next cs =>
    split at h
    · cases h
    · next close after hdrop =>
      obtain ⟨rfl, -⟩ := Prod.mk.inj (Option.some.inj h)
      have hclose : close = ')' := by
        have hstop := stops_dropWhile (· != ')') cs
        rw [hdrop, stops_cons] at hstop
        simpa using hstop
      refine ⟨some (cs.takeWhile (· != ')')), ?_, by rw [hclose]; rfl⟩
      intro _ hname
      obtain rfl := Option.mem_some.mp hname
      exact not_mem_takeWhile_ne ')' cs
  · obtain ⟨rfl, -⟩ := Prod.mk.inj (Option.some.inj h)
    exact isGroup_nil

theorem stops_of_splitGroup? {cs rest : List Char} (h : splitGroup? cs = some ([], rest)) :
    Stops (· == '(') cs := by
  unfold splitGroup? at h
  split at h
  · split at h
    · cases h
    · cases h
  · next hparen =>
    intro c hc
    obtain ⟨tail, rfl⟩ := List.head?_eq_some_iff.mp hc
    apply beq_false_of_ne
    rintro rfl
    exact hparen tail rfl

theorem isOpenGroup_of_splitGroup? {cs : List Char} (h : splitGroup? cs = none) :
    IsOpenGroup cs := by
  unfold splitGroup? at h
  split at h
  · next cs =>
    split at h
    · next hdrop =>
      refine ⟨cs, fun hmem => ?_, rfl⟩
      have hall := List.dropWhile_eq_nil_iff.mp hdrop _ hmem
      simp at hall
    · cases h
  · cases h

theorem exists_parts_of_splitDirective? {cs body rest : List Char}
    (h : splitDirective? cs = some (body, rest)) : ∃ first middle last c, IsGroup first ∧
      IsOrdered middle ∧ IsGroup last ∧ c.isAlpha ∧ body = first ++ (middle ++ (last ++ [c])) := by
  rw [splitDirective?] at h
  split at h
  · cases h
  · next early behind hearly =>
    dsimp only at h
    split at h
    · next late c after hlate =>
      split at h
      · next hc =>
        obtain ⟨rfl, -⟩ := Prod.mk.inj (Option.some.inj h)
        exact ⟨early, (splitMiddle behind).1, late, c, isGroup_of_splitGroup? hearly,
          isOrdered_splitMiddle behind, isGroup_of_splitGroup? hlate, hc, by simp⟩
      · cases h
    · cases h

/-- A directive alone is cut out as it was in front of any text. -/
theorem splitDirective?_alone {cs body rest : List Char}
    (h : splitDirective? cs = some (body, rest)) : splitDirective? body = some (body, []) := by
  obtain ⟨first, middle, last, c, hfirst, hmiddle, hlast, hc, rfl⟩ :=
    exists_parts_of_splitDirective? h
  exact splitDirective?_run hfirst hmiddle hlast hc []

theorem orderedFront_of_cut {as bs : List Char}
    (h : splitDirective? (as ++ bs) = some (as ++ bs, [])) (hne : bs ≠ []) : OrderedFront as := by
  obtain ⟨first, middle, last, c, hfirst, hmiddle, hlast, -, hbody⟩ :=
    exists_parts_of_splitDirective? h
  have hfront : as <+: (first ++ (middle ++ last)) ++ [c] := by
    refine ⟨bs, hbody.trans ?_⟩
    simp
  obtain hwhole | hfront := List.prefix_concat_iff.mp hfront
  · have hnil : as ++ bs = as := by
      rw [hbody, hwhole]
      simp
    exact absurd (List.append_right_eq_self.mp hnil) hne
  · exact orderedFront_of_prefix hfirst hmiddle hlast hfront

/-- An open group is closed and a letter put behind it, and the directive is whole. -/
theorem OrderedFront.exists_completed {as : List Char} (h : OrderedFront as) :
    ∃ bs, splitDirective? (as ++ bs) = some (as ++ bs, []) := by
  obtain ⟨first, middle, last, hfirst, hmiddle, hlast | ⟨name, hname, rfl⟩, rfl⟩ := h
  · refine ⟨['d'], ?_⟩
    simpa using splitDirective?_run hfirst hmiddle hlast (c := 'd') rfl []
  · have hgroup : IsGroup ('(' :: name ++ [')']) := ⟨some name, by simpa using hname, rfl⟩
    refine ⟨[')', 'd'], ?_⟩
    simpa using splitDirective?_run hfirst hmiddle hgroup (c := 'd') rfl []

/-- Flags, digits and points in any order around at most so many groups, the last of which may be
open. -/
inductive Loose : ℕ → List Char → Prop
  | run {n : ℕ} {run : List Char} (hrun : ∀ c ∈ run, isMiddle c) : Loose n run
  | group {n : ℕ} {run name rest : List Char} (hrun : ∀ c ∈ run, isMiddle c) (hname : ')' ∉ name)
      (hrest : Loose n rest) : Loose (n + 1) (run ++ (groupText (some name) ++ rest))
  | unclosed {n : ℕ} {run group : List Char} (hrun : ∀ c ∈ run, isMiddle c)
      (hgroup : IsOpenGroup group) : Loose (n + 1) (run ++ group)

def behindGroup? (cs : List Char) : Option (List Char) :=
  (splitGroup? (cs.dropWhile isMiddle)).map Prod.snd

theorem faultOf_eq_incomplete_iff (cs : List Char) : faultOf cs = .incomplete ↔
    ∀ as ∈ behindGroup? cs, ∀ bs ∈ behindGroup? as, bs.dropWhile isMiddle = [] := by
  rw [faultOf, behindGroup?]
  cases splitGroup? (cs.dropWhile isMiddle) with
  | none => simp
  | some first =>
    simp only [Option.map_some, Option.mem_some, forall_eq', behindGroup?]
    cases splitGroup? (first.2.dropWhile isMiddle) with
    | none => simp
    | some second => simp

theorem behindGroup?_run {run rest : List Char} {name : Option (List Char)}
    (hrun : ∀ c ∈ run, isMiddle c) (hname : ∀ n ∈ name, ')' ∉ n)
    (hmiddle : name = none → Stops isMiddle rest) (hparen : name = none → Stops (· == '(') rest) :
    behindGroup? (run ++ (groupText name ++ rest)) = some rest := by
  have hstop : Stops isMiddle (groupText name ++ rest) := by
    cases name with
    | none => exact hmiddle rfl
    | some n => exact stops_cons.mpr rfl
  rw [behindGroup?, dropWhile_run hrun hstop, splitGroup?_groupText hname hparen]
  rfl

theorem behindGroup?_unclosed {run group : List Char} (hrun : ∀ c ∈ run, isMiddle c)
    (hgroup : IsOpenGroup group) : behindGroup? (run ++ group) = none := by
  obtain ⟨name, hname, rfl⟩ := hgroup
  have hclosed : name.dropWhile (· != ')') = [] := by
    rw [List.dropWhile_eq_nil_iff]
    intro c hc
    have hne : c ≠ ')' := fun he => hname (he ▸ hc)
    simpa using hne
  rw [behindGroup?, dropWhile_run hrun (stops_cons.mpr rfl), splitGroup?, hclosed]
  rfl

theorem Loose.head {n : ℕ} {c : Char} {cs : List Char} (h : Loose n (c :: cs)) :
    isMiddle c ∨ c = '(' := by
  generalize hwhole : c :: cs = whole at h
  cases h with
  | run hrun =>
    subst hwhole
    exact .inl (hrun c (by simp))
  | @group n run name rest hrun =>
    cases run with
    | nil => exact .inr (List.cons.inj hwhole).1
    | cons d ds =>
      obtain rfl := (List.cons.inj hwhole).1
      exact .inl (hrun c (by simp))
  | @unclosed n run group hrun hgroup =>
    cases run with
    | nil =>
      obtain ⟨name, -, rfl⟩ := hgroup
      exact .inr (List.cons.inj hwhole).1
    | cons d ds =>
      obtain rfl := (List.cons.inj hwhole).1
      exact .inl (hrun c (by simp))

theorem loose_zero_iff {cs : List Char} : Loose 0 cs ↔ cs.dropWhile isMiddle = [] := by
  rw [List.dropWhile_eq_nil_iff]
  constructor
  · intro h
    cases h with
    | run hrun => exact hrun
  · exact .run

theorem loose_succ_iff {n : ℕ} {cs : List Char} :
    Loose (n + 1) cs ↔ ∀ rest ∈ behindGroup? cs, Loose n rest := by
  constructor
  · intro h rest hrest
    cases h with
    | run hrun =>
      have hall := @behindGroup?_run cs [] none hrun (by simp) (fun _ => stops_nil _)
        fun _ => stops_nil _
      rw [groupText, List.append_nil, List.append_nil, hrest] at hall
      obtain rfl := Option.some.inj hall
      exact .run (by simp)
    | @group n run name tail hrun hname htail =>
      have hbehind := @behindGroup?_run run tail (some name) hrun (by simpa using hname) (by simp)
        (by simp)
      rw [hrest] at hbehind
      obtain rfl := Option.some.inj hbehind
      exact htail
    | unclosed hrun hgroup =>
      rw [behindGroup?_unclosed hrun hgroup] at hrest
      cases hrest
  · intro h
    have hrun : ∀ c ∈ cs.takeWhile isMiddle, isMiddle c := List.all_eq_true.mp List.all_takeWhile
    have hjoin := List.takeWhile_append_dropWhile (p := isMiddle) (l := cs)
    rw [← hjoin]
    cases hsplit : splitGroup? (cs.dropWhile isMiddle) with
    | none => exact .unclosed hrun (isOpenGroup_of_splitGroup? hsplit)
    | some found =>
      obtain ⟨group, rest⟩ := found
      have hrest : Loose n rest := h rest (by rw [behindGroup?, hsplit]; rfl)
      have hdrop := splitGroup?_append hsplit
      obtain ⟨name, hname, rfl⟩ := isGroup_of_splitGroup? hsplit
      rw [← hdrop]
      cases name with
      | some name => exact .group hrun (hname name rfl) hrest
      | none =>
        cases rest with
        | nil =>
          rw [groupText, List.append_nil, List.append_nil]
          exact .run hrun
        | cons c tail =>
          have hdrop : c :: tail = cs.dropWhile isMiddle := hdrop
          have hmiddle := stops_dropWhile isMiddle cs
          have hparen := stops_of_splitGroup? hsplit
          rw [← hdrop, stops_cons] at hmiddle hparen
          obtain hc | rfl := hrest.head
          · rw [hmiddle] at hc
            cases hc
          · cases hparen

/-- The classes of texts that a broken percent sign is told to be incomplete for. -/
theorem faultOf_eq_incomplete_iff_loose (cs : List Char) :
    faultOf cs = .incomplete ↔ Loose 2 cs := by
  rw [faultOf_eq_incomplete_iff]
  simp only [loose_succ_iff, loose_zero_iff]

theorem IsOrdered.loose {middle last : List Char} (h : IsOrdered middle)
    (hlast : IsGroup last ∨ IsOpenGroup last) (n : ℕ) : Loose (n + 1) (middle ++ last) := by
  obtain ⟨name, hname, rfl⟩ | hopen := hlast
  · cases name with
    | none =>
      rw [groupText, List.append_nil]
      exact .run h.isMiddle
    | some name =>
      have hgroup := @Loose.group n middle name [] h.isMiddle (hname name rfl) (.run (by simp))
      rwa [List.append_nil] at hgroup
  · exact .unclosed h.isMiddle hopen

theorem OrderedFront.loose {cs : List Char} (h : OrderedFront cs) : Loose 2 cs := by
  obtain ⟨first, middle, last, ⟨name, hname, rfl⟩, hmiddle, hlast, rfl⟩ := h
  cases name with
  | none => exact hmiddle.loose hlast 1
  | some name => exact @Loose.group 1 [] name _ (by simp) (hname name rfl) (hmiddle.loose hlast 0)

theorem Loose.exists_behind {n : ℕ} {run rest : List Char} {name : Option (List Char)}
    (h : Loose n (run ++ (groupText name ++ rest))) (hrun : ∀ c ∈ run, isMiddle c)
    (hname : ∀ x ∈ name, ')' ∉ x) : ∃ m front, (∀ c ∈ front, isMiddle c) ∧
      Loose m (front ++ rest) := by
  cases name with
  | none => exact ⟨n, run, hrun, h⟩
  | some name =>
    have hbehind := @behindGroup?_run run rest (some name) hrun hname (by simp) (by simp)
    cases n with
    | zero =>
      have hall := List.dropWhile_eq_nil_iff.mp (loose_zero_iff.mp h)
      exact absurd (hall '(' (by simp [groupText])) (by decide)
    | succ n => exact ⟨n, [], by simp, loose_succ_iff.mp h rest hbehind⟩

theorem not_loose_letter {n : ℕ} {run rest : List Char} {c : Char} (hrun : ∀ c ∈ run, isMiddle c)
    (hc : c.isAlpha) : ¬ Loose n (run ++ c :: rest) := by
  intro h
  have hmiddle := isMiddle_of_isAlpha hc
  have hbehind := @behindGroup?_run run (c :: rest) none hrun (by simp)
    (fun _ => stops_cons.mpr hmiddle) (fun _ => stops_paren hc rest)
  cases n with
  | zero =>
    have hall := List.dropWhile_eq_nil_iff.mp (loose_zero_iff.mp h) c (by simp)
    rw [hmiddle] at hall
    cases hall
  | succ n =>
    obtain hhead | hhead := (loose_succ_iff.mp h _ hbehind).head
    · rw [hmiddle] at hhead
      cases hhead
    · exact ne_paren_of_isAlpha hc hhead

/-- No directive begins a loose text. -/
theorem Loose.splitDirective?_eq_none {n : ℕ} {cs : List Char} (h : Loose n cs) :
    splitDirective? cs = none := by
  cases hsplit : splitDirective? cs with
  | none => rfl
  | some found =>
    obtain ⟨body, rest⟩ := found
    obtain ⟨first, middle, last, c, ⟨early, hearly, rfl⟩, hmiddle, ⟨late, hlate, rfl⟩, hc, rfl⟩ :=
      exists_parts_of_splitDirective? hsplit
    have hcs : cs = [] ++ (groupText early ++ (middle ++ (groupText late ++ c :: rest))) := by
      rw [← splitDirective?_append hsplit]
      simp
    rw [hcs] at h
    obtain ⟨m, front, hfront, h⟩ := h.exists_behind (by simp) hearly
    rw [← List.append_assoc] at h
    obtain ⟨m, front, hfront, h⟩ := h.exists_behind
      (List.forall_mem_append.mpr ⟨hfront, hmiddle.isMiddle⟩) hlate
    exact absurd h (not_loose_letter hfront hc)

theorem ofText_broken {cs : List Char} (hpercent : ∀ rest, cs = '%' :: rest → False)
    (h : splitDirective? cs = none) : ofText ('%' :: cs) = [.broken cs] := by
  rw [ofText.eq_3 cs hpercent]
  split
  · next heq =>
    rw [h] at heq
    cases heq
  · rfl

theorem Loose.ofText_percent {n : ℕ} {cs : List Char} (h : Loose n cs) :
    ofText ('%' :: cs) = [.broken cs] := by
  refine ofText_broken ?_ h.splitDirective?_eq_none
  rintro rest rfl
  exact absurd h.head (by decide)

end Lexeme
end ScriptBuiltins
