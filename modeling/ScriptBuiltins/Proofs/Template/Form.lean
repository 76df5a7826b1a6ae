import ScriptBuiltins.Proofs.Text.Runs
import ScriptBuiltins.Template.Directive
import ScriptBuiltins.Template.Lexeme

/-! The written forms of a directive. Every form is cut out of a text whole, and the texts that can
be read are those of the forms. -/
namespace ScriptBuiltins
open Lexeme

def groupText : Option (List Char) → List Char
  | none => []
  | some name => '(' :: name ++ [')']

def pointText : Option (List Char) → List Char
  | none => []
  | some ds => '.' :: ds

theorem isMiddle_of_isFlag {c : Char} (h : isFlag c) : isMiddle c := by
  simp only [isFlag, isMiddle, decide_eq_true_eq] at h ⊢
  obtain rfl | rfl | rfl | rfl | rfl := h <;> simp

theorem isMiddle_of_isDigit {c : Char} (h : c.isDigit) : isMiddle c := by
  simp [isMiddle, h]

theorem isDigit_of_isAlpha {c : Char} (h : c.isAlpha) : c.isDigit = false := by
  have hletter : 65 ≤ c.val := by
    obtain hupper | hlower := Bool.or_eq_true_iff.mp h
    · exact (of_decide_eq_true hupper).1
    · exact UInt32.le_trans (by decide) (of_decide_eq_true (Bool.and_eq_true_iff.mp hlower).1)
  rw [Bool.eq_false_iff]
  intro hdigit
  have hnine : c.val ≤ 57 := of_decide_eq_true (Bool.and_eq_true_iff.mp hdigit).2
  exact absurd (UInt32.le_trans hletter hnine) (by decide)

theorem isMiddle_of_isAlpha {c : Char} (h : c.isAlpha) : isMiddle c = false := by
  rw [isMiddle, decide_eq_false_iff_not]
  rintro (rfl | rfl | rfl | rfl | rfl | hc)
  case inr.inr.inr.inr.inr =>
    rw [isDigit_of_isAlpha h] at hc
    cases hc
  all_goals exact absurd h (by decide)

theorem ne_paren_of_isAlpha {c : Char} (h : c.isAlpha) : c ≠ '(' := by
  rintro rfl
  exact absurd h (by decide)

theorem stops_paren {c : Char} (h : c.isAlpha) (rest : List Char) : Stops (· == '(') (c :: rest) :=
  stops_cons.mpr (beq_false_of_ne (ne_paren_of_isAlpha h))

theorem isAlpha_toChar (conversion : Conversion) : conversion.toChar.isAlpha = true := by
  obtain _ | _ | _ | l | l | l | l | _ | _ := conversion <;> first | rfl | cases l <;> rfl

theorem stops_pointText {p : Char → Bool} (h : p '.' = false) (precision : Option (List Char)) :
    Stops p (pointText precision) := by
  cases precision with
  | none => exact stops_nil p
  | some ds => exact stops_cons.mpr h

theorem splitGroup?_groupText {name : Option (List Char)} {rest : List Char}
    (hname : ∀ n ∈ name, ')' ∉ n) (hrest : name = none → Stops (· == '(') rest) :
    splitGroup? (groupText name ++ rest) = some (groupText name, rest) := by
  cases name with
  | none =>
    have hrest := hrest rfl
    unfold splitGroup?
    split
    · rename_i cs heq
      have hparen : rest = '(' :: cs := heq
      rw [hparen] at hrest
      exact absurd (stops_cons.mp hrest) (by decide)
    · rfl
  | some n =>
    have hrun : ∀ c ∈ n, (c != ')') = true := by
      intro c hc
      have hne : c ≠ ')' := fun he => hname n rfl (he ▸ hc)
      simpa using hne
    have hstop : Stops (· != ')') (')' :: rest) := stops_cons.mpr rfl
    have htake := takeWhile_run hrun hstop
    have hdrop := dropWhile_run hrun hstop
    simp [groupText, splitGroup?, htake, hdrop]

theorem splitPoint_pointText {precision : Option (List Char)} {rest : List Char}
    (hdigits : ∀ ds ∈ precision, ∀ c ∈ ds, c.isDigit) (hrest : Stops isMiddle rest) :
    splitPoint (pointText precision ++ rest) = (pointText precision, rest) := by
  cases precision with
  | none =>
    unfold splitPoint
    split
    · rename_i cs heq
      have hpoint : rest = '.' :: cs := heq
      rw [hpoint] at hrest
      exact absurd (stops_cons.mp hrest) (by decide)
    · rfl
  | some ds =>
    have hstop : Stops Char.isDigit rest := hrest.mono fun _ => isMiddle_of_isDigit
    have hrun := hdigits ds rfl
    simp only [pointText, List.cons_append, splitPoint, takeWhile_run hrun hstop,
      dropWhile_run hrun hstop]

namespace Lexeme

/-- A name in parentheses, or nothing. The name may be empty. -/
def IsGroup (cs : List Char) : Prop :=
  ∃ name : Option (List Char), (∀ n ∈ name, ')' ∉ n) ∧ cs = groupText name

/-- Flags, a width and a precision, each of which may be missing, in this order. -/
def IsOrdered (cs : List Char) : Prop :=
  ∃ (flags width : List Char) (precision : Option (List Char)), (∀ c ∈ flags, isFlag c) ∧
    (∀ c ∈ width, c.isDigit) ∧ (∀ ds ∈ precision, ∀ c ∈ ds, c.isDigit) ∧
    cs = flags ++ (width ++ pointText precision)

theorem IsOrdered.isMiddle {cs : List Char} (h : IsOrdered cs) : ∀ c ∈ cs, isMiddle c := by
  obtain ⟨flags, width, precision, hflags, hwidth, hprecision, rfl⟩ := h
  intro c hc
  simp only [List.mem_append] at hc
  obtain hc | hc | hc := hc
  · exact isMiddle_of_isFlag (hflags c hc)
  · exact isMiddle_of_isDigit (hwidth c hc)
  · cases precision with
    | none => simp [pointText] at hc
    | some ds =>
      rw [pointText, List.mem_cons] at hc
      obtain rfl | hc := hc
      · rfl
      · exact isMiddle_of_isDigit (hprecision ds rfl c hc)

theorem exists_point_of_splitPoint (cs : List Char) : ∃ precision : Option (List Char),
    (∀ ds ∈ precision, ∀ c ∈ ds, c.isDigit) ∧ (splitPoint cs).1 = pointText precision := by
  unfold splitPoint
  split
  · exact ⟨some _, by simpa using fun c => List.all_eq_true.mp List.all_takeWhile c, rfl⟩
  · exact ⟨none, by simp, rfl⟩

theorem isOrdered_splitMiddle (cs : List Char) : IsOrdered (splitMiddle cs).1 := by
  obtain ⟨precision, hprecision, hsplit⟩ :=
    exists_point_of_splitPoint ((cs.dropWhile isFlag).dropWhile Char.isDigit)
  refine ⟨cs.takeWhile isFlag, (cs.dropWhile isFlag).takeWhile Char.isDigit, precision,
    List.all_eq_true.mp List.all_takeWhile, List.all_eq_true.mp List.all_takeWhile, hprecision, ?_⟩
  rw [← hsplit, ← List.append_assoc]
  rfl

/-- A flag of zero may be split off as part of the width or the other way round; what is left behind
them is the same. -/
theorem splitMiddle_run {middle rest : List Char} (h : IsOrdered middle)
    (hrest : Stops isMiddle rest) : splitMiddle (middle ++ rest) = (middle, rest) := by
  obtain ⟨flags, width, precision, hflags, hwidth, hprecision, hmiddle⟩ := h
  have hpoint (p : Char → Bool) (hp : p '.' = false) (hmono : ∀ c, p c → isMiddle c) :
      Stops p (pointText precision ++ rest) := (stops_pointText hp _).append (hrest.mono hmono)
  have hafterFlags : (middle ++ rest).dropWhile isFlag
      = width.dropWhile isFlag ++ (pointText precision ++ rest) := by
    rw [hmiddle, List.append_assoc, List.append_assoc, List.dropWhile_append_of_pos hflags,
      dropWhile_append_of_stops _ (hpoint isFlag rfl fun _ => isMiddle_of_isFlag)]
  have hafterWidth : ((middle ++ rest).dropWhile isFlag).dropWhile Char.isDigit
      = pointText precision ++ rest := by
    rw [hafterFlags]
    exact dropWhile_run (fun c hc => hwidth c (List.dropWhile_subset _ hc))
      (hpoint Char.isDigit rfl fun _ => isMiddle_of_isDigit)
  have hleft : (splitMiddle (middle ++ rest)).2 = rest := by
    simp only [splitMiddle, hafterWidth, splitPoint_pointText hprecision hrest]
  have hjoin := splitMiddle_append (middle ++ rest)
  rw [hleft] at hjoin
  exact Prod.ext (List.append_cancel_right hjoin) hleft

theorem stops_late (name : Option (List Char)) {c : Char} (hc : c.isAlpha) (rest : List Char) :
    Stops isMiddle (groupText name ++ c :: rest) := by
  cases name with
  | none => exact stops_cons.mpr (isMiddle_of_isAlpha hc)
  | some name => exact stops_cons.mpr rfl

/-- A directive is cut out whole, whatever stands behind it. -/
theorem splitDirective?_run {first middle last : List Char} {c : Char} (hfirst : IsGroup first)
    (hmiddle : IsOrdered middle) (hlast : IsGroup last) (hc : c.isAlpha) (rest : List Char) :
    splitDirective? (first ++ (middle ++ (last ++ c :: rest)))
      = some (first ++ (middle ++ (last ++ [c])), rest) := by
  obtain ⟨early, hearly, rfl⟩ := hfirst
  obtain ⟨late, hlate, rfl⟩ := hlast
  -- With nothing in front of it, the second group is found at the place of the first.
  by_cases hmove : early = none ∧ middle = []
  · obtain ⟨rfl, rfl⟩ := hmove
    have hsplit := splitGroup?_groupText hlate fun _ => stops_paren hc rest
    have hnone : splitGroup? (c :: rest) = some ([], c :: rest) :=
      @splitGroup?_groupText none _ (by simp) fun _ => stops_paren hc rest
    have hempty : splitMiddle (c :: rest) = ([], c :: rest) :=
      splitMiddle_run ⟨[], [], none, by simp, by simp, by simp, rfl⟩
        (stops_cons.mpr (isMiddle_of_isAlpha hc))
    have hearly : groupText none = [] := rfl
    simp [splitDirective?, hearly, hsplit, hnone, hempty, hc]
  · have hstop : early = none → Stops (· == '(') (middle ++ (groupText late ++ c :: rest)) := by
      intro hnone
      obtain ⟨d, ds, rfl⟩ := List.exists_cons_of_ne_nil fun hnil => hmove ⟨hnone, hnil⟩
      refine stops_cons.mpr (beq_false_of_ne ?_)
      rintro rfl
      exact absurd (hmiddle.isMiddle '(' (by simp)) (by decide)
    simp [splitDirective?, splitGroup?_groupText hearly hstop,
      splitMiddle_run hmiddle (stops_late late hc rest),
      splitGroup?_groupText hlate fun _ => stops_paren hc rest, hc]

end Lexeme

def IsName (cs : List Char) : Prop := cs ≠ [] ∧ ')' ∉ cs

def Flags.ofRun (run : List Char) : Flags where
  leftJustify := '-' ∈ run
  zeroPad := '0' ∈ run
  plusSign := '+' ∈ run
  spaceSign := ' ' ∈ run
  alternate := '#' ∈ run

/-- A directive as it is written, without its percent sign. A zero may stand among the flags or in
front of the width. -/
structure DirectiveForm where
  early : Option (List Char)
  flags : List Char
  width : List Char
  precision : Option (List Char)
  late : Option (List Char)
  conversion : Conversion

namespace DirectiveForm

def middle (f : DirectiveForm) : List Char := f.flags ++ (f.width ++ pointText f.precision)

def body (f : DirectiveForm) : List Char :=
  groupText f.early ++ (f.middle ++ (groupText f.late ++ [f.conversion.toChar]))

def flagRun (f : DirectiveForm) : List Char := (f.flags ++ f.width).takeWhile isFlag

def countRun (f : DirectiveForm) : List Char := (f.flags ++ f.width).dropWhile isFlag

structure WellFormed (f : DirectiveForm) : Prop where
  early : ∀ name ∈ f.early, IsName name
  late : ∀ name ∈ f.late, IsName name
  once : f.early = none ∨ f.late = none
  flags : ∀ c ∈ f.flags, isFlag c
  width : ∀ c ∈ f.width, c.isDigit
  widthFits : decimalValue f.countRun < wordLimit
  precision : ∀ ds ∈ f.precision, ∀ c ∈ ds, c.isDigit
  precisionFits : ∀ ds ∈ f.precision, decimalValue ds < wordLimit

def reading (f : DirectiveForm) : Directive where
  flags := .ofRun f.flagRun
  width := if f.countRun = [] then none else some (decimalValue f.countRun)
  precision := f.precision.map decimalValue
  name := (f.early.or f.late).map String.ofList
  conversion := f.conversion

theorem flagRun_append_countRun (f : DirectiveForm) :
    f.flagRun ++ f.countRun = f.flags ++ f.width := List.takeWhile_append_dropWhile

/-- The form with the zeros in front of the width among the flags. -/
def settled (f : DirectiveForm) : DirectiveForm :=
  { f with flags := f.flagRun, width := f.countRun }

theorem flagRun_settled (f : DirectiveForm) : f.settled.flagRun = f.flagRun := by
  show (f.flagRun ++ f.countRun).takeWhile isFlag = f.flagRun
  rw [flagRun_append_countRun]
  rfl

theorem countRun_settled (f : DirectiveForm) : f.settled.countRun = f.countRun := by
  show (f.flagRun ++ f.countRun).dropWhile isFlag = f.countRun
  rw [flagRun_append_countRun]
  rfl

theorem body_settled (f : DirectiveForm) : f.settled.body = f.body := by
  have h : f.settled.middle = f.middle := by
    simp only [middle, settled]
    rw [← List.append_assoc, flagRun_append_countRun, List.append_assoc]
  simp only [body, h]
  rfl

theorem reading_settled (f : DirectiveForm) : f.settled.reading = f.reading := by
  simp only [reading, flagRun_settled, countRun_settled]
  rfl

theorem WellFormed.settled {f : DirectiveForm} (h : f.WellFormed) : f.settled.WellFormed where
  early := h.early
  late := h.late
  once := h.once
  flags := List.all_eq_true.mp List.all_takeWhile
  width := by
    intro c hc
    have hsuffix : f.countRun = f.width.dropWhile isFlag := by
      rw [countRun, List.dropWhile_append_of_pos h.flags]
    have hc : c ∈ f.width.dropWhile isFlag := hsuffix ▸ hc
    exact h.width c (List.dropWhile_subset _ hc)
  widthFits := by
    rw [countRun_settled]
    exact h.widthFits
  precision := h.precision
  precisionFits := h.precisionFits

/-- A form whose flags end where its width begins, and with the name in front where both places are
the same. -/
structure Settled (f : DirectiveForm) : Prop extends f.WellFormed where
  stops : Stops isFlag f.width
  inFront : f.early = none → f.middle = [] → f.late = none

theorem Settled.flagRun_eq {f : DirectiveForm} (h : f.Settled) : f.flagRun = f.flags :=
  takeWhile_run h.flags h.stops

theorem Settled.countRun_eq {f : DirectiveForm} (h : f.Settled) : f.countRun = f.width :=
  dropWhile_run h.flags h.stops

theorem exists_settled {f : DirectiveForm} (h : f.WellFormed) :
    ∃ g : DirectiveForm, g.Settled ∧ g.body = f.body ∧ g.reading = f.reading := by
  have hs := h.settled
  have hstops : Stops isFlag f.settled.width := stops_dropWhile isFlag (f.flags ++ f.width)
  rw [← body_settled f, ← reading_settled f]
  by_cases hmove : f.settled.early = none ∧ f.settled.middle = []
  · obtain ⟨hearly, hempty⟩ := hmove
    let g : DirectiveForm := { f.settled with early := f.settled.late, late := none }
    have hg : g.middle = [] := hempty
    refine ⟨g, ⟨{ hs with early := hs.late, late := by simp [g], once := .inr rfl }, hstops,
      fun _ _ => rfl⟩, ?_, ?_⟩
    · simp only [body, hg, hempty, hearly]
      simp [g, groupText]
    · have hname : g.early.or g.late = f.settled.early.or f.settled.late := by simp [g, hearly]
      simp only [reading, hname]
      rfl
  · exact ⟨f.settled, ⟨hs, hstops, fun h₁ h₂ => absurd ⟨h₁, h₂⟩ hmove⟩, rfl, rfl⟩

theorem WellFormed.isOrdered {f : DirectiveForm} (h : f.WellFormed) : IsOrdered f.middle :=
  ⟨f.flags, f.width, f.precision, h.flags, h.width, h.precision, rfl⟩

theorem WellFormed.isGroup_early {f : DirectiveForm} (h : f.WellFormed) :
    IsGroup (groupText f.early) := ⟨f.early, fun n hn => (h.early n hn).2, rfl⟩

theorem WellFormed.isGroup_late {f : DirectiveForm} (h : f.WellFormed) :
    IsGroup (groupText f.late) := ⟨f.late, fun n hn => (h.late n hn).2, rfl⟩

theorem Settled.stops_middle {f : DirectiveForm} (h : f.Settled) (hearly : f.early = none)
    (rest : List Char) :
    Stops (· == '(') (f.middle ++ (groupText f.late ++ f.conversion.toChar :: rest)) := by
  by_cases hempty : f.middle = []
  · rw [h.inFront hearly hempty, hempty]
    exact stops_paren (isAlpha_toChar f.conversion) rest
  · have hmiddle : Stops (· == '(') f.middle := by
      apply stops_of_forall
      intro c hc
      apply beq_false_of_ne
      rintro rfl
      exact absurd (h.isOrdered.isMiddle _ hc) (by decide)
    obtain ⟨c, cs, hc⟩ := List.exists_cons_of_ne_nil hempty
    rw [hc] at hmiddle ⊢
    exact hmiddle

theorem WellFormed.splitDirective?_body {f : DirectiveForm} (h : f.WellFormed) (rest : List Char) :
    splitDirective? (f.body ++ rest) = some (f.body, rest) := by
  have hsplit := splitDirective?_run h.isGroup_early h.isOrdered h.isGroup_late
    (isAlpha_toChar f.conversion) rest
  simpa [body] using hsplit

end DirectiveForm
end ScriptBuiltins
