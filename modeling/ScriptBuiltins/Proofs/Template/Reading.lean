import ScriptBuiltins.Proofs.Template.Form

/-! Reading a directive. Each step has a law for the texts it takes and one for what it has taken;
together they say that exactly the forms are read, each with its own reading. -/
namespace ScriptBuiltins
open Lexeme

theorem exists_of_bind_eq_ok {ε α β : Type} {x : Except ε α} {f : α → Except ε β} {b : β}
    (h : x.bind f = .ok b) : ∃ a, x = .ok a ∧ f a = .ok b := by
  cases x with
  | error e => contradiction
  | ok a => exact ⟨a, rfl, h⟩

namespace Flags

def adding (flags : Flags) (run : List Char) : Flags where
  leftJustify := flags.leftJustify || '-' ∈ run
  zeroPad := flags.zeroPad || '0' ∈ run
  plusSign := flags.plusSign || '+' ∈ run
  spaceSign := flags.spaceSign || ' ' ∈ run
  alternate := flags.alternate || '#' ∈ run

theorem adding_nil (flags : Flags) : flags.adding [] = flags := by
  simp [adding]

theorem adding_empty (run : List Char) : ({} : Flags).adding run = .ofRun run := by
  simp [adding, ofRun]

theorem set?_of_isFlag {c : Char} (h : isFlag c) (flags : Flags) (run : List Char) :
    ∃ more, flags.set? c = some more ∧ more.adding run = flags.adding (c :: run) := by
  simp only [isFlag, decide_eq_true_eq] at h
  obtain rfl | rfl | rfl | rfl | rfl := h
  all_goals exact ⟨_, rfl, by simp [adding]⟩

theorem set?_of_not_isFlag {c : Char} (h : isFlag c = false) (flags : Flags) :
    flags.set? c = none := by
  unfold set?
  split
  all_goals first | rfl | exact absurd h (by decide)

theorem take_eq (flags : Flags) (cs : List Char) :
    flags.take cs = (flags.adding (cs.takeWhile isFlag), cs.dropWhile isFlag) := by
  induction cs generalizing flags with
  | nil => simp [take, adding_nil]
  | cons c cs ih =>
    cases hc : isFlag c with
    | true =>
      obtain ⟨more, hset, hadding⟩ := set?_of_isFlag hc flags (cs.takeWhile isFlag)
      simp [take, hset, ih, hc, hadding]
    | false => simp [take, set?_of_not_isFlag hc, hc, adding_nil]

end Flags

namespace Directive

/-- A group is a name unless nothing is in it. -/
theorem takeName_group {name : Option (List Char)} {rest : List Char}
    (hname : ∀ n ∈ name, ')' ∉ n) (hrest : name = none → Stops (· == '(') rest) :
    takeName (groupText name ++ rest)
      = if name = some [] then .error .emptyName else .ok (name.map String.ofList, rest) := by
  cases name with
  | none =>
    have hrest := hrest rfl
    rw [if_neg (by simp)]
    unfold takeName
    split
    · rename_i cs heq
      have hparen : rest = '(' :: cs := heq
      rw [hparen] at hrest
      exact absurd (stops_cons.mp hrest) (by decide)
    · rfl
  | some n =>
    have hrun : ∀ c ∈ n, (c != ')') = true := by
      intro c hc
      have hc' : c ≠ ')' := fun he => hname n rfl (he ▸ hc)
      simpa using hc'
    have hstop : Stops (· != ')') (')' :: rest) := stops_cons.mpr rfl
    simp [groupText, takeName, takeWhile_run hrun hstop, dropWhile_run hrun hstop]

theorem takeName_groupText {name : Option (List Char)} {rest : List Char}
    (hname : ∀ n ∈ name, IsName n) (hrest : name = none → Stops (· == '(') rest) :
    takeName (groupText name ++ rest) = .ok (name.map String.ofList, rest) := by
  have hfilled : name ≠ some [] := fun he => (hname [] he).1 rfl
  rw [takeName_group (fun n hn => (hname n hn).2) hrest, if_neg hfilled]

theorem exists_name_of_takeName {cs rest : List Char} {name : Option String}
    (h : takeName cs = .ok (name, rest)) : ∃ n, (∀ x ∈ n, IsName x) ∧
      name = n.map String.ofList ∧ cs = groupText n ++ rest := by
  unfold takeName at h
  split at h
  · rename_i cs
    split at h
    · contradiction
    · rename_i c rest' hdrop
      dsimp only at h
      split at h
      · contradiction
      · rename_i hne
        obtain ⟨rfl, rfl⟩ := Prod.mk.inj (Except.ok.inj h)
        have hclose : c = ')' := by
          have hstop := stops_dropWhile (· != ')') cs
          rw [hdrop, stops_cons] at hstop
          simpa using hstop
        refine ⟨some (cs.takeWhile (· != ')')), ?_, rfl, ?_⟩
        · intro x hx
          obtain rfl := Option.mem_some.mp hx
          exact ⟨by simpa using hne, not_mem_takeWhile_ne ')' cs⟩
        · have hjoin := List.takeWhile_append_dropWhile (p := (· != ')')) (l := cs)
          rw [hdrop, hclose] at hjoin
          simp [groupText, hjoin]
  · obtain ⟨rfl, rfl⟩ := Prod.mk.inj (Except.ok.inj h)
    exact ⟨none, by simp, rfl, rfl⟩

def countOf (ds : List Char) : Option Nat := if ds = [] then none else some (decimalValue ds)

theorem takeCount_digits {ds rest : List Char} (hds : ∀ c ∈ ds, c.isDigit)
    (hrest : Stops Char.isDigit rest) : takeCount (ds ++ rest)
      = if wordLimit ≤ decimalValue ds then .error .malformed else .ok (countOf ds, rest) := by
  simp only [takeCount, takeWhile_run hds hrest, dropWhile_run hds hrest, countOf,
    List.isEmpty_iff, ← Nat.not_le (a := wordLimit), ite_not]
  split
  · next hnil =>
    rw [hnil, if_neg (by decide)]
    rfl
  · rfl

theorem takeCount_run {ds rest : List Char} (hds : ∀ c ∈ ds, c.isDigit)
    (hfits : decimalValue ds < wordLimit) (hrest : Stops Char.isDigit rest) :
    takeCount (ds ++ rest) = .ok (countOf ds, rest) := by
  rw [takeCount_digits hds hrest, if_neg (Nat.not_le_of_lt hfits)]

theorem exists_run_of_takeCount {cs rest : List Char} {count : Option Nat}
    (h : takeCount cs = .ok (count, rest)) : ∃ ds, (∀ c ∈ ds, c.isDigit) ∧
      decimalValue ds < wordLimit ∧ count = countOf ds ∧ cs = ds ++ rest := by
  have hall : ∀ c ∈ cs.takeWhile Char.isDigit, c.isDigit := List.all_eq_true.mp List.all_takeWhile
  simp only [takeCount, List.isEmpty_iff] at h
  split at h
  · obtain ⟨rfl, rfl⟩ := Prod.mk.inj (Except.ok.inj h)
    exact ⟨[], by simp, by decide, rfl, rfl⟩
  · rename_i hne
    split at h
    · rename_i hfits
      obtain ⟨rfl, rfl⟩ := Prod.mk.inj (Except.ok.inj h)
      exact ⟨_, hall, hfits, by simp [countOf, hne], List.takeWhile_append_dropWhile.symm⟩
    · contradiction

theorem getD_countOf (ds : List Char) : (countOf ds).getD 0 = decimalValue ds := by
  cases ds with
  | nil => rfl
  | cons c cs => simp [countOf]

theorem takePrecision_point {precision : Option (List Char)} {rest : List Char}
    (hds : ∀ ds ∈ precision, ∀ c ∈ ds, c.isDigit) (hrest : Stops isMiddle rest) :
    takePrecision (pointText precision ++ rest)
      = if ∃ ds ∈ precision, wordLimit ≤ decimalValue ds then .error .malformed
        else .ok (precision.map decimalValue, rest) := by
  cases precision with
  | none =>
    rw [if_neg (by simp)]
    unfold takePrecision
    split
    · rename_i cs heq
      have hpoint : rest = '.' :: cs := heq
      rw [hpoint] at hrest
      exact absurd (stops_cons.mp hrest) (by decide)
    · rfl
  | some ds =>
    have hcount := takeCount_digits (hds ds rfl) (hrest.mono fun _ => isMiddle_of_isDigit)
    simp only [pointText, List.cons_append, takePrecision, hcount, Option.mem_some, exists_eq_left']
    split
    · rfl
    · simp [getD_countOf, bind, Except.bind]

theorem takePrecision_pointText {precision : Option (List Char)} {rest : List Char}
    (hds : ∀ ds ∈ precision, ∀ c ∈ ds, c.isDigit)
    (hfits : ∀ ds ∈ precision, decimalValue ds < wordLimit) (hrest : Stops isMiddle rest) :
    takePrecision (pointText precision ++ rest) = .ok (precision.map decimalValue, rest) := by
  have hnone : ¬ ∃ ds ∈ precision, wordLimit ≤ decimalValue ds := by
    rintro ⟨ds, hmem, hle⟩
    exact Nat.not_le_of_lt (hfits ds hmem) hle
  rw [takePrecision_point hds hrest, if_neg hnone]

theorem exists_point_of_takePrecision {cs rest : List Char} {count : Option Nat}
    (h : takePrecision cs = .ok (count, rest)) : ∃ precision,
      (∀ ds ∈ precision, ∀ c ∈ ds, c.isDigit) ∧ (∀ ds ∈ precision, decimalValue ds < wordLimit) ∧
      count = precision.map decimalValue ∧ cs = pointText precision ++ rest := by
  unfold takePrecision at h
  split at h
  · rename_i cs
    obtain ⟨⟨taken, rest'⟩, hcount, hrest⟩ := exists_of_bind_eq_ok h
    obtain ⟨rfl, rfl⟩ := Prod.mk.inj (Except.ok.inj hrest)
    obtain ⟨ds, hds, hfits, rfl, rfl⟩ := exists_run_of_takeCount hcount
    refine ⟨some ds, ?_, ?_, ?_, rfl⟩
    · simpa using hds
    · simpa using hfits
    · simp [getD_countOf]
  · obtain ⟨rfl, rfl⟩ := Prod.mk.inj (Except.ok.inj h)
    exact ⟨none, by simp, by simp, rfl, rfl⟩

theorem takeConversion_eq_ok_iff {cs : List Char} {conversion : Conversion} :
    takeConversion cs = .ok conversion ↔ cs = [conversion.toChar] := by
  constructor
  · intro h
    unfold takeConversion at h
    split at h
    · contradiction
    · rename_i c
      split at h
      · rename_i found hfound
        obtain rfl := Except.ok.inj h
        rw [Conversion.toChar_of_ofChar? hfound]
      · contradiction
    · contradiction
  · rintro rfl
    simp [takeConversion, Conversion.ofChar?_toChar]

theorem parseBody_body {f : DirectiveForm} (h : f.WellFormed) :
    parseBody f.body = .ok f.reading := by
  obtain ⟨g, hg, hbody, hreading⟩ := DirectiveForm.exists_settled h
  rw [← hbody, ← hreading]
  have htail := stops_late g.late (isAlpha_toChar g.conversion) []
  have hpoint (p : Char → Bool) (hp : p '.' = false) (hmono : ∀ c, p c → isMiddle c) :
      Stops p (pointText g.precision ++ (groupText g.late ++ [g.conversion.toChar])) :=
    (stops_pointText hp _).append (htail.mono hmono)
  have hflags := hg.stops.append (hpoint isFlag rfl fun _ => isMiddle_of_isFlag)
  have hearly := takeName_groupText hg.early (fun hnone => hg.stops_middle hnone [])
  have hcount := takeCount_run hg.width (by simpa [hg.countRun_eq] using hg.widthFits)
    (hpoint Char.isDigit rfl fun _ => isMiddle_of_isDigit)
  have hprecision := takePrecision_pointText hg.precision hg.precisionFits htail
  have hlate : takeName (groupText g.late ++ [g.conversion.toChar])
      = .ok (g.late.map String.ofList, [g.conversion.toChar]) :=
    takeName_groupText hg.late
      (fun _ => stops_paren (isAlpha_toChar g.conversion) [])
  have hconversion := takeConversion_eq_ok_iff.mpr (Eq.refl [g.conversion.toChar])
  have honce : ((g.early.map String.ofList).isSome && (g.late.map String.ofList).isSome) = false := by
    cases hg.once with
    | inl h => simp [h]
    | inr h => simp [h]
  have hname : (g.early.map String.ofList).or (g.late.map String.ofList)
      = (g.early.or g.late).map String.ofList := by
    cases g.early <;> rfl
  simp only [parseBody, DirectiveForm.body, hearly, bind, Except.bind]
  simp only [DirectiveForm.middle, List.append_assoc, Flags.take_eq,
    takeWhile_run hg.flags hflags, dropWhile_run hg.flags hflags, hcount, hprecision, hlate, honce,
    hconversion, Bool.false_eq_true, if_false, Flags.adding_empty, hname, DirectiveForm.reading,
    hg.flagRun_eq, hg.countRun_eq, countOf]

/-- The steps of a reading, each on what the one before it has left. -/
theorem exists_steps_of_parseBody {cs : List Char} {d : Directive} (h : parseBody cs = .ok d) :
    ∃ early afterEarly width afterWidth precision afterPrecision late afterLate conversion,
      takeName cs = .ok (early, afterEarly) ∧
      takeCount (afterEarly.dropWhile isFlag) = .ok (width, afterWidth) ∧
      takePrecision afterWidth = .ok (precision, afterPrecision) ∧
      takeName afterPrecision = .ok (late, afterLate) ∧
      (early.isSome && late.isSome) = false ∧ takeConversion afterLate = .ok conversion ∧
      d = ⟨.ofRun (afterEarly.takeWhile isFlag), width, precision, early.or late, conversion⟩ := by
  obtain ⟨⟨early, afterEarly⟩, hearly, h⟩ := exists_of_bind_eq_ok h
  simp only [Flags.take_eq, Flags.adding_empty] at h
  obtain ⟨⟨width, afterWidth⟩, hwidth, h⟩ := exists_of_bind_eq_ok h
  obtain ⟨⟨precision, afterPrecision⟩, hprecision, h⟩ := exists_of_bind_eq_ok h
  obtain ⟨⟨late, afterLate⟩, hlate, h⟩ := exists_of_bind_eq_ok h
  cases honce : early.isSome && late.isSome with
  | true =>
    simp only [honce, if_true] at h
    contradiction
  | false =>
    simp only [honce, Bool.false_eq_true, if_false] at h
    obtain ⟨conversion, hconversion, h⟩ := exists_of_bind_eq_ok h
    exact ⟨early, afterEarly, width, afterWidth, precision, afterPrecision, late, afterLate,
      conversion, hearly, hwidth, hprecision, hlate, honce, hconversion, (Except.ok.inj h).symm⟩

theorem exists_form_of_parseBody {cs : List Char} {d : Directive} (h : parseBody cs = .ok d) :
    ∃ f : DirectiveForm, f.WellFormed ∧ f.body = cs ∧ f.reading = d := by
  obtain ⟨early?, afterEarly, width?, afterWidth, precision?, afterPrecision, late?, afterLate,
    conversion, hearly, hwidth, hprecision, hlate, honce, hconversion, rfl⟩ :=
    exists_steps_of_parseBody h
  obtain ⟨early, hearlyName, rfl, rfl⟩ := exists_name_of_takeName hearly
  obtain ⟨width, hwidthDigits, hwidthFits, rfl, hwidthText⟩ := exists_run_of_takeCount hwidth
  obtain ⟨precision, hprecisionDigits, hprecisionFits, rfl, rfl⟩ :=
    exists_point_of_takePrecision hprecision
  obtain ⟨late, hlateName, rfl, rfl⟩ := exists_name_of_takeName hlate
  obtain rfl := takeConversion_eq_ok_iff.mp hconversion
  have hflags : ∀ c ∈ afterEarly.takeWhile isFlag, isFlag c :=
    List.all_eq_true.mp List.all_takeWhile
  have hstops : Stops isFlag width := by
    have hdrop := stops_dropWhile isFlag afterEarly
    rw [hwidthText] at hdrop
    exact hdrop.of_append
  have hflagRun : (afterEarly.takeWhile isFlag ++ width).takeWhile isFlag
      = afterEarly.takeWhile isFlag := takeWhile_run hflags hstops
  have hcountRun : (afterEarly.takeWhile isFlag ++ width).dropWhile isFlag = width :=
    dropWhile_run hflags hstops
  refine ⟨⟨early, afterEarly.takeWhile isFlag, width, precision, late, conversion⟩,
    ⟨hearlyName, hlateName, ?_, hflags, hwidthDigits, ?_, hprecisionDigits, hprecisionFits⟩, ?_, ?_⟩
  · cases early <;> cases late <;> simp at honce ⊢
  · simpa only [DirectiveForm.countRun, hcountRun] using hwidthFits
  · simp only [DirectiveForm.body, DirectiveForm.middle, List.append_assoc, ← hwidthText,
      List.takeWhile_append_dropWhile]
  · have hname : (early.map String.ofList).or (late.map String.ofList)
        = (early.or late).map String.ofList := by
      cases early <;> rfl
    simp only [DirectiveForm.reading, DirectiveForm.flagRun, DirectiveForm.countRun, hflagRun,
      hcountRun, hname, countOf]

end Directive
end ScriptBuiltins
