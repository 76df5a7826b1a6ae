import ScriptBuiltins.Proofs.Json.Grammar

/-!
The reader takes every text of the grammar for the tree it stands for, whatever follows it.
-/
namespace ScriptBuiltins.Json

theorem someDigits?_append {ds rest : List Char} (hds : IsDigits ds)
    (hrest : Stops Char.isDigit rest) : someDigits? (ds ++ rest) = some (ds, rest) := by
  have hne : ds.isEmpty = false := List.isEmpty_eq_false_iff.mpr hds.1
  rw [someDigits?, takeWhile_run hds.2 hrest, dropWhile_run hds.2 hrest, hne]
  rfl

theorem readWhole?_append {ds rest : List Char} (hds : IsWhole ds)
    (hrest : Stops Char.isDigit rest) : readWhole? (ds ++ rest) = some (ds, rest) := by
  obtain rfl | hds := hds
  · rw [readWhole?, someDigits?_append (by simp [IsDigits]) hrest]
    rfl
  · rw [readWhole?, someDigits?_append ⟨hds.nonempty, hds.isDigit⟩ hrest]
    simp [Option.filter, hds.head]

def isNumberChar (c : Char) : Bool := c.isDigit || c == '.' || c == 'e' || c == 'E'

theorem stops_isDigit {rest : List Char} (h : Stops isNumberChar rest) :
    Stops Char.isDigit rest := by
  refine h.mono ?_
  intro c hc
  simp [isNumberChar, hc]

theorem stops_digit_of_exponentText {exponent : Option Int} {power rest : List Char}
    (h : ExponentText exponent power) (hrest : Stops isNumberChar rest) :
    Stops Char.isDigit (power ++ rest) := by
  cases h with
  | none => exact stops_isDigit hrest
  | some he hsign hds =>
    obtain rfl | rfl := he <;> exact stops_cons.mpr (by decide)

theorem stops_digit_of_fractionText {fraction point rest : List Char}
    (h : FractionText fraction point) (hrest : Stops Char.isDigit rest) :
    Stops Char.isDigit (point ++ rest) := by
  cases h with
  | none => exact hrest
  | some hds => exact stops_cons.mpr (by decide)

def isSignMark (c : Char) : Bool := c == '+' || c == '-'

theorem isSignMark_of_isDigit {c : Char} (h : c.isDigit) : isSignMark c = false := by
  simp only [isSignMark, Bool.or_eq_false_iff, beq_eq_false_iff_ne]
  constructor <;>
  · rintro rfl
    contradiction

theorem stops_isSignMark {ds : List Char} (hds : IsDigits ds) (rest : List Char) :
    Stops isSignMark (ds ++ rest) := by
  obtain ⟨c, cs, rfl⟩ := List.exists_cons_of_ne_nil hds.1
  exact stops_cons.mpr (isSignMark_of_isDigit (hds.2 c List.mem_cons_self))

theorem splitSign_of_stops {cs : List Char} (h : Stops isSignMark cs) : splitSign cs = (false, cs) := by
  rw [splitSign]
  · rintro after rfl
    exact absurd (stops_cons.mp h) (by decide)
  · rintro after rfl
    exact absurd (stops_cons.mp h) (by decide)

theorem SignText.splitSign_append {below : Bool} {sign rest : List Char} (hsign : SignText below sign)
    (hrest : Stops isSignMark rest) : splitSign (sign ++ rest) = (below, rest) := by
  cases hsign with
  | none => exact splitSign_of_stops hrest
  | plus => rfl
  | minus => rfl

theorem splitSign_append {below : Bool} {sign ds : List Char} (hsign : SignText below sign)
    (hds : IsDigits ds) (rest : List Char) :
    splitSign (sign ++ ds ++ rest) = (below, ds ++ rest) := by
  rw [List.append_assoc, hsign.splitSign_append (stops_isSignMark hds rest)]

theorem readExponent?_append {exponent : Option Int} {power rest : List Char}
    (h : ExponentText exponent power) (hrest : Stops isNumberChar rest) :
    readExponent? (power ++ rest) = some (exponent, rest) := by
  cases h with
  | none =>
    cases rest with
    | nil => rfl
    | cons c rest =>
      have hc := stops_cons.mp hrest
      have hne : ¬(c = 'e' ∨ c = 'E') := by
        rintro (rfl | rfl) <;> contradiction
      rw [List.nil_append, readExponent?, if_neg hne]
  | some he hsign hds =>
    rw [List.cons_append, readExponent?, if_pos he, splitSign_append hsign hds,
      someDigits?_append hds (stops_isDigit hrest)]
    rfl

theorem readFraction?_append {fraction point rest : List Char} (h : FractionText fraction point)
    (hrest : Stops Char.isDigit rest) (hpoint : rest.head? ≠ some '.') :
    readFraction? (point ++ rest) = some (fraction, rest) := by
  cases h with
  | some hds => exact someDigits?_append hds hrest
  | none =>
    rw [List.nil_append, readFraction?]
    rintro after rfl
    exact hpoint rfl

theorem head?_exponentText {exponent : Option Int} {power rest : List Char}
    (h : ExponentText exponent power) (hrest : Stops isNumberChar rest) :
    (power ++ rest).head? ≠ some '.' := by
  cases h with
  | none =>
    intro hhead
    have := hrest '.' hhead
    contradiction
  | some he hsign hds => obtain rfl | rfl := he <;> simp

theorem readUnsigned?_append {whole fraction point power rest : List Char} {exponent : Option Int}
    (negative : Bool) (hwhole : IsWhole whole) (hfraction : FractionText fraction point)
    (hexponent : ExponentText exponent power) (hrest : Stops isNumberChar rest) :
    readUnsigned? negative (whole ++ point ++ power ++ rest)
      = some (⟨negative, whole, fraction, exponent⟩, rest) := by
  have hpower := stops_digit_of_exponentText hexponent hrest
  have hpoint := stops_digit_of_fractionText hfraction hpower
  rw [readUnsigned?, List.append_assoc, List.append_assoc, readWhole?_append hwhole hpoint]
  simp only [Option.bind_eq_bind, Option.bind_some,
    readFraction?_append hfraction hpower (head?_exponentText hexponent hrest),
    readExponent?_append hexponent hrest]

theorem IsWhole.exists_cons {ds : List Char} (h : IsWhole ds) :
    ∃ c cs, ds = c :: cs ∧ c.isDigit := by
  obtain rfl | h := h
  · exact ⟨'0', [], rfl, by decide⟩
  · cases ds with
    | nil => exact absurd rfl h.nonempty
    | cons c cs => exact ⟨c, cs, rfl, h.isDigit c List.mem_cons_self⟩

theorem readNumber?_append {l : DecimalLiteral} {text rest : List Char} (h : NumberText l text)
    (hrest : Stops isNumberChar rest) : readNumber? (text ++ rest) = some (l, rest) := by
  cases h with
  | mk negative hwhole hfraction hexponent =>
    have hread := readUnsigned?_append negative hwhole hfraction hexponent hrest
    cases negative with
    | true => exact hread
    | false =>
      obtain ⟨c, cs, rfl, hc⟩ := hwhole.exists_cons
      rw [signed, if_neg Bool.false_ne_true, readNumber?]
      · exact hread
      · intro after hcs
        obtain ⟨rfl, -⟩ := List.cons.inj hcs
        contradiction

theorem readString?_char {c : Char} {text : List Char} (h : CharText c text) (rest : List Char) :
    readString? none (text ++ rest)
      = (readString? none rest).map fun (cs, rest) => (c :: cs, rest) := by
  cases h with
  | plain hlow hquote hslash =>
    rw [List.cons_append, List.nil_append, readString?]
    · simp [Nat.not_lt.mpr hlow]
    all_goals simp_all
  | @short mark c h =>
    have hmark : mark ≠ 'u' := by
      rintro rfl
      contradiction
    simp [readString?, hmark, h]
  | @code a b c d u h hlone =>
    have hhigh : ¬(0xD800 ≤ u ∧ u < 0xDC00) := by omega
    have hlow : ¬(0xDC00 ≤ u ∧ u < 0xE000) := by omega
    simp [readString?, h, if_neg hhigh, if_neg hlow]
  | pair hu hhigh hv hlow =>
    simp [readString?, hu, hv, hhigh, hlow]

theorem readString?_append {cs text : List Char} (h : CharsText cs text) (rest : List Char) :
    readString? none (text ++ '"' :: rest) = some (cs, rest) := by
  induction h with
  | nil => simp [readString?]
  | cons h hrest ih => rw [List.append_assoc, readString?_char h, ih, Option.map_some]

theorem isSpace_of_isDigit {c : Char} (h : c.isDigit) : isSpace c = false := by
  rw [isSpace, decide_eq_false_iff_not]
  rintro (rfl | rfl | rfl | rfl) <;> contradiction

theorem NumberText.exists_cons {l : DecimalLiteral} {text : List Char} (h : NumberText l text) :
    ∃ c cs, text = c :: cs ∧ (c = '-' ∨ c.isDigit) := by
  cases h with
  | mk negative hwhole hfraction hexponent =>
    cases negative with
    | true => exact ⟨'-', _, rfl, .inl rfl⟩
    | false =>
      obtain ⟨c, cs, rfl, hc⟩ := hwhole.exists_cons
      exact ⟨c, _, rfl, .inr hc⟩

theorem ValueText.exists_cons {tree : Json} {text : List Char} (h : ValueText tree text) :
    ∃ c cs, text = c :: cs ∧ isSpace c = false ∧ c ≠ ']' := by
  cases h with
  | null => exact ⟨_, _, rfl, by decide, by decide⟩
  | yes => exact ⟨_, _, rfl, by decide, by decide⟩
  | no => exact ⟨_, _, rfl, by decide, by decide⟩
  | number h =>
    obtain ⟨c, cs, rfl, hc⟩ := h.exists_cons
    obtain rfl | hc := hc
    · exact ⟨_, _, rfl, by decide, by decide⟩
    · refine ⟨c, cs, rfl, isSpace_of_isDigit hc, ?_⟩
      rintro rfl
      contradiction
  | string h =>
    cases h
    exact ⟨_, _, rfl, by decide, by decide⟩
  | emptyArray => exact ⟨_, _, rfl, by decide, by decide⟩
  | array => exact ⟨_, _, rfl, by decide, by decide⟩
  | emptyObject => exact ⟨_, _, rfl, by decide, by decide⟩
  | object => exact ⟨_, _, rfl, by decide, by decide⟩

theorem ValueText.stops {tree : Json} {text : List Char} (h : ValueText tree text)
    (rest : List Char) : Stops isSpace (text ++ rest) := by
  obtain ⟨c, cs, rfl, hc, -⟩ := h.exists_cons
  exact stops_cons.mpr hc

theorem readValue?_number {c : Char} (hc : c = '-' ∨ c.isDigit) (bound : Nat) (cs : List Char) :
    readValue? (bound + 1) (c :: cs)
      = (readNumber? (c :: cs)).map fun (literal, rest) => (number literal, rest) := by
  obtain rfl | hc := hc
  · rfl
  · have hskip : skipSpace (c :: cs) = c :: cs :=
      dropWhile_of_stops (stops_cons.mpr (isSpace_of_isDigit hc))
    rw [readValue?, hskip]
    split
    case h_8 => rfl
    all_goals
      next h => cases h <;> contradiction

theorem readValue?_spaces {s rest : List Char} (bound : Nat) (hs : Spaces s)
    (hrest : Stops isSpace rest) : readValue? bound (s ++ rest) = readValue? bound rest := by
  cases bound with
  | zero => rfl
  | succ bound =>
    have hskip : skipSpace rest = rest := dropWhile_of_stops hrest
    rw [readValue?, readValue?, skipSpace_append hs hrest, hskip]

theorem stops_space {s rest : List Char} (hs : Spaces s) (hrest : Stops isNumberChar rest) :
    Stops isNumberChar (s ++ rest) := by
  refine Stops.append (stops_of_forall ?_) hrest
  intro c hc
  have hspace := hs c hc
  simp only [isSpace, decide_eq_true_eq] at hspace
  obtain rfl | rfl | rfl | rfl := hspace <;> rfl

/-- A reader of elements takes each of their texts of at most that length, with the space in front
of it. -/
def Reads {α : Type} (bound : Nat) (read : List Char → Option (α × List Char))
    (P : α → List Char → Prop) : Prop :=
  ∀ {x : α} {s text rest : List Char}, P x text → Spaces s → Stops isNumberChar rest →
    text.length ≤ bound → read (s ++ (text ++ rest)) = some (x, rest)

/-- A mark of closing is no comma, no space and no part of a number. -/
structure IsClose (c : Char) : Prop where
  comma : c ≠ ','
  space : isSpace c = false
  number : isNumberChar c = false

theorem readList?_append {α : Type} {read : List Char → Option (α × List Char)}
    {P : α → List Char → Prop} {bound : Nat} (hread : Reads bound read P) {close : Char}
    (hclose : IsClose close) {xs : List α} {inside : List Char} (h : ListText P xs inside)
    (hbound : inside.length ≤ bound) (rest : List Char) :
    ∀ count, inside.length < count →
      readList? read close count (inside ++ close :: rest) = some (xs, rest) := by
  -- The depth stays the same along a list, so the induction is on its elements alone.
  induction h with
  | @last x s text t hs h ht =>
    intro count hcount
    obtain ⟨count, rfl⟩ := Nat.exists_eq_succ_of_ne_zero (Nat.ne_zero_of_lt hcount)
    simp only [List.length_append] at hbound
    have hstop : Stops isNumberChar (close :: rest) := stops_cons.mpr hclose.number
    have hskip : skipSpace (t ++ close :: rest) = close :: rest :=
      skipSpace_append ht (stops_cons.mpr hclose.space)
    rw [List.append_assoc, List.append_assoc, readList?,
      hread h hs (stops_space ht hstop) (by omega)]
    simp only [Option.bind_some, hskip, if_neg hclose.comma, if_true]
  | @more x xs s text t more hs h ht hmore ih =>
    intro count hcount
    obtain ⟨count, rfl⟩ := Nat.exists_eq_succ_of_ne_zero (Nat.ne_zero_of_lt hcount)
    simp only [List.length_append, List.length_cons] at hbound hcount
    have hstop : Stops isNumberChar (',' :: (more ++ close :: rest)) := stops_cons.mpr (by decide)
    have hskip : skipSpace (t ++ ',' :: (more ++ close :: rest)) = ',' :: (more ++ close :: rest) :=
      skipSpace_append ht (stops_cons.mpr (by decide))
    rw [List.append_assoc, List.append_assoc, List.append_assoc, List.cons_append, readList?,
      hread h hs (stops_space ht hstop) (by omega)]
    simp only [Option.bind_some, hskip, if_true]
    rw [ih (by omega) count (by omega), Option.map_some]

theorem reads_member {bound : Nat} {read : List Char → Option (Json × List Char)}
    {P : Json → List Char → Prop} (hread : Reads bound read P) :
    Reads bound (readMember? read) (MemberText P) := by
  intro member u text rest h hu hrest hbound
  cases h with
  | @mk key value name s t text hkey hs ht h =>
    cases hkey with
    | @mk cs chars hchars =>
      simp only [List.length_append, List.length_cons] at hbound
      have hquote : skipSpace (u ++ '"' :: (chars ++ '"' :: (s ++ ':' :: (t ++ (text ++ rest)))))
          = '"' :: (chars ++ '"' :: (s ++ ':' :: (t ++ (text ++ rest)))) :=
        skipSpace_append hu (stops_cons.mpr (by decide))
      have hcolon : skipSpace (s ++ ':' :: (t ++ (text ++ rest))) = ':' :: (t ++ (text ++ rest)) :=
        skipSpace_append hs (stops_cons.mpr (by decide))
      simp only [List.append_assoc, List.cons_append, List.nil_append, readMember?, hquote,
        readString?_append hchars, Option.bind_some, hcolon, hread h ht hrest (by omega),
        Option.map_some]

theorem readValue?_emptyArray {cs rest : List Char} (bound : Nat)
    (h : skipSpace cs = ']' :: rest) :
    readValue? (bound + 1) ('[' :: cs) = some (array [], rest) := by
  rw [readValue?, show skipSpace ('[' :: cs) = '[' :: cs from rfl]
  simp only [h]

theorem readValue?_array {cs rest : List Char} {c : Char} (bound : Nat)
    (h : skipSpace cs = c :: rest) (hc : c ≠ ']') :
    readValue? (bound + 1) ('[' :: cs) =
      (readList? (readValue? bound) ']' (cs.length + 1) cs).map
        fun (items, rest) => (array items, rest) := by
  rw [readValue?, show skipSpace ('[' :: cs) = '[' :: cs from rfl]
  simp only [h]
  split
  · next heq => exact absurd (List.cons.inj heq).1 hc
  · rfl

theorem readValue?_emptyObject {cs rest : List Char} (bound : Nat)
    (h : skipSpace cs = '\x7d' :: rest) :
    readValue? (bound + 1) ('\x7b' :: cs) = some (object [], rest) := by
  rw [readValue?, show skipSpace ('\x7b' :: cs) = '\x7b' :: cs from rfl]
  simp only [h]

theorem readValue?_object {cs rest : List Char} (bound : Nat) (h : skipSpace cs = '"' :: rest) :
    readValue? (bound + 1) ('\x7b' :: cs) =
      (readList? (readMember? (readValue? bound)) '\x7d' (cs.length + 1) cs).map
        fun (members, rest) => (object members, rest) := by
  rw [readValue?, show skipSpace ('\x7b' :: cs) = '\x7b' :: cs from rfl]
  simp only [h]
  rfl

theorem ListText.exists_first {α : Type} {P : α → List Char → Prop} {xs : List α}
    {inside : List Char} (h : ListText P xs inside) (rest : List Char) :
    ∃ x s text after, P x text ∧ Spaces s ∧ inside ++ rest = s ++ (text ++ after) := by
  cases h with
  | last hs h ht => exact ⟨_, _, _, _, h, hs, by rw [List.append_assoc, List.append_assoc]⟩
  | more hs h ht hmore => exact ⟨_, _, _, _, h, hs, by rw [List.append_assoc, List.append_assoc]⟩

theorem skipSpace_items {items : List Json} {inside : List Char}
    (h : ListText ValueText items inside) (rest : List Char) :
    ∃ c cs, skipSpace (inside ++ rest) = c :: cs ∧ c ≠ ']' := by
  obtain ⟨item, s, text, after, htext, hs, heq⟩ := h.exists_first rest
  rw [heq, skipSpace_append hs (htext.stops after)]
  obtain ⟨c, cs, rfl, -, hc⟩ := htext.exists_cons
  exact ⟨c, _, rfl, hc⟩

theorem skipSpace_members {members : List (String × Json)} {inside : List Char}
    (h : ListText (MemberText ValueText) members inside) (rest : List Char) :
    ∃ cs, skipSpace (inside ++ rest) = '"' :: cs := by
  obtain ⟨member, s, text, after, htext, hs, heq⟩ := h.exists_first rest
  cases htext with
  | mk hkey =>
    cases hkey
    rw [heq]
    exact ⟨_, skipSpace_append hs (stops_cons.mpr (by decide))⟩

theorem reads_value_succ {bound : Nat} (ih : Reads bound (readValue? bound) ValueText) :
    Reads (bound + 1) (readValue? (bound + 1)) ValueText := by
  intro tree s text rest h hs hrest hbound
  rw [readValue?_spaces _ hs (h.stops rest)]
  cases h with
  | null => rfl
  | yes => rfl
  | no => rfl
  | number h =>
    obtain ⟨c, cs, rfl, hc⟩ := h.exists_cons
    rw [List.cons_append, readValue?_number hc, ← List.cons_append, readNumber?_append h hrest]
    rfl
  | string h =>
    cases h with
    | mk h =>
      rw [List.cons_append, List.append_assoc, List.singleton_append]
      change (readString? none _).map _ = _
      rw [readString?_append h]
      rfl
  | emptyArray hs =>
    rw [List.cons_append, List.append_assoc]
    exact readValue?_emptyArray bound (skipSpace_append hs (stops_cons.mpr (by decide)))
  | @array items inside h =>
    simp only [List.length_cons, List.length_append, List.length_nil] at hbound
    obtain ⟨c, cs, hskip, hc⟩ := skipSpace_items h (']' :: rest)
    rw [List.cons_append, List.append_assoc, List.singleton_append,
      readValue?_array bound hskip hc, readList?_append ih ⟨by decide, rfl, rfl⟩ h (by omega)]
    · rfl
    · simp only [List.length_append]
      omega
  | emptyObject hs =>
    rw [List.cons_append, List.append_assoc]
    exact readValue?_emptyObject bound (skipSpace_append hs (stops_cons.mpr (by decide)))
  | @object members inside h =>
    simp only [List.length_cons, List.length_append, List.length_nil] at hbound
    obtain ⟨cs, hskip⟩ := skipSpace_members h ('\x7d' :: rest)
    rw [List.cons_append, List.append_assoc, List.singleton_append, readValue?_object bound hskip,
      readList?_append (reads_member ih) ⟨by decide, rfl, rfl⟩ h (by omega)]
    · rfl
    · simp only [List.length_append]
      omega

theorem reads_value (bound : Nat) : Reads bound (readValue? bound) ValueText := by
  induction bound with
  | zero =>
    intro tree s text rest h hs hrest hbound
    obtain ⟨c, cs, rfl, -⟩ := h.exists_cons
    contradiction
  | succ bound ih => exact reads_value_succ ih

/-- Every text of the grammar is read as the tree it stands for. -/
theorem Text.parse? {tree : Json} {text : List Char} (h : Text tree text) :
    parse? text = some tree := by
  cases h with
  | @mk s text t hs h ht =>
    have hread : readValue? ((s ++ (text ++ t)).length + 1) (s ++ (text ++ t)) = some (tree, t) := by
      have hstop : Stops isNumberChar (t ++ []) := stops_space ht (stops_nil _)
      rw [List.append_nil] at hstop
      refine reads_value _ h hs hstop ?_
      simp only [List.length_append]
      omega
    have hskip : skipSpace t = [] := by
      have h := skipSpace_append ht (stops_nil isSpace)
      rwa [List.append_nil] at h
    rw [Json.parse?, hread]
    simp only [hskip, List.isEmpty_nil, if_true]

end ScriptBuiltins.Json
