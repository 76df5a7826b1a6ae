import Mathlib.Data.List.Basic
import ScriptBuiltins.CallSite
import ScriptBuiltins.Proofs.Number.Digits
import ScriptBuiltins.Proofs.Text.Literal

/-!
The expansion of a call site is read back as the site: its template and its arguments in their
order, each of them once.
-/
namespace ScriptBuiltins

/-- A name does not begin as a literal, and has no closing parenthesis in it. -/
def IsIdentifier : List Char → Prop
  | [] => False
  | c :: cs => c ≠ '"' ∧ c ≠ '-' ∧ ¬ c.isDigit ∧ ')' ∉ c :: cs

namespace Token

def ofWord? : List Char → Option Token
  | [] => none
  | c :: cs =>
    if c = '-' then (readDigits? 10 cs 0).map fun n : Nat => .integer (-n)
    else if c.isDigit then (readDigits? 10 (c :: cs) 0).map fun n : Nat => .integer n
    else some (.identifier (String.ofList (c :: cs)))

def read? (cs : List Char) : Option (Token × List Char) :=
  if cs.head? = some '"' then
    (readText? cs.tail).map fun (text, rest) => (.string (String.ofList text), rest)
  else (ofWord? (cs.takeWhile (· != ')'))).map (·, cs.dropWhile (· != ')'))

theorem ofWord?_integer (n : Int) :
    ofWord? (signed (n < 0) (digits n.natAbs)) = some (.integer n) := by
  have hreads : readDigits? 10 (digits n.natAbs) 0 = some n.natAbs :=
    LetterCase.readDigits?_toDigits (by decide) (by decide) .lower n.natAbs
  by_cases hneg : n < 0
  · have hvalue : -(n.natAbs : Int) = n := by omega
    rw [signed, if_pos (decide_eq_true hneg), ofWord?, if_pos rfl, hreads, Option.map_some, hvalue]
  · have hvalue : (n.natAbs : Int) = n := by omega
    rw [signed, if_neg (by simpa using hneg)]
    obtain ⟨c, cs, hdigits⟩ := List.exists_cons_of_ne_nil (digits_ne_nil n.natAbs)
    have hdigit : c.isDigit := isDigit_of_mem_digits (hdigits ▸ List.mem_cons_self)
    have hsign : c ≠ '-' := by
      rintro rfl
      contradiction
    rw [hdigits] at hreads ⊢
    rw [ofWord?, if_neg hsign, if_pos hdigit, hreads, Option.map_some, hvalue]

theorem ofWord?_identifier {name : String} (h : IsIdentifier name.toList) :
    ofWord? name.toList = some (.identifier name) := by
  cases hname : name.toList with
  | nil =>
    rw [hname] at h
    exact h.elim
  | cons c cs =>
    rw [hname] at h
    obtain ⟨-, hsign, hdigit, -⟩ := h
    rw [ofWord?, if_neg hsign, if_neg hdigit, ← hname, String.ofList_toList]

theorem read?_word {word : List Char} {t : Token} (hquote : word.head? ≠ some '"')
    (hclosing : ')' ∉ word) (hword : ofWord? word = some t) (rest : List Char) :
    read? (word ++ ')' :: rest) = some (t, ')' :: rest) := by
  have hrun : ∀ c ∈ word, c != ')' := fun c hc => bne_iff_ne.mpr fun h => hclosing (h ▸ hc)
  have hstops : Stops (· != ')') (')' :: rest) := stops_cons.mpr rfl
  have hopens : (word ++ ')' :: rest).head? ≠ some '"' := by
    cases word with
    | nil => simp
    | cons c cs => exact hquote
  rw [read?, if_neg hopens, takeWhile_run hrun hstops, dropWhile_run hrun hstops, hword,
    Option.map_some]

theorem not_mem_signed {c : Char} (hsign : c ≠ '-') (hdigit : ¬ c.isDigit) (negative : Bool)
    (n : Nat) : c ∉ signed negative (digits n) := by
  have hdigits : c ∉ digits n := fun hmem => hdigit (isDigit_of_mem_digits hmem)
  cases negative with
  | true => exact List.not_mem_cons_of_ne_of_not_mem hsign hdigits
  | false => exact hdigits

theorem read?_text {t : Token} (hcomma : t ≠ .comma)
    (hname : ∀ name, t = .identifier name → IsIdentifier name.toList) (rest : List Char) :
    read? (t.text ++ ')' :: rest) = some (t, ')' :: rest) := by
  cases t with
  | string text =>
    have htext : (string text).text ++ ')' :: rest
        = '"' :: (literalEscape text.toList ++ '"' :: ')' :: rest) := by
      simp [Token.text, literalQuoted, quote]
    rw [htext, read?, List.head?_cons, if_pos rfl, List.tail_cons, readText?_literalEscape,
      Option.map_some]
    simp only [String.ofList_toList]
  | integer n =>
    have hquote := not_mem_signed (by decide : '"' ≠ '-') (by decide) (n < 0) n.natAbs
    have hclosing := not_mem_signed (by decide : ')' ≠ '-') (by decide) (n < 0) n.natAbs
    exact read?_word (fun hhead => hquote (List.mem_of_mem_head? hhead)) hclosing
      (ofWord?_integer n) rest
  | identifier name =>
    have hidentifier := hname name rfl
    have hword : name.toList.head? ≠ some '"' ∧ ')' ∉ name.toList := by
      cases hchars : name.toList with
      | nil => exact ⟨by simp, by simp⟩
      | cons c cs =>
        rw [hchars] at hidentifier
        exact ⟨fun hhead => hidentifier.1 (Option.some.inj hhead), hidentifier.2.2.2⟩
    exact read?_word hword.1 hword.2 (ofWord?_identifier hidentifier) rest
  | comma => exact absurd rfl hcomma

theorem length_read? {cs rest : List Char} {t : Token} (h : read? cs = some (t, rest)) :
    rest.length ≤ cs.length := by
  rw [read?] at h
  split at h
  · obtain ⟨⟨text, behind⟩, htext, hpair⟩ := Option.map_eq_some_iff.mp h
    cases hpair
    have hlength := length_readText? htext
    rw [List.length_tail] at hlength
    omega
  · obtain ⟨_, -, hpair⟩ := Option.map_eq_some_iff.mp h
    cases hpair
    exact (List.dropWhile_sublist _).length_le

end Token

theorem length_of_dropPrefix? {cs front rest : List Char} (h : cs.dropPrefix? front = some rest) :
    cs.length = front.length + rest.length := by
  obtain ⟨front', rfl, hfront⟩ := List.dropPrefix?_eq_some_iff.mp h
  rw [List.length_append, eq_of_beq hfront]

theorem dropPrefix?_append (front rest : List Char) :
    (front ++ rest).dropPrefix? front = some rest :=
  List.dropPrefix?_append_of_beq rest (beq_self_eq_true front)

namespace CallSite

def callOpening : List Char := ":: hostkit :: format (".toList

def listOpening : List Char := " , & [".toList

def valueOpening : List Char := ":: hostkit :: Value :: from (".toList

def valueComma : List Char := " , ".toList

def listClosing : List Char := "])".toList

def converted (argument : Token) : List Char := valueOpening ++ argument.text ++ [')']

def readConverted? (cs : List Char) : Option (Token × List Char) :=
  (cs.dropPrefix? valueOpening).bind fun inner =>
    (Token.read? inner).bind fun (argument, behind) =>
      (behind.dropPrefix? [')']).map (argument, ·)

theorem readConverted?_converted {argument : Token} (hcomma : argument ≠ .comma)
    (hname : ∀ name, argument = .identifier name → IsIdentifier name.toList) (rest : List Char) :
    readConverted? (converted argument ++ rest) = some (argument, rest) := by
  have hclosing : (')' :: rest).dropPrefix? [')'] = some rest := dropPrefix?_append [')'] rest
  rw [readConverted?, converted, List.append_assoc, List.append_assoc, List.singleton_append,
    dropPrefix?_append, Option.bind_some, Token.read?_text hcomma hname, Option.bind_some]
  simp only [hclosing, Option.map_some]

theorem length_readConverted? {cs rest : List Char} {argument : Token}
    (h : readConverted? cs = some (argument, rest)) : rest.length < cs.length := by
  obtain ⟨inner, hinner, h⟩ := Option.bind_eq_some_iff.mp h
  obtain ⟨⟨t, closing⟩, hread, h⟩ := Option.bind_eq_some_iff.mp h
  obtain ⟨behind, hbehind, hpair⟩ := Option.map_eq_some_iff.mp h
  cases hpair
  have hopening := length_of_dropPrefix? hinner
  have htoken := Token.length_read? hread
  have hclosing : closing.length = 1 + rest.length := length_of_dropPrefix? hbehind
  omega

/-- As many values as there are, with commas between them. -/
def readAllConverted (cs : List Char) : List Token × List Char :=
  match _h : readConverted? cs with
  | none => ([], cs)
  | some (argument, rest) =>
    match _hcomma : rest.dropPrefix? valueComma with
    | none => ([argument], rest)
    | some others =>
      (argument :: (readAllConverted others).1, (readAllConverted others).2)
termination_by cs.length
decreasing_by all_goals
  have hargument := length_readConverted? _h
  have hothers := length_of_dropPrefix? _hcomma
  omega

/-- The call site that a call of the formatter is made from. -/
def ofExpansion? (cs : List Char) : Option CallSite :=
  (cs.dropPrefix? (callOpening ++ ['"'])).bind fun literal =>
    (readText? literal).bind fun (template, behind) =>
      (behind.dropPrefix? listOpening).bind fun list =>
        let (arguments, closing) := readAllConverted list
        if closing = listClosing then some ⟨String.ofList template, arguments⟩ else none

theorem joined_eq_intercalate (texts : List (List Char)) :
    joined texts = valueComma.intercalate texts := by
  induction texts with
  | nil => rfl
  | cons text texts ih =>
    cases texts with
    | nil => exact (List.append_nil text).symm
    | cons next texts =>
      rw [List.intercalate_cons_cons, ← ih]
      rfl

theorem readAllConverted_of_none {cs : List Char} (h : readConverted? cs = none) :
    readAllConverted cs = ([], cs) := by
  rw [readAllConverted]
  split
  · rfl
  · next hsome =>
    rw [h] at hsome
    cases hsome

theorem readAllConverted_of_some {cs rest : List Char} {argument : Token}
    (h : readConverted? cs = some (argument, rest)) :
    readAllConverted cs = match rest.dropPrefix? valueComma with
      | none => ([argument], rest)
      | some others => (argument :: (readAllConverted others).1, (readAllConverted others).2) := by
  rw [readAllConverted]
  split
  · next hnone =>
    rw [h] at hnone
    cases hnone
  · next hsome =>
    rw [h] at hsome
    cases hsome
    split
    · next hlast => rw [hlast]
    · next hmore => rw [hmore]

theorem readAllConverted_intercalate {arguments : List Token} (hcomma : .comma ∉ arguments)
    (hname : ∀ name, .identifier name ∈ arguments → IsIdentifier name.toList) :
    readAllConverted (valueComma.intercalate (arguments.map converted) ++ listClosing)
      = (arguments, listClosing) := by
  induction arguments with
  | nil => exact readAllConverted_of_none (by decide : readConverted? listClosing = none)
  | cons argument others ih =>
    have hargument := readConverted?_converted (fun h => hcomma (h ▸ List.mem_cons_self))
      (fun name h => hname name (h ▸ List.mem_cons_self))
    have hothers := ih (fun h => hcomma (List.mem_cons_of_mem _ h))
      (fun name h => hname name (List.mem_cons_of_mem _ h))
    cases others with
    | nil =>
      have hlast : listClosing.dropPrefix? valueComma = none := by decide
      rw [List.map_cons, List.map_nil, List.intercalate_singleton,
        readAllConverted_of_some (hargument _), hlast]
    | cons next others =>
      rw [List.map_cons] at hothers
      rw [List.map_cons, List.map_cons, List.intercalate_cons_cons, List.append_assoc,
        List.append_assoc, readAllConverted_of_some (hargument _), dropPrefix?_append]
      simp only [hothers]

theorem expansion_eq (site : CallSite) : site.expansion = callOpening
    ++ literalQuoted site.template.toList ++ listOpening
    ++ valueComma.intercalate (site.arguments.map converted) ++ listClosing := by
  rw [← joined_eq_intercalate]
  rfl

theorem ofExpansion?_expansion {site : CallSite} (hcomma : .comma ∉ site.arguments)
    (hname : ∀ name, .identifier name ∈ site.arguments → IsIdentifier name.toList) :
    ofExpansion? site.expansion = some site := by
  have htext : site.expansion = (callOpening ++ ['"']) ++ (literalEscape site.template.toList
      ++ '"' :: (listOpening
        ++ (valueComma.intercalate (site.arguments.map converted) ++ listClosing))) := by
    simp only [expansion_eq, literalQuoted, quote, List.append_assoc, List.cons_append,
      List.nil_append]
  rw [ofExpansion?, htext, dropPrefix?_append, Option.bind_some, readText?_literalEscape,
    Option.bind_some]
  simp only [dropPrefix?_append, Option.bind_some, readAllConverted_intercalate hcomma hname,
    if_pos, String.ofList_toList]

end CallSite
end ScriptBuiltins
