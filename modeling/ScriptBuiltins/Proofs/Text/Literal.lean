import ScriptBuiltins.Proofs.Number.Radix
import ScriptBuiltins.Proofs.Text.Runs
import ScriptBuiltins.Text.Quoted

/-!
Literals of a call site are read as the texts they are written from. An escape is a backslash with
one more character, with two digits of the base sixteen behind an `x`, or with any number of them in
braces behind a `u`.
-/
namespace ScriptBuiltins

def plainEscape? : Char → Option Char
  | '"' => some '"'
  | '\\' => some '\\'
  | 'n' => some '\n'
  | 't' => some '\t'
  | 'r' => some '\r'
  | '0' => some '\x00'
  | _ => none

def readCode? (ds : List Char) : Option Char := (readDigits? 16 ds 0).map Char.ofNat

def readEscape? : List Char → Option (Char × List Char)
  | [] => none
  | 'x' :: high :: low :: rest => (readCode? [high, low]).map (·, rest)
  | 'u' :: '\x7b' :: rest =>
    (readCode? (rest.takeWhile (· != '\x7d'))).map (·, (rest.dropWhile (· != '\x7d')).tail)
  | c :: rest => (plainEscape? c).map (·, rest)

def readChar? : List Char → Option (Char × List Char)
  | [] => none
  | c :: rest => if c = '\\' then readEscape? rest else some (c, rest)

theorem length_readEscape? {cs rest : List Char} {c : Char} (h : readEscape? cs = some (c, rest)) :
    rest.length < cs.length := by
  unfold readEscape? at h
  split at h
  · cases h
  · obtain ⟨_, -, hpair⟩ := Option.map_eq_some_iff.mp h
    cases hpair
    simp only [List.length_cons]
    omega
  · next digits =>
    obtain ⟨_, -, hpair⟩ := Option.map_eq_some_iff.mp h
    cases hpair
    have hbehind := (List.dropWhile_sublist (· != '\x7d') (l := digits)).length_le
    simp only [List.length_tail, List.length_cons]
    omega
  · obtain ⟨_, -, hpair⟩ := Option.map_eq_some_iff.mp h
    cases hpair
    exact Nat.lt_succ_self _

theorem length_readChar? {cs rest : List Char} {c : Char} (h : readChar? cs = some (c, rest)) :
    rest.length < cs.length := by
  cases cs with
  | nil => cases h
  | cons first cs =>
    rw [readChar?] at h
    split at h
    · exact Nat.lt_succ_of_lt (length_readEscape? h)
    · cases h
      exact Nat.lt_succ_self _

/-- The characters up to the closing quote, and what is behind it. -/
def readText? (cs : List Char) : Option (List Char × List Char) :=
  if cs.head? = some '"' then some ([], cs.tail)
  else
    match _h : readChar? cs with
    | none => none
    | some (c, rest) => (readText? rest).map fun (text, behind) => (c :: text, behind)
termination_by cs.length
decreasing_by exact length_readChar? _h

theorem readText?_quote (rest : List Char) : readText? ('"' :: rest) = some ([], rest) := by
  rw [readText?]
  exact if_pos rfl

theorem readText?_eq {cs : List Char} (hquote : cs.head? ≠ some '"') :
    readText? cs = (readChar? cs).bind fun (c, rest) =>
      (readText? rest).map fun (text, behind) => (c :: text, behind) := by
  rw [readText?, if_neg hquote]
  split
  · next hnone => rw [hnone, Option.bind_none]
  · next hsome => rw [hsome, Option.bind_some]

theorem length_readText? {cs text behind : List Char} (h : readText? cs = some (text, behind)) :
    behind.length ≤ cs.length := by
  induction hlength : cs.length using Nat.strongRecOn generalizing cs text with
  | ind n ih =>
    by_cases hquote : cs.head? = some '"'
    · rw [readText?, if_pos hquote] at h
      cases h
      rw [List.length_tail]
      omega
    · rw [readText?_eq hquote, Option.bind_eq_some_iff] at h
      obtain ⟨⟨c, rest⟩, hchar, h⟩ := h
      obtain ⟨⟨others, _⟩, hothers, hpair⟩ := Option.map_eq_some_iff.mp h
      cases hpair
      have hrest := length_readChar? hchar
      have hbehind := ih rest.length (by omega) hothers rfl
      omega

structure SpelledBy (c : Char) (spelling : List Char) : Prop where
  opens : spelling.head? ≠ some '"'
  reads : ∀ rest, readChar? (spelling ++ rest) = some (c, rest)

theorem spelledBy_codeEscape (c : Char) : SpelledBy c (codeEscape c) := by
  have hcode : readCode? (Nat.toDigits 16 c.toNat) = some c := by
    have hdigits := LetterCase.readDigits?_toDigits (by decide : 1 < 16) (by decide) .lower c.toNat
    rw [LetterCase.apply] at hdigits
    rw [readCode?, hdigits, Option.map_some, Char.ofNat_toNat]
  have hbrace : ∀ d ∈ Nat.toDigits 16 c.toNat, d != '\x7d' := by
    intro d hd
    have hdigit := LetterCase.isDigit_of_mem_toDigits (by decide : 1 < 16) (by decide) .lower hd
    rw [bne_iff_ne]
    rintro rfl
    contradiction
  refine ⟨by simp [codeEscape], fun rest => ?_⟩
  have hstops : Stops (· != '\x7d') ('\x7d' :: rest) := stops_cons.mpr rfl
  have htext : codeEscape c ++ rest
      = '\\' :: 'u' :: '\x7b' :: (Nat.toDigits 16 c.toNat ++ '\x7d' :: rest) := by
    simp [codeEscape]
  rw [htext, readChar?, if_pos rfl, readEscape?, takeWhile_run hbrace hstops,
    dropWhile_run hbrace hstops, hcode, Option.map_some, List.tail_cons]

theorem spelledBy_outlineEscape (c : Char) : SpelledBy c (outlineEscape c) := by
  unfold outlineEscape
  split
  · exact ⟨by decide, fun _ => rfl⟩
  · exact ⟨by decide, fun _ => rfl⟩
  · exact ⟨by decide, fun _ => rfl⟩
  · exact ⟨by decide, fun _ => rfl⟩
  · exact ⟨by decide, fun _ => rfl⟩
  · exact ⟨by decide, fun _ => rfl⟩
  · next hquote hslash _ _ _ _ =>
    split
    · exact spelledBy_codeEscape c
    · exact ⟨by simpa using hquote, fun rest => if_neg hslash⟩

theorem SpelledBy.readText? {c : Char} {spelling : List Char} (h : SpelledBy c spelling)
    (rest : List Char) : readText? (spelling ++ rest)
      = (readText? rest).map fun (text, behind) => (c :: text, behind) := by
  have hne : spelling ≠ [] := by
    rintro rfl
    have hnone := h.reads []
    cases hnone
  have hopens : (spelling ++ rest).head? ≠ some '"' := by
    obtain ⟨first, others, rfl⟩ := List.exists_cons_of_ne_nil hne
    exact h.opens
  rw [readText?_eq hopens, h.reads, Option.bind_some]

/-- A character has the same reading whatever is behind it, though its spelling may depend on the
character there. -/
theorem exists_spelling (c : Char) (cs : List Char) : ∃ spelling,
    SpelledBy c spelling ∧ literalEscape (c :: cs) = spelling ++ literalEscape cs := by
  cases cs with
  | nil => exact ⟨_, spelledBy_outlineEscape c, by simp [literalEscape]⟩
  | cons next cs =>
    by_cases hnull : c = '\x00'
    · subst hnull
      refine ⟨_, ?_, literalEscape.eq_2 next cs⟩
      split
      · exact ⟨by decide, fun _ => rfl⟩
      · exact ⟨by decide, fun _ => rfl⟩
    · refine ⟨_, spelledBy_outlineEscape c, literalEscape.eq_3 c (next :: cs) ?_⟩
      intro _ _ hc
      exact absurd hc hnull

theorem readText?_literalEscape (cs rest : List Char) :
    readText? (literalEscape cs ++ '"' :: rest) = some (cs, rest) := by
  induction cs with
  | nil => exact readText?_quote rest
  | cons c cs ih =>
    obtain ⟨spelling, hspelled, htext⟩ := exists_spelling c cs
    rw [htext, List.append_assoc, hspelled.readText?, ih, Option.map_some]

end ScriptBuiltins
