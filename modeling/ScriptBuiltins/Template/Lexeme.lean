import ScriptBuiltins.Template.Fault

/-!
Lexemes of a template: runs of plain text, percent escapes and directives. A percent sign that
begins neither escape nor directive ends the reading, and the text behind it tells whether it was
only cut off.
-/
namespace ScriptBuiltins

/-- `directive` and `broken` hold the text behind the percent sign. -/
inductive Lexeme where
  | literal (text : List Char)
  | escape
  | directive (body : List Char)
  | broken (rest : List Char)
  deriving DecidableEq

namespace Lexeme

def text : Lexeme → List Char
  | .literal cs => cs
  | .escape => ['%', '%']
  | .directive body => '%' :: body
  | .broken rest => '%' :: rest

def isFlag (c : Char) : Bool := c = '-' ∨ c = '+' ∨ c = ' ' ∨ c = '#' ∨ c = '0'

/-- Splits a group in parentheses off, empty if there is none; none if it is not closed. -/
def splitGroup? : List Char → Option (List Char × List Char)
  | '(' :: cs =>
    match cs.dropWhile (· != ')') with
    | [] => none
    | c :: rest => some ('(' :: cs.takeWhile (· != ')') ++ [c], rest)
  | cs => some ([], cs)

theorem splitGroup?_append {cs group rest : List Char} (h : splitGroup? cs = some (group, rest)) :
    group ++ rest = cs := by
  unfold splitGroup? at h
  split at h
  · rename_i cs
    split at h
    · contradiction
    · rename_i c rest' h'
      obtain ⟨rfl, rfl⟩ := Prod.mk.inj (Option.some.inj h)
      have := List.takeWhile_append_dropWhile (p := (· != ')')) (l := cs)
      rw [h'] at this
      simp [this]
  · obtain ⟨rfl, rfl⟩ := Prod.mk.inj (Option.some.inj h)
    rfl

def splitPoint : List Char → List Char × List Char
  | '.' :: cs => ('.' :: cs.takeWhile Char.isDigit, cs.dropWhile Char.isDigit)
  | cs => ([], cs)

theorem splitPoint_append (cs : List Char) : (splitPoint cs).1 ++ (splitPoint cs).2 = cs := by
  unfold splitPoint
  split <;> simp

def splitMiddle (cs : List Char) : List Char × List Char :=
  let afterFlags := cs.dropWhile isFlag
  let (point, rest) := splitPoint (afterFlags.dropWhile Char.isDigit)
  (cs.takeWhile isFlag ++ afterFlags.takeWhile Char.isDigit ++ point, rest)

theorem splitMiddle_append (cs : List Char) : (splitMiddle cs).1 ++ (splitMiddle cs).2 = cs := by
  simp only [splitMiddle, List.append_assoc, splitPoint_append, List.takeWhile_append_dropWhile]

/-- The directive at the front of the text behind a percent sign: a group or none, flags, digits, a
point with its digits, a group or none, and a letter. -/
def splitDirective? (cs : List Char) : Option (List Char × List Char) :=
  match splitGroup? cs with
  | none => none
  | some (early, cs) =>
    let (middle, cs) := splitMiddle cs
    match splitGroup? cs with
    | some (late, c :: rest) =>
      if c.isAlpha then some (early ++ middle ++ late ++ [c], rest) else none
    | _ => none

theorem splitDirective?_append {cs body rest : List Char}
    (h : splitDirective? cs = some (body, rest)) : body ++ rest = cs := by
  unfold splitDirective? at h
  split at h
  · contradiction
  · rename_i early cs' h₁
    dsimp only at h
    split at h
    · rename_i late c rest' h₂
      split at h
      · obtain ⟨rfl, rfl⟩ := Prod.mk.inj (Option.some.inj h)
        have h₃ : (splitMiddle cs').1 ++ (late ++ c :: rest') = cs' := by
          rw [splitGroup?_append h₂, splitMiddle_append]
        calc early ++ (splitMiddle cs').1 ++ late ++ [c] ++ rest'
            = early ++ ((splitMiddle cs').1 ++ (late ++ c :: rest')) := by simp
          _ = cs := by rw [h₃, splitGroup?_append h₁]
      · contradiction
    · contradiction

def ofText : List Char → List Lexeme
  | [] => []
  | '%' :: '%' :: rest => .escape :: ofText rest
  | '%' :: cs =>
    match _found : splitDirective? cs with
    | some (body, rest) => .directive body :: ofText rest
    | none => [.broken cs]
  | c :: cs => .literal (c :: cs.takeWhile (· != '%')) :: ofText (cs.dropWhile (· != '%'))
termination_by cs => cs.length
decreasing_by
  · simp only [List.length_cons]
    omega
  · have := congrArg List.length (splitDirective?_append _found)
    simp only [List.length_append] at this
    simp only [List.length_cons]
    omega
  · have := (List.dropWhile_sublist (· != '%') (l := cs)).length_le
    simp only [List.length_cons]
    omega

theorem flatMap_text_ofText (cs : List Char) : (ofText cs).flatMap text = cs := by
  fun_induction ofText cs with
  | case1 => rfl
  | case2 rest ih => simp [text, ih]
  | case3 cs _ body rest h ih => simp [text, ih, splitDirective?_append h]
  | case4 cs _ _ => simp [text]
  | case5 c cs _ _ ih => simp [text, ih]

def isMiddle (c : Char) : Bool :=
  c = '-' ∨ c = '+' ∨ c = ' ' ∨ c = '#' ∨ c = '.' ∨ c.isDigit

/-- What is wrong with a broken percent sign. It was cut off if its text ends within what may stand
before a conversion, taken loosely, or within a group. -/
def faultOf (rest : List Char) : Fault :=
  match splitGroup? (rest.dropWhile isMiddle) with
  | none => .incomplete
  | some (_, rest) =>
    match splitGroup? (rest.dropWhile isMiddle) with
    | none => .incomplete
    | some (_, rest) => if (rest.dropWhile isMiddle).isEmpty then .incomplete else .malformed

end Lexeme
end ScriptBuiltins
