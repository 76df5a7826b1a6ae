import ScriptBuiltins.Number.Rounding
import ScriptBuiltins.Number.Word
import ScriptBuiltins.Text.Blank

/-!
Numerals as a script reads them from text: decimal literals, digits behind a radix mark, and the two
infinities, with blanks around them. Everything else is not a number.
-/
namespace ScriptBuiltins

def digitValue? (c : Char) : Option Nat :=
  if c.isDigit then some (c.toNat - 48)
  else if 'a' ≤ c ∧ c ≤ 'z' then some (c.toNat - 87)
  else if 'A' ≤ c ∧ c ≤ 'Z' then some (c.toNat - 55)
  else none

def readDigits? (base : Nat) : List Char → Nat → Option Nat
  | [], value => some value
  | c :: cs, value =>
    match digitValue? c with
    | some d => if d < base then readDigits? base cs (value * base + d) else none
    | none => none

theorem readDigits?_append (base : Nat) (as bs : List Char) (value : Nat) :
    readDigits? base (as ++ bs) value = (readDigits? base as value).bind (readDigits? base bs) := by
  induction as generalizing value with
  | nil => rfl
  | cons c cs ih =>
    simp only [List.cons_append, readDigits?]
    split
    · split
      · exact ih _
      · rfl
    · rfl

def decimalValue (ds : List Char) : Nat := Nat.ofDigitChars 10 ds 0

/-- A natural behind a radix mark: at least one digit, one plus sign allowed, below `2^64`. -/
def readWord? (base : Nat) (cs : List Char) : Option Nat :=
  let ds := match cs with
    | '+' :: rest => rest
    | _ => cs
  if ds.isEmpty then none
  else (readDigits? base ds 0).filter (· < wordLimit)

def radix? : Char → Option Nat
  | 'x' => some 16
  | 'X' => some 16
  | 'o' => some 8
  | 'O' => some 8
  | 'b' => some 2
  | 'B' => some 2
  | _ => none

def splitSign : List Char → Bool × List Char
  | '-' :: rest => (true, rest)
  | '+' :: rest => (false, rest)
  | cs => (false, cs)

/-- A decimal literal: the digits before and after the point, and the exponent if one is written. -/
structure DecimalLiteral where
  negative : Bool
  whole : List Char
  fraction : List Char
  exponent : Option Int
  deriving DecidableEq

namespace DecimalLiteral

def exponentValue? (cs : List Char) : Option Int :=
  let (negative, ds) := splitSign cs
  if ds.isEmpty || !ds.all Char.isDigit then none
  else some (if negative then -(decimalValue ds : Int) else decimalValue ds)

/-- Reads digits with a point among them or at either end, at least one digit, and behind them an
exponent or nothing. -/
def parse? (cs : List Char) : Option DecimalLiteral :=
  let (negative, body) := splitSign cs
  let whole := body.takeWhile Char.isDigit
  let (fraction, rest) := match body.dropWhile Char.isDigit with
    | '.' :: after => (after.takeWhile Char.isDigit, after.dropWhile Char.isDigit)
    | rest => ([], rest)
  if whole.isEmpty && fraction.isEmpty then none
  else match rest with
    | [] => some ⟨negative, whole, fraction, none⟩
    | c :: cs =>
      if c = 'e' ∨ c = 'E' then
        (exponentValue? cs).map fun exponent => ⟨negative, whole, fraction, some exponent⟩
      else none

def coefficient (l : DecimalLiteral) : Nat := decimalValue (l.whole ++ l.fraction)

def scale (l : DecimalLiteral) : Int := l.exponent.getD 0 - l.fraction.length

def toNumber (l : DecimalLiteral) : Number := Number.ofDecimal l.negative l.coefficient l.scale

end DecimalLiteral

namespace Number

def ofNumeral : List Char → Number
  | [] => zero
  | '0' :: c :: rest =>
    match radix? c with
    | some base => ((readWord? base rest).map ofNat).getD .nan
    | none => ((DecimalLiteral.parse? ('0' :: c :: rest)).map DecimalLiteral.toNumber).getD .nan
  | cs =>
    if (splitSign cs).2 = "Infinity".toList then .infinite (splitSign cs).1
    else ((DecimalLiteral.parse? cs).map DecimalLiteral.toNumber).getD .nan

def ofText (cs : List Char) : Number := ofNumeral (trimBlanks cs)

end Number
end ScriptBuiltins
