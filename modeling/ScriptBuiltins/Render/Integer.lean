import ScriptBuiltins.Number.Word
import ScriptBuiltins.Render.Field

namespace ScriptBuiltins

/-- Digits brought to a precision by zeros in front. A zero of precision zero has no digits. -/
def withPrecision (precision : Option Nat) (n : Nat) (ds : List Char) : List Char :=
  match precision with
  | none => ds
  | some p => if p = 0 ∧ n = 0 then [] else List.replicate (p - ds.length) '0' ++ ds

def signedField (d : Directive) (x : Number) : Field :=
  let word := x.toWord
  let negative := decide (shortWordLimit ≤ 2 * word)
  let magnitude := if negative then shortWordLimit - word else word
  { sign := d.flags.signFor negative
    body := withPrecision d.precision word (digits magnitude)
    zeroFill := d.precision.isNone }

def octalField (d : Directive) (x : Number) : Field :=
  let word := x.toWord
  let body := withPrecision d.precision word (Nat.toDigits 8 word)
  { radixMark := if d.flags.alternate && body.head? != some '0' then ['0'] else []
    body
    zeroFill := d.precision.isNone }

def hexField (d : Directive) (letters : LetterCase) (x : Number) : Field :=
  let word := x.toWord
  { radixMark := if d.flags.alternate && word != 0 then letters.apply ['0', 'x'] else []
    body := withPrecision d.precision word (letters.apply (Nat.toDigits 16 word))
    zeroFill := d.precision.isNone }

end ScriptBuiltins
