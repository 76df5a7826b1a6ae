import ScriptBuiltins.Config
import ScriptBuiltins.Number.Decimal
import ScriptBuiltins.Number.Word
import ScriptBuiltins.Render.Field

namespace ScriptBuiltins

def barePoint (alternate : Bool) (places : Nat) : List Char :=
  if alternate && places == 0 then ['.'] else []

def fixedText (rank places : Nat) (alternate : Bool) : Option (List Char) :=
  if places ≤ maxFractionDigits then some (fixedDigits rank places ++ barePoint alternate places)
  else none

def exponentText (exponent : Int) : List Char :=
  'e' :: (if exponent < 0 then '-' else '+') :: paddedDigits 2 exponent.natAbs

def mantissaText (s : Scientific) (places : Nat) (alternate : Bool) : List Char :=
  positional places s.coefficient ++ barePoint alternate places

def scientificText (rank places : Nat) (alternate : Bool) : Option (List Char) :=
  if places ≤ maxFractionDigits then
    let s := Scientific.ofRank rank places
    some (mantissaText s places alternate ++ exponentText s.exponent)
  else none

def trimFraction (cs : List Char) : List Char :=
  if cs.contains '.' then
    let kept := (cs.reverse.dropWhile (· == '0')).reverse
    if kept.getLast? = some '.' then kept.dropLast else kept
  else cs

def trimMantissa (cs : List Char) : List Char :=
  trimFraction (cs.takeWhile (· != 'e')) ++ cs.dropWhile (· != 'e')

/-- The magnitude with a number of significant digits: with an exponent part if the exponent is
below -4 or not below that number, and positional otherwise. Zero has the exponent zero whatever the
number is, and the number is compared as a signed word. -/
def generalText (rank precision : Nat) (alternate : Bool) : Option (List Char) :=
  let significant := max precision 1
  let exponent? : Option Int :=
    if rank = 0 then some 0
    else if significant - 1 ≤ maxFractionDigits then
      some (Scientific.ofRank rank (significant - 1)).exponent
    else none
  match exponent? with
  | none => none
  | some exponent =>
    let text :=
      if exponent < -4 ∨ signedWord significant ≤ exponent then
        scientificText rank (significant - 1) alternate
      else fixedText rank (signedWord significant - 1 - exponent).toNat alternate
    if alternate then text else text.map trimMantissa

/-- The field of a float conversion, given the form of a magnitude with a precision; none if it
needs too many digits. What is not finite has no precision and is never filled with zeros. -/
def floatField (d : Directive) (letters : LetterCase) (form : Nat → Nat → Bool → Option (List Char))
    (x : Number) (config : Config) : Option Field :=
  let sign := d.flags.signFor x.isNegative
  match x with
  | .nan => some { sign, body := letters.apply "nan".toList }
  | .infinite _ => some { sign, body := letters.apply "inf".toList }
  | .finite _ rank =>
    (form rank (config.precisionOf d) d.flags.alternate).map fun body =>
      { sign, body := letters.apply body, zeroFill := true }

end ScriptBuiltins
