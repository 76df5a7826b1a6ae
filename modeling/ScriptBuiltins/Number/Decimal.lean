import ScriptBuiltins.Number.Rounding

/-!
The decimal expansion of a double. One unit is `5^1074` times `10^-1074`, so every magnitude is a
whole number of `10^-1074` and its expansion is finite. Rounding to a number of places is rounding
that whole number, and so exact; a half goes to the even digit.
-/
namespace ScriptBuiltins

def digits (n : Nat) : List Char := Nat.toDigits 10 n

def paddedDigits (width n : Nat) : List Char :=
  List.replicate (width - (digits n).length) '0' ++ digits n

def signed (negative : Bool) (text : List Char) : List Char :=
  if negative then '-' :: text else text

def exactPlaces : Nat := 1074

def decimalsPerUnit : Nat := Nat.pow 5 exactPlaces

/-- The magnitude of a rank as a whole number of `10^-1074`. -/
def exactDecimal (rank : Nat) : Nat := units rank * decimalsPerUnit

def roundToPlaces (decimal places : Nat) : Nat :=
  if places ≤ exactPlaces then halfEven decimal (Nat.pow 10 (exactPlaces - places))
  else decimal * Nat.pow 10 (places - exactPlaces)

def positional (places n : Nat) : List Char :=
  let ds := paddedDigits (places + 1) n
  let whole := ds.length - places
  ds.take whole ++ if places = 0 then [] else '.' :: ds.drop whole

def fixedDigits (rank places : Nat) : List Char :=
  positional places (roundToPlaces (exactDecimal rank) places)

/-- A coefficient `c` of `places + 1` digits and an exponent `e`, for `c * 10^(e - places)`. -/
structure Scientific where
  coefficient : Nat
  exponent : Int
  deriving DecidableEq

/-- The magnitude rounded to `places + 1` significant digits. Rounding up to the next power of ten
moves the exponent and leaves one digit less to write. -/
def Scientific.ofRank (rank places : Nat) : Scientific :=
  let decimal := exactDecimal rank
  if decimal = 0 then ⟨0, 0⟩
  else
    let length := (digits decimal).length
    let exponent : Int := (length : Int) - 1 - exactPlaces
    let c :=
      if length ≤ places + 1 then decimal * Nat.pow 10 (places + 1 - length)
      else halfEven decimal (Nat.pow 10 (length - (places + 1)))
    if c = Nat.pow 10 (places + 1) then ⟨Nat.pow 10 places, exponent + 1⟩ else ⟨c, exponent⟩

end ScriptBuiltins
