import ScriptBuiltins.Number.Basic

/-!
Rounding exact values to doubles. A value is a quotient of naturals, in units of `2^-1074`; it goes
to the nearest magnitude, and from the middle between two of them to the one of even rank.
-/
namespace ScriptBuiltins

def nearer (low : Nat) : Ordering → Nat
  | .lt => low
  | .eq => low + low % 2
  | .gt => low + 1

/-- The quotient `n / d` rounded to the nearest natural, a half going to the even one. -/
def halfEven (n d : Nat) : Nat := nearer (n / d) (compare (2 * (n % d)) d)

/-- The rank of the magnitude nearest to `n / d` units, the even one of two. -/
def nearestRank (n d : Nat) : Nat :=
  let rank := floorRank (n / d)
  nearer rank (compare (2 * n) (d * (units rank + units (rank + 1))))

namespace Number

def ofUnits (negative : Bool) (n d : Nat) : Number := ofRank negative (nearestRank n d)

def ofNat (n : Nat) : Number := ofUnits false (n * unitsPerOne) 1

def ofInt (n : Int) : Number := ofUnits (n < 0) (n.natAbs * unitsPerOne) 1

/-- The double nearest to `± coefficient * 10^exponent`. Values of more than four hundred digits
before the point, or with their first digit more than four hundred places after it, are far beyond
the doubles on either side, so the power of ten is only built between those bounds. -/
def ofDecimal (negative : Bool) (coefficient : Nat) (exponent : Int) : Number :=
  let first := (Nat.toDigits 10 coefficient).length + exponent
  if coefficient = 0 ∨ first < -400 then ofRank negative 0
  else if 400 < first then .infinite negative
  else
    ofUnits negative (coefficient * unitsPerOne * Nat.pow 10 exponent.toNat)
      (Nat.pow 10 (-exponent).toNat)

end Number
end ScriptBuiltins
