import ScriptBuiltins.Number.Decimal

/-!
The fewest digits that read back. Grids of decreasing step `10^k` are tried in turn; on each of them
only the two neighbours of the exact value can be the nearest one that rounds to it. The first grid
with a hit wins, and of two hits the nearer.
-/
namespace ScriptBuiltins

/-- Which way the middle between two equally short decimals goes. -/
inductive Tie where
  | up
  | even
  deriving DecidableEq

def readsBack (rank decimal : Nat) : Bool := nearestRank decimal decimalsPerUnit == rank

def Tie.choose (tie : Tie) (low : Nat) : Ordering → Nat
  | .lt => low
  | .eq => if tie = .even ∧ low % 2 = 0 then low else low + 1
  | .gt => low + 1

def Tie.pick? (tie : Tie) (low : Nat) (side : Ordering) : Bool → Bool → Option Nat
  | false, false => none
  | true, false => some low
  | false, true => some (low + 1)
  | true, true => some (tie.choose low side)

/-- A grid point in the place of the exact value: a multiple of `10^k` that reads back, if the grid
has one. -/
def gridPoint? (tie : Tie) (rank k : Nat) : Option Nat :=
  let decimal := exactDecimal rank
  let step := Nat.pow 10 k
  let low := decimal / step
  tie.pick? low (compare (2 * decimal) ((2 * low + 1) * step)) (readsBack rank (low * step))
    (readsBack rank ((low + 1) * step))

def shortestFrom (tie : Tie) (rank : Nat) : Nat → Nat × Nat
  | 0 => (exactDecimal rank, 0)
  | k + 1 =>
    ((gridPoint? tie rank (k + 1)).map fun c => (c, k + 1)).getD (shortestFrom tie rank k)

def leadingDigits (c k : Nat) : List Char × Int :=
  let ds := digits c
  ((ds.reverse.dropWhile (· == '0')).reverse, (ds.length : Int) - 1 + k - exactPlaces)

/-- The shortest digits of a positive magnitude, without zeros at the end, and the exponent of the
first of them. -/
def shortestDigits (tie : Tie) (rank : Nat) : List Char × Int :=
  let found := shortestFrom tie rank ((digits (exactDecimal rank)).length - 1)
  leadingDigits found.1 found.2

end ScriptBuiltins
