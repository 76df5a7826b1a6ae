/-!
Double-precision numbers, kept exactly. A finite number is a sign and the rank of its magnitude
among all magnitudes, counted from zero; `units` is the magnitude itself as a multiple of `2^-1074`,
the least positive double. Ranks and magnitudes are in the same order, and the rank of a magnitude
is also its bit pattern without the sign.
-/
namespace ScriptBuiltins

def binade : Nat := Nat.pow 2 52

def rankLimit : Nat := 2047 * binade

/-- The magnitude of the given rank, in units of `2^-1074`. -/
def units (rank : Nat) : Nat :=
  let e := rank / binade - 1
  (rank - e * binade) * Nat.pow 2 e

/-- The greatest rank whose magnitude is at most `n` units. -/
def floorRank (n : Nat) : Nat :=
  let e := n.log2 - 52
  e * binade + n >>> e

def unitsPerOne : Nat := Nat.pow 2 1074

inductive Number where
  | nan
  | infinite (negative : Bool)
  | finite (negative : Bool) (rank : Fin rankLimit)
  deriving DecidableEq

namespace Number

def zero : Number := .finite false ⟨0, by decide⟩

instance : Inhabited Number := ⟨zero⟩

def ofRank (negative : Bool) (rank : Nat) : Number :=
  if h : rank < rankLimit then .finite negative ⟨rank, h⟩ else .infinite negative

theorem ofRank_of_lt (negative : Bool) {rank : Nat} (h : rank < rankLimit) :
    ofRank negative rank = .finite negative ⟨rank, h⟩ := by
  simp [ofRank, h]

def signBit : Nat := Nat.pow 2 63

/-- Reads the sixty-four bits of the interchange format. The payload of a NaN is not kept. -/
def ofBits (bits : UInt64) : Number :=
  let negative := decide (signBit ≤ bits.toNat)
  let rank := bits.toNat % signBit
  if rank ≤ rankLimit then ofRank negative rank else .nan

def bits? : Number → Option UInt64
  | .nan => none
  | .infinite negative => some (UInt64.ofNat ((if negative then signBit else 0) + rankLimit))
  | .finite negative rank => some (UInt64.ofNat ((if negative then signBit else 0) + rank))

/-- Widens the thirty-two bits of a single-precision number. Its magnitudes have twenty-three
fraction bits and the unit `2^-149`, so each of them is a magnitude here too. -/
def ofSingleBits (bits : UInt32) : Number :=
  let negative := decide (Nat.pow 2 31 ≤ bits.toNat)
  let rank := bits.toNat % Nat.pow 2 31
  let binade := Nat.pow 2 23
  let e := rank / binade - 1
  if rank < 255 * binade then
    ofRank negative (floorRank ((rank - e * binade) * Nat.pow 2 (e + 925)))
  else if rank = 255 * binade then .infinite negative
  else .nan

def isNaN : Number → Bool
  | .nan => true
  | _ => false

def isFinite : Number → Bool
  | .finite .. => true
  | _ => false

def isNegative : Number → Bool
  | .nan => false
  | .infinite negative => negative
  | .finite negative _ => negative

def equals : Number → Number → Bool
  | .infinite a, .infinite b => a == b
  | .finite a j, .finite b k => j == k && (a == b || j.val == 0)
  | _, _ => false

def integerPart? : Number → Option Int
  | .finite negative rank =>
    let n : Int := (units rank / unitsPerOne : Nat)
    some (if negative then -n else n)
  | _ => none

theorem equals_comm (x y : Number) : x.equals y = y.equals x := by
  cases x <;> cases y <;> try rfl
  case infinite.infinite a b => exact Bool.beq_comm
  case finite.finite a j b k =>
    by_cases h : j = k
    · subst h; cases a <;> cases b <;> rfl
    · have h' : k ≠ j := fun e => h e.symm
      simp only [equals, beq_false_of_ne h, beq_false_of_ne h', Bool.false_and]

theorem equals_self (x : Number) : x.equals x = !x.isNaN := by
  cases x <;> simp [equals, isNaN]

end Number
end ScriptBuiltins
