import ScriptBuiltins.Number.Basic

/-!
Words: counts fit sixty-four bits, and integer conversions show thirty-two.
-/
namespace ScriptBuiltins

def wordLimit : Nat := Nat.pow 2 64

def shortWordLimit : Nat := Nat.pow 2 32

def signedWord (n : Nat) : Int := (n : Int).bmod shortWordLimit

/-- The integer part of a number modulo `2^32`; zero for what is not finite. -/
def Number.toWord (x : Number) : Nat := (x.integerPart?.getD 0 % (shortWordLimit : Int)).toNat

theorem Number.toWord_lt (x : Number) : x.toWord < shortWordLimit := by
  have h : (0 : Int) < shortWordLimit := by decide
  have := Int.emod_lt_of_pos (x.integerPart?.getD 0) h
  have := Int.emod_nonneg (x.integerPart?.getD 0) (Int.ne_of_gt h)
  unfold toWord
  omega

end ScriptBuiltins
