import ScriptBuiltins.Number.Shortest

/-!
Numbers as text in their shortest digits. The three styles of the library differ only in a `Layout`:
where positional form ends, whether whole numbers keep a point, and which way a tie between digits
goes.
-/
namespace ScriptBuiltins

/-- How shortest digits are laid out. Exponents of the first digit from `plainFrom` up to but not
including `plainBelow` are written positionally. -/
structure Layout where
  plainFrom : Int
  plainBelow : Int
  pointZero : Bool
  plusSign : Bool
  tie : Tie

namespace Layout

def script : Layout where
  plainFrom := -6
  plainBelow := 21
  pointZero := false
  plusSign := true
  tie := .up

def json : Layout where
  plainFrom := -5
  plainBelow := 16
  pointZero := true
  plusSign := true
  tie := .even

def outline : Layout where
  plainFrom := -4
  plainBelow := 16
  pointZero := true
  plusSign := false
  tie := .up

def plain (layout : Layout) (ds : List Char) (exponent : Int) : List Char :=
  if exponent < 0 then
    '0' :: '.' :: List.replicate (-exponent - 1).toNat '0' ++ ds
  else
    let whole := exponent.toNat + 1
    if ds.length ≤ whole then
      ds ++ List.replicate (whole - ds.length) '0' ++ if layout.pointZero then ['.', '0'] else []
    else ds.take whole ++ '.' :: ds.drop whole

def withExponent (layout : Layout) (ds : List Char) (exponent : Int) : List Char :=
  let sign := if exponent < 0 then ['-'] else if layout.plusSign then ['+'] else []
  let fraction := if ds.length ≤ 1 then [] else '.' :: ds.drop 1
  ds.take 1 ++ fraction ++ 'e' :: sign ++ digits exponent.natAbs

def arrange (layout : Layout) (ds : List Char) (exponent : Int) : List Char :=
  if layout.plainFrom ≤ exponent ∧ exponent < layout.plainBelow then layout.plain ds exponent
  else layout.withExponent ds exponent

def magnitude (layout : Layout) (rank : Nat) : List Char :=
  let shortest := shortestDigits layout.tie rank
  layout.arrange shortest.1 shortest.2

end Layout

namespace Number

def toText : Number → List Char
  | .nan => "NaN".toList
  | .infinite negative => signed negative "Infinity".toList
  | .finite negative rank =>
    if rank.val = 0 then ['0'] else signed negative (Layout.script.magnitude rank)

def toOutline : Number → List Char
  | .nan => "NaN".toList
  | .infinite negative => signed negative "inf".toList
  | .finite negative rank =>
    signed negative (if rank.val = 0 then "0.0".toList else Layout.outline.magnitude rank)

def exactIntegerLimit : Nat := Nat.pow 2 53

/-- The JSON text of a number. Whole numbers up to `2^53` are bare digits, a negative zero is `0`,
and what is not finite is `null`. -/
def toJson : Number → List Char
  | .nan => "null".toList
  | .infinite _ => "null".toList
  | .finite negative rank =>
    let whole := units rank / unitsPerOne
    if units rank % unitsPerOne = 0 ∧ whole ≤ exactIntegerLimit then
      signed (negative && whole != 0) (digits whole)
    else signed negative (Layout.json.magnitude rank)

end Number
end ScriptBuiltins
