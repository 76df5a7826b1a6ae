import ScriptBuiltins.Number.Numeral
import ScriptBuiltins.Template.Conversion
import ScriptBuiltins.Template.Fault

/-!
Directives: their parts, the reading of them from the text behind the percent sign, and their
canonical text.
-/
namespace ScriptBuiltins

structure Flags where
  leftJustify : Bool := false
  zeroPad : Bool := false
  plusSign : Bool := false
  spaceSign : Bool := false
  alternate : Bool := false
  deriving DecidableEq

namespace Flags

def set? (flags : Flags) : Char → Option Flags
  | '-' => some { flags with leftJustify := true }
  | '0' => some { flags with zeroPad := true }
  | '+' => some { flags with plusSign := true }
  | ' ' => some { flags with spaceSign := true }
  | '#' => some { flags with alternate := true }
  | _ => none

def take (flags : Flags) : List Char → Flags × List Char
  | [] => (flags, [])
  | c :: cs =>
    match flags.set? c with
    | some flags => take flags cs
    | none => (flags, c :: cs)

def toList (flags : Flags) : List Char :=
  (if flags.leftJustify then ['-'] else []) ++ (if flags.zeroPad then ['0'] else [])
    ++ (if flags.plusSign then ['+'] else []) ++ (if flags.spaceSign then [' '] else [])
    ++ if flags.alternate then ['#'] else []

end Flags

/-- A conversion of one value. Without a name it takes the next argument. -/
structure Directive where
  flags : Flags
  width : Option Nat
  precision : Option Nat
  name : Option String
  conversion : Conversion
  deriving DecidableEq

namespace Directive

def isNamed (d : Directive) : Bool := d.name.isSome

def takeName : List Char → Except Fault (Option String × List Char)
  | '(' :: cs =>
    match cs.dropWhile (· != ')') with
    | [] => .error .incomplete
    | _ :: rest =>
      let name := cs.takeWhile (· != ')')
      if name.isEmpty then .error .emptyName else .ok (some (String.ofList name), rest)
  | cs => .ok (none, cs)

/-- A run of digits, if there is one; its value has to fit a word. -/
def takeCount (cs : List Char) : Except Fault (Option Nat × List Char) :=
  let ds := cs.takeWhile Char.isDigit
  if ds.isEmpty then .ok (none, cs)
  else if decimalValue ds < wordLimit then .ok (some (decimalValue ds), cs.dropWhile Char.isDigit)
  else .error .malformed

def takePrecision : List Char → Except Fault (Option Nat × List Char)
  | '.' :: cs => do
    let (count, rest) ← takeCount cs
    .ok (some (count.getD 0), rest)
  | cs => .ok (none, cs)

def takeConversion : List Char → Except Fault Conversion
  | [] => .error .incomplete
  | [c] => match Conversion.ofChar? c with
    | some conversion => .ok conversion
    | none => .error (.unsupported c)
  | _ => .error .malformed

/-- Reads the text behind a percent sign. The name stands at its front or before the conversion, but
not in both places. -/
def parseBody (cs : List Char) : Except Fault Directive := do
  let (early, cs) ← takeName cs
  let (flags, cs) := ({} : Flags).take cs
  let (width, cs) ← takeCount cs
  let (precision, cs) ← takePrecision cs
  let (late, cs) ← takeName cs
  if early.isSome && late.isSome then .error .namedTwice
  else
    let conversion ← takeConversion cs
    .ok ⟨flags, width, precision, early.or late, conversion⟩

def parse : List Char → Except Fault Directive
  | '%' :: cs => parseBody cs
  | _ => .error .malformed

/-- The canonical text: the name first, then flags, width, precision and conversion. -/
def display (d : Directive) : List Char :=
  '%' :: (match d.name with
      | some name => '(' :: name.toList ++ [')']
      | none => [])
    ++ d.flags.toList
    ++ (match d.width with
      | some width => digits width
      | none => [])
    ++ (match d.precision with
      | some precision => '.' :: digits precision
      | none => [])
    ++ [d.conversion.toChar]

end Directive
end ScriptBuiltins
