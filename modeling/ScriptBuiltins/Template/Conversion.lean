namespace ScriptBuiltins

inductive LetterCase where
  | lower
  | upper
  deriving DecidableEq

def LetterCase.apply : LetterCase → List Char → List Char
  | .lower, cs => cs
  | .upper, cs => cs.map Char.toUpper

theorem LetterCase.length_apply (letters : LetterCase) (cs : List Char) :
    (letters.apply cs).length = cs.length := by
  cases letters <;> simp [apply]

inductive Conversion where
  | decimal
  | integer
  | octal
  | hex (letters : LetterCase)
  | fixed (letters : LetterCase)
  | exponent (letters : LetterCase)
  | general (letters : LetterCase)
  | text
  | json
  deriving DecidableEq

namespace Conversion

def ofChar? : Char → Option Conversion
  | 'd' => some .decimal
  | 'i' => some .integer
  | 'o' => some .octal
  | 'x' => some (.hex .lower)
  | 'X' => some (.hex .upper)
  | 'f' => some (.fixed .lower)
  | 'F' => some (.fixed .upper)
  | 'e' => some (.exponent .lower)
  | 'E' => some (.exponent .upper)
  | 'g' => some (.general .lower)
  | 'G' => some (.general .upper)
  | 's' => some .text
  | 'r' => some .json
  | _ => none

def toChar : Conversion → Char
  | .decimal => 'd'
  | .integer => 'i'
  | .octal => 'o'
  | .hex .lower => 'x'
  | .hex .upper => 'X'
  | .fixed .lower => 'f'
  | .fixed .upper => 'F'
  | .exponent .lower => 'e'
  | .exponent .upper => 'E'
  | .general .lower => 'g'
  | .general .upper => 'G'
  | .text => 's'
  | .json => 'r'

theorem ofChar?_toChar (c : Conversion) : ofChar? c.toChar = some c := by
  rcases c with _ | _ | _ | l | l | l | l | _ | _ <;> first | rfl | cases l <;> rfl

theorem toChar_of_ofChar? {c : Char} {conversion : Conversion} (h : ofChar? c = some conversion) :
    conversion.toChar = c := by
  unfold ofChar? at h
  split at h <;> first | (cases h; rfl) | contradiction

def isInteger : Conversion → Bool
  | .decimal | .integer | .octal | .hex _ => true
  | _ => false

def isFloat : Conversion → Bool
  | .fixed _ | .exponent _ | .general _ => true
  | _ => false

def isNumeric (c : Conversion) : Bool := c.isInteger || c.isFloat

end Conversion
end ScriptBuiltins
