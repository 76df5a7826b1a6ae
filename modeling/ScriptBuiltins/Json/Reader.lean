import ScriptBuiltins.Json.Basic

/-!
Reading JSON text. Every reader takes what stands first and gives it with the rest of the text.
-/
namespace ScriptBuiltins.Json

def isSpace (c : Char) : Bool := c = ' ' ∨ c = '\t' ∨ c = '\n' ∨ c = '\r'

def skipSpace (cs : List Char) : List Char := cs.dropWhile isSpace

def someDigits? (cs : List Char) : Option (List Char × List Char) :=
  let ds := cs.takeWhile Char.isDigit
  if ds.isEmpty then none else some (ds, cs.dropWhile Char.isDigit)

/-- The digits before the point: a zero stands in front of no others. -/
def readWhole? (cs : List Char) : Option (List Char × List Char) :=
  (someDigits? cs).filter fun (ds, _) => ds.length ≤ 1 || ds.head? != some '0'

def readFraction? : List Char → Option (List Char × List Char)
  | '.' :: rest => someDigits? rest
  | rest => some ([], rest)

def readExponent? : List Char → Option (Option Int × List Char)
  | [] => some (none, [])
  | c :: rest =>
    if c = 'e' ∨ c = 'E' then
      (someDigits? (splitSign rest).2).map fun (ds, after) =>
        let n : Int := decimalValue ds
        (some (if (splitSign rest).1 then -n else n), after)
    else some (none, c :: rest)

def readUnsigned? (negative : Bool) (cs : List Char) : Option (DecimalLiteral × List Char) := do
  let (whole, cs) ← readWhole? cs
  let (fraction, cs) ← readFraction? cs
  let (exponent, cs) ← readExponent? cs
  some (⟨negative, whole, fraction, exponent⟩, cs)

def readNumber? : List Char → Option (DecimalLiteral × List Char)
  | '-' :: rest => readUnsigned? true rest
  | cs => readUnsigned? false cs

def codeUnit? (ds : List Char) : Option Nat := readDigits? 16 ds 0

def shortEscape? : Char → Option Char
  | '"' => some '"'
  | '\\' => some '\\'
  | '/' => some '/'
  | 'b' => some '\x08'
  | 'f' => some '\x0c'
  | 'n' => some '\n'
  | 'r' => some '\r'
  | 't' => some '\t'
  | _ => none

/-- The characters up to the closing quote. `high` holds the first half of a surrogate pair when it
has just been read, and only the second half may follow it. -/
def readString? (high : Option Nat) : List Char → Option (List Char × List Char)
  | [] => none
  | '"' :: rest => if high.isNone then some ([], rest) else none
  | '\\' :: 'u' :: a :: b :: c :: d :: rest =>
    match codeUnit? [a, b, c, d], high with
    | none, _ => none
    | some u, none =>
      if 0xD800 ≤ u ∧ u < 0xDC00 then readString? (some u) rest
      else if 0xDC00 ≤ u ∧ u < 0xE000 then none
      else (readString? none rest).map fun (cs, rest) => (Char.ofNat u :: cs, rest)
    | some u, some h =>
      if 0xDC00 ≤ u ∧ u < 0xE000 then
        (readString? none rest).map fun (cs, rest) =>
          (Char.ofNat (0x10000 + (h - 0xD800) * 0x400 + (u - 0xDC00)) :: cs, rest)
      else none
  | '\\' :: c :: rest =>
    match shortEscape? c, high with
    | some e, none => (readString? none rest).map fun (cs, rest) => (e :: cs, rest)
    | _, _ => none
  | c :: rest =>
    if c.toNat < 0x20 || high.isSome then none
    else (readString? none rest).map fun (cs, rest) => (c :: cs, rest)

def expect? (word : List Char) (cs : List Char) : Option (List Char) :=
  if word.isPrefixOf cs then some (cs.drop word.length) else none

/-- Elements with commas between them and a mark of closing behind the last. The bound is on their
number. -/
def readList? {α : Type} (read : List Char → Option (α × List Char)) (close : Char) :
    Nat → List Char → Option (List α × List Char)
  | 0, _ => none
  | bound + 1, cs =>
    (read cs).bind fun (x, rest) =>
      match skipSpace rest with
      | [] => none
      | c :: after =>
        if c = ',' then (readList? read close bound after).map fun (xs, rest) => (x :: xs, rest)
        else if c = close then some ([x], after)
        else none

def readMember? (read : List Char → Option (Json × List Char)) (cs : List Char) :
    Option ((String × Json) × List Char) :=
  match skipSpace cs with
  | '"' :: rest =>
    (readString? none rest).bind fun (key, rest) =>
      match skipSpace rest with
      | ':' :: rest => (read rest).map fun (value, rest) => ((String.ofList key, value), rest)
      | _ => none
  | _ => none

def readValue? : Nat → List Char → Option (Json × List Char)
  | 0, _ => none
  | bound + 1, cs =>
    match skipSpace cs with
    | [] => none
    | '"' :: rest =>
      (readString? none rest).map fun (text, rest) => (string (String.ofList text), rest)
    | '[' :: rest =>
      match skipSpace rest with
      | ']' :: rest => some (array [], rest)
      | _ =>
        (readList? (readValue? bound) ']' (rest.length + 1) rest).map fun (items, rest) =>
          (array items, rest)
    | '\x7b' :: rest =>
      match skipSpace rest with
      | '\x7d' :: rest => some (object [], rest)
      | _ =>
        (readList? (readMember? (readValue? bound)) '\x7d' (rest.length + 1) rest).map
          fun (members, rest) => (object members, rest)
    | 'n' :: rest => (expect? "ull".toList rest).map fun rest => (null, rest)
    | 't' :: rest => (expect? "rue".toList rest).map fun rest => (bool true, rest)
    | 'f' :: rest => (expect? "alse".toList rest).map fun rest => (bool false, rest)
    | cs => (readNumber? cs).map fun (literal, rest) => (number literal, rest)

/-- The tree of a JSON text. A value is longer than what it has inside, so the length bounds the
depth. -/
def parse? (text : List Char) : Option Json :=
  match readValue? (text.length + 1) text with
  | some (tree, rest) => if (skipSpace rest).isEmpty then some tree else none
  | none => none

end ScriptBuiltins.Json
