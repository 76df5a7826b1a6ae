import ScriptBuiltins.Number.Decimal
import ScriptBuiltins.Text.Extender
import ScriptBuiltins.Text.Unprinted

/-!
Texts between double quotes, in three dialects: JSON, outlines, and literals of a call site. They
share the backslash before a quote and a backslash and differ in how other characters are written.
-/
namespace ScriptBuiltins

def quote (body : List Char) : List Char := '"' :: body ++ ['"']

def hexDigits (width n : Nat) : List Char :=
  let ds := Nat.toDigits 16 n
  List.replicate (width - ds.length) '0' ++ ds

/-- One character of a JSON text. The controls with a name are written by it and the others by their
four digit code. -/
def jsonEscape (c : Char) : List Char :=
  match c with
  | '"' => ['\\', '"']
  | '\\' => ['\\', '\\']
  | '\x08' => ['\\', 'b']
  | '\t' => ['\\', 't']
  | '\n' => ['\\', 'n']
  | '\x0c' => ['\\', 'f']
  | '\r' => ['\\', 'r']
  | c => if c.toNat < 0x20 then '\\' :: 'u' :: hexDigits 4 c.toNat else [c]

def jsonQuoted (cs : List Char) : List Char := quote (cs.flatMap jsonEscape)

def codeEscape (c : Char) : List Char :=
  "\\u\x7b".toList ++ Nat.toDigits 16 c.toNat ++ ['\x7d']

/-- One character of an outline. What has no printed form, or would join the character before it, is
written by its code. -/
def outlineEscape (c : Char) : List Char :=
  match c with
  | '"' => ['\\', '"']
  | '\\' => ['\\', '\\']
  | '\n' => ['\\', 'n']
  | '\t' => ['\\', 't']
  | '\r' => ['\\', 'r']
  | '\x00' => ['\\', '0']
  | c => if isExtender c || isUnprinted c then codeEscape c else [c]

def outlineQuoted (cs : List Char) : List Char := quote (cs.flatMap outlineEscape)

/-- The characters of a literal, as in an outline, but a null before an octal digit has two digits,
so that the digit is not read as part of it. -/
def literalEscape : List Char → List Char
  | [] => []
  | '\x00' :: c :: cs =>
    (if '0' ≤ c ∧ c ≤ '7' then "\\x00".toList else ['\\', '0']) ++ literalEscape (c :: cs)
  | c :: cs => outlineEscape c ++ literalEscape cs

def literalQuoted (cs : List Char) : List Char := quote (literalEscape cs)

end ScriptBuiltins
