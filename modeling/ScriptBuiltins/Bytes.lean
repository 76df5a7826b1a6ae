import ScriptBuiltins.Text.Utf8

namespace ScriptBuiltins

structure Bytes where
  toList : List UInt8
  deriving DecidableEq, Inhabited

namespace Bytes

def encode (text : String) : Bytes := ⟨utf8Encode text.toList⟩

def decode (bytes : Bytes) : List Char := utf8Decode bytes.toList

def size (bytes : Bytes) : Nat := bytes.toList.length

def isEmpty (bytes : Bytes) : Bool := bytes.toList.isEmpty

def slice (bytes : Bytes) (offset : Nat) (length : Option Nat) : Bytes :=
  let rest := bytes.toList.drop offset
  ⟨match length with
    | some n => rest.take n
    | none => rest⟩

def append (a b : Bytes) : Bytes := ⟨a.toList ++ b.toList⟩

instance : Append Bytes := ⟨append⟩

@[simp] theorem toList_append (a b : Bytes) : (a ++ b).toList = a.toList ++ b.toList := rfl

end Bytes
end ScriptBuiltins
