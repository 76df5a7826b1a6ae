/-!
UTF-8, written strictly and read leniently. Reading replaces each maximal beginning of a character
that is cut short, and each byte that begins none, by one U+FFFD.
-/
namespace ScriptBuiltins

def utf8Encode (cs : List Char) : List UInt8 := cs.flatMap String.utf8EncodeChar

def utf8Length : List Char → Nat
  | [] => 0
  | c :: cs => c.utf8Size + utf8Length cs

theorem utf8Encode_eq_toUTF8 (cs : List Char) :
    utf8Encode cs = (String.ofList cs).toUTF8.data.toList := by
  have hbytes : (String.ofList cs).toUTF8 = cs.utf8Encode := rfl
  rw [hbytes, List.utf8Encode, List.data_toByteArray]
  rfl

theorem utf8Encode_newline : utf8Encode ['\n'] = [10] := by decide

theorem length_utf8Encode (cs : List Char) : (utf8Encode cs).length = utf8Length cs := by
  induction cs with
  | nil => rfl
  | cons c cs ih =>
    simp only [utf8Encode] at ih
    simp [utf8Encode, utf8Length, String.length_utf8EncodeChar, ih]

theorem utf8Length_append (as bs : List Char) :
    utf8Length (as ++ bs) = utf8Length as + utf8Length bs := by
  induction as with
  | nil => simp [utf8Length]
  | cons c cs ih => simp [utf8Length, ih, Nat.add_assoc]

theorem utf8Length_toList (s : String) : utf8Length s.toList = s.utf8ByteSize := by
  obtain ⟨cs, rfl⟩ : ∃ cs, s = String.ofList cs := ⟨s.toList, String.ofList_toList.symm⟩
  have hsize : (String.ofList cs).utf8ByteSize = cs.utf8Encode.size := rfl
  rw [String.toList_ofList, hsize, List.utf8Encode, List.size_toByteArray, ← length_utf8Encode,
    utf8Encode]

/-- A character of which some bytes have been read: how many follow, between which bounds the next
one has to be, and the bits so far. -/
structure PartialChar where
  more : Nat
  low : Nat
  high : Nat
  bits : Nat
  deriving DecidableEq

/-- What the first byte of a character announces; none if no character begins with it. The bounds on
the second byte keep overlong forms, surrogates and numbers past the last character out. -/
def PartialChar.ofLead? (b : Nat) : Option PartialChar :=
  if b ≤ 0x7F then some ⟨0, 0, 0, b⟩
  else if b < 0xC2 then none
  else if b ≤ 0xDF then some ⟨1, 0x80, 0xBF, b % 32⟩
  else if b = 0xE0 then some ⟨2, 0xA0, 0xBF, b % 16⟩
  else if b = 0xED then some ⟨2, 0x80, 0x9F, b % 16⟩
  else if b ≤ 0xEF then some ⟨2, 0x80, 0xBF, b % 16⟩
  else if b = 0xF0 then some ⟨3, 0x90, 0xBF, b % 8⟩
  else if b ≤ 0xF3 then some ⟨3, 0x80, 0xBF, b % 8⟩
  else if b = 0xF4 then some ⟨3, 0x80, 0x8F, b % 8⟩
  else none

def replacementChar : Char := Char.ofNat 0xFFFD

def PartialChar.first (b : Nat) : List Char × Option PartialChar :=
  match ofLead? b with
  | none => ([replacementChar], none)
  | some p => if p.more = 0 then ([Char.ofNat p.bits], none) else ([], some p)

def PartialChar.next (p : PartialChar) (b : Nat) : List Char × Option PartialChar :=
  if p.low ≤ b ∧ b ≤ p.high then
    let bits := p.bits * 64 + b % 64
    if p.more ≤ 1 then ([Char.ofNat bits], none)
    else ([], some ⟨p.more - 1, 0x80, 0xBF, bits⟩)
  else
    let (cs, pending) := first b
    (replacementChar :: cs, pending)

def decodeStep (pending : Option PartialChar) (b : UInt8) : List Char × Option PartialChar :=
  match pending with
  | none => PartialChar.first b.toNat
  | some p => p.next b.toNat

def decodeFrom : Option PartialChar → List UInt8 → List Char
  | none, [] => []
  | some _, [] => [replacementChar]
  | pending, b :: bs =>
    let (cs, pending) := decodeStep pending b
    cs ++ decodeFrom pending bs

def utf8Decode (bytes : List UInt8) : List Char := decodeFrom none bytes

end ScriptBuiltins
