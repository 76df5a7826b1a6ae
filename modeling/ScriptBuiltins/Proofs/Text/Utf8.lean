import ScriptBuiltins.Bytes

/-! Lenient reading of UTF-8. A byte that begins a character is read in the same way whatever comes
before it, so a text keeps its characters between any other bytes. -/
namespace ScriptBuiltins

def IsTrailing (b : UInt8) : Prop := 0x80 ≤ b.toNat ∧ b.toNat ≤ 0xBF

/-- No character goes on into these bytes. -/
def AtBoundary (bytes : List UInt8) : Prop := ∀ b ∈ bytes.head?, ¬ IsTrailing b

/-- Only trailing bytes go on with what is pending. -/
structure PartialChar.Waits (p : PartialChar) : Prop where
  low : 0x80 ≤ p.low
  high : p.high ≤ 0xBF

theorem decodeFrom_cons (pending : Option PartialChar) (b : UInt8) (bytes : List UInt8) :
    decodeFrom pending (b :: bytes)
      = (decodeStep pending b).1 ++ decodeFrom (decodeStep pending b).2 bytes := by
  cases pending <;> rfl

namespace PartialChar

theorem waits_of_ofLead? {b : Nat} {p : PartialChar} (h : ofLead? b = some p) (hmore : p.more ≠ 0) :
    p.Waits := by
  constructor <;> grind [ofLead?]

theorem waits_first {b : Nat} {p : PartialChar} (h : (first b).2 = some p) : p.Waits := by
  unfold first at h
  split at h
  · cases h
  · rename_i lead hlead
    split at h
    · cases h
    · rename_i hmore
      cases h
      exact waits_of_ofLead? hlead hmore

theorem waits_next {p q : PartialChar} {b : Nat} (h : (p.next b).2 = some q) : q.Waits := by
  unfold next at h
  split at h
  · split at h
    · cases h
    · cases h
      exact ⟨Nat.le_refl _, Nat.le_refl _⟩
  · exact waits_first h

/-- A byte that is none of those waited for ends what is pending and is read on its own. -/
theorem Waits.next_eq {p : PartialChar} (h : p.Waits) {b : UInt8} (hb : ¬ IsTrailing b) :
    p.next b.toNat = (replacementChar :: (first b.toNat).1, (first b.toNat).2) := by
  rw [next, if_neg]
  exact fun hwithin => hb ⟨Nat.le_trans h.low hwithin.1, Nat.le_trans hwithin.2 h.high⟩

end PartialChar

theorem waits_decodeStep {pending : Option PartialChar} {b : UInt8} :
    ∀ p ∈ (decodeStep pending b).2, p.Waits := by
  intro p hp
  cases pending with
  | none => exact PartialChar.waits_first hp
  | some q => exact PartialChar.waits_next hp

theorem decodeFrom_of_atBoundary {pending : Option PartialChar} (hwaits : ∀ p ∈ pending, p.Waits)
    {bytes : List UInt8} (h : AtBoundary bytes) :
    decodeFrom pending bytes = decodeFrom pending [] ++ utf8Decode bytes := by
  cases pending with
  | none => rfl
  | some p =>
    cases bytes with
    | nil => rfl
    | cons b bytes =>
      have hstep : decodeStep (some p) b
          = (replacementChar :: (PartialChar.first b.toNat).1, (PartialChar.first b.toNat).2) :=
        (hwaits p rfl).next_eq (h b rfl)
      rw [utf8Decode, decodeFrom_cons, decodeFrom_cons, hstep]
      rfl

theorem decodeFrom_append {pending : Option PartialChar} (hwaits : ∀ p ∈ pending, p.Waits)
    (bytes : List UInt8) {others : List UInt8} (h : AtBoundary others) :
    decodeFrom pending (bytes ++ others) = decodeFrom pending bytes ++ utf8Decode others := by
  -- Whatever a byte leaves pending waits for trailing bytes only, which carries the induction.
  induction bytes generalizing pending with
  | nil => exact decodeFrom_of_atBoundary hwaits h
  | cons b bytes ih =>
    rw [List.cons_append, decodeFrom_cons, decodeFrom_cons, ih waits_decodeStep, List.append_assoc]

/-- Bytes before a boundary do not change what is read behind it. -/
theorem utf8Decode_append (bytes : List UInt8) {others : List UInt8} (h : AtBoundary others) :
    utf8Decode (bytes ++ others) = utf8Decode bytes ++ utf8Decode others :=
  decodeFrom_append (by simp) bytes h

/-! ### Characters -/

namespace PartialChar

theorem ofLead?_two : ∀ k < 32, 2 ≤ k → ofLead? (k + 192) = some ⟨1, 0x80, 0xBF, k⟩ := by
  decide

theorem ofLead?_three : ∀ k < 16, ofLead? (k + 224) =
    some ⟨2, if k = 0 then 0xA0 else 0x80, if k = 13 then 0x9F else 0xBF, k⟩ := by
  decide

theorem ofLead?_four : ∀ k < 5, ofLead? (k + 240) =
    some ⟨3, if k = 0 then 0x90 else 0x80, if k = 4 then 0x8F else 0xBF, k⟩ := by
  decide

theorem utf8Decode_lead {p : PartialChar} {k : Nat} (h : ofLead? k = some p) (hk : k < 256)
    (hmore : p.more ≠ 0) (bytes : List UInt8) :
    utf8Decode (UInt8.ofNat k :: bytes) = decodeFrom (some p) bytes := by
  rw [utf8Decode, decodeFrom_cons, decodeStep, first, UInt8.toNat_ofNat_of_lt' hk, h]
  simp [hmore]

theorem next_trailing {p : PartialChar} {m : Nat} (hlow : p.low ≤ m % 64 + 128)
    (hhigh : m % 64 + 128 ≤ p.high) : p.next (UInt8.ofNat (m % 64 + 128)).toNat =
      if p.more ≤ 1 then ([Char.ofNat (p.bits * 64 + m % 64)], none)
      else ([], some ⟨p.more - 1, 0x80, 0xBF, p.bits * 64 + m % 64⟩) := by
  have hbyte : m % 64 + 128 < 256 := by omega
  have hbits : (m % 64 + 128) % 64 = m % 64 := by omega
  rw [next, UInt8.toNat_ofNat_of_lt' hbyte, if_pos ⟨hlow, hhigh⟩, hbits]

theorem decodeFrom_trailing {p : PartialChar} {m : Nat} (hlow : p.low ≤ m % 64 + 128)
    (hhigh : m % 64 + 128 ≤ p.high) (hmore : 1 < p.more) (bytes : List UInt8) :
    decodeFrom (some p) (UInt8.ofNat (m % 64 + 128) :: bytes)
      = decodeFrom (some ⟨p.more - 1, 0x80, 0xBF, p.bits * 64 + m % 64⟩) bytes := by
  rw [decodeFrom_cons, decodeStep, next_trailing hlow hhigh, if_neg (by omega), List.nil_append]

theorem decodeFrom_last {p : PartialChar} {m : Nat} (hlow : p.low ≤ m % 64 + 128)
    (hhigh : m % 64 + 128 ≤ p.high) (hmore : p.more = 1) (bytes : List UInt8) :
    decodeFrom (some p) (UInt8.ofNat (m % 64 + 128) :: bytes)
      = Char.ofNat (p.bits * 64 + m % 64) :: utf8Decode bytes := by
  rw [decodeFrom_cons, decodeStep, next_trailing hlow hhigh, if_pos (by omega)]
  rfl

theorem decodeFrom_pair {p : PartialChar} {m n : Nat} (hlow : p.low ≤ m % 64 + 128)
    (hhigh : m % 64 + 128 ≤ p.high) (hmore : p.more = 2) (bytes : List UInt8) :
    decodeFrom (some p) (UInt8.ofNat (m % 64 + 128) :: UInt8.ofNat (n % 64 + 128) :: bytes)
      = Char.ofNat ((p.bits * 64 + m % 64) * 64 + n % 64) :: utf8Decode bytes := by
  rw [decodeFrom_trailing hlow hhigh (by omega), decodeFrom_last (by simp) (by simp; omega)]
  simp [hmore]

variable {n : Nat} (bytes : List UInt8)

theorem utf8Decode_one (h : n ≤ 0x7F) :
    utf8Decode (UInt8.ofNat n :: bytes) = Char.ofNat n :: utf8Decode bytes := by
  have hbyte : n < 256 := by omega
  rw [utf8Decode, decodeFrom_cons, decodeStep, first, UInt8.toNat_ofNat_of_lt' hbyte, ofLead?,
    if_pos h]
  rfl

theorem utf8Decode_two (hlow : 0x7F < n) (hhigh : n ≤ 0x7FF) :
    utf8Decode (UInt8.ofNat (n / 64 % 32 + 192) :: UInt8.ofNat (n % 64 + 128) :: bytes)
      = Char.ofNat n :: utf8Decode bytes := by
  have hlead := ofLead?_two (n / 64 % 32) (by omega) (by omega)
  have hbits : n / 64 % 32 * 64 + n % 64 = n := by omega
  rw [utf8Decode_lead hlead (by omega) (by simp), decodeFrom_last (by simp) (by simp; omega) rfl,
    hbits]

theorem utf8Decode_three (hlow : 0x7FF < n) (hhigh : n ≤ 0xFFFF)
    (hvalid : n < 0xD800 ∨ 0xDFFF < n) :
    utf8Decode (UInt8.ofNat (n / 4096 % 16 + 224) :: UInt8.ofNat (n / 64 % 64 + 128)
      :: UInt8.ofNat (n % 64 + 128) :: bytes) = Char.ofNat n :: utf8Decode bytes := by
  have hlead := ofLead?_three (n / 4096 % 16) (by omega)
  have hbits : (n / 4096 % 16 * 64 + n / 64 % 64) * 64 + n % 64 = n := by omega
  rw [utf8Decode_lead hlead (by omega) (by simp), decodeFrom_pair _ _ rfl, hbits]
  · show ite _ _ _ ≤ _
    split <;> omega
  · show _ ≤ ite _ _ _
    split <;> omega

theorem utf8Decode_four (hlow : 0xFFFF < n) (hhigh : n < 0x110000) :
    utf8Decode (UInt8.ofNat (n / 262144 % 8 + 240) :: UInt8.ofNat (n / 4096 % 64 + 128)
      :: UInt8.ofNat (n / 64 % 64 + 128) :: UInt8.ofNat (n % 64 + 128) :: bytes)
      = Char.ofNat n :: utf8Decode bytes := by
  have hlead := ofLead?_four (n / 262144 % 8) (by omega)
  have hbits : ((n / 262144 % 8 * 64 + n / 4096 % 64) * 64 + n / 64 % 64) * 64 + n % 64 = n := by
    omega
  rw [utf8Decode_lead hlead (by omega) (by simp), decodeFrom_trailing _ _ (by simp),
    decodeFrom_pair (by simp) (by simp; omega) rfl, hbits]
  · show ite _ _ _ ≤ _
    split <;> omega
  · show _ ≤ ite _ _ _
    split <;> omega

end PartialChar

theorem utf8Decode_char (c : Char) (bytes : List UInt8) :
    utf8Decode (String.utf8EncodeChar c ++ bytes) = c :: utf8Decode bytes := by
  have hvalid : c.val.toNat < 0xD800 ∨ (0xDFFF < c.val.toNat ∧ c.val.toNat < 0x110000) := c.valid
  have hchar : Char.ofNat c.val.toNat = c := c.ofNat_toNat
  rw [String.utf8EncodeChar]
  conv => rhs; rw [← hchar]
  generalize c.val.toNat = n at hvalid
  split
  · exact PartialChar.utf8Decode_one bytes ‹_›
  · split
    · exact PartialChar.utf8Decode_two bytes (by omega) ‹_›
    · split
      · exact PartialChar.utf8Decode_three bytes (by omega) ‹_› (by omega)
      · exact PartialChar.utf8Decode_four bytes (by omega) (by omega)

theorem atBoundary_lead {k : Nat} (hk : k < 256) (h : k < 0x80 ∨ 0xBF < k) (bytes : List UInt8) :
    AtBoundary (UInt8.ofNat k :: bytes) := by
  rintro b hb ⟨hlow, hhigh⟩
  obtain rfl := Option.some.inj hb
  rw [UInt8.toNat_ofNat_of_lt' hk] at hlow hhigh
  omega

theorem atBoundary_char (c : Char) (bytes : List UInt8) :
    AtBoundary (String.utf8EncodeChar c ++ bytes) := by
  rw [String.utf8EncodeChar]
  generalize c.val.toNat = n
  split
  · exact atBoundary_lead (by omega) (by omega) _
  · split
    · exact atBoundary_lead (by omega) (by omega) _
    · split
      · exact atBoundary_lead (by omega) (by omega) _
      · exact atBoundary_lead (by omega) (by omega) _

/-! ### Texts -/

theorem utf8Decode_utf8Encode_append (text : List Char) (bytes : List UInt8) :
    utf8Decode (utf8Encode text ++ bytes) = text ++ utf8Decode bytes := by
  induction text with
  | nil => rfl
  | cons c text ih =>
    have hencode : utf8Encode (c :: text) = String.utf8EncodeChar c ++ utf8Encode text := rfl
    rw [hencode, List.append_assoc, utf8Decode_char, ih, List.cons_append]

theorem atBoundary_utf8Encode {text : List Char} (h : text ≠ []) (bytes : List UInt8) :
    AtBoundary (utf8Encode text ++ bytes) := by
  obtain ⟨c, rest, rfl⟩ := List.exists_cons_of_ne_nil h
  have hencode : utf8Encode (c :: rest) = String.utf8EncodeChar c ++ utf8Encode rest := rfl
  rw [hencode, List.append_assoc]
  exact atBoundary_char c _

namespace Bytes

/-- A text that is not empty is read as it is between any bytes, and the bytes on both sides of it
are read as they are without it. -/
theorem decode_embedded (text : String) (before after : Bytes) :
    (text ≠ "" →
      (before ++ encode text ++ after).decode = before.decode ++ text.toList ++ after.decode) ∧
    (encode text).decode = text.toList := by
  have hread := utf8Decode_utf8Encode_append text.toList
  constructor
  · intro hne
    have hboundary : AtBoundary (utf8Encode text.toList ++ after.toList) :=
      atBoundary_utf8Encode (by simpa using hne) _
    simp only [decode, toList_append, encode]
    rw [List.append_assoc, utf8Decode_append _ hboundary, hread, List.append_assoc]
  · have halone := hread []
    rwa [List.append_nil, show utf8Decode [] = [] from rfl, List.append_nil] at halone

/-- A character in front that was cut short, and trailing bytes behind without their first. -/
theorem decode_embedded_cut :
    let before : Bytes := ⟨[0x41, 0xF0, 0x9F, 0x98]⟩
    let after : Bytes := ⟨[0x80, 0xE2, 0x82]⟩
    "é😀" ≠ "" ∧ (before ++ encode "é😀" ++ after).decode
      = ['A', replacementChar, 'é', '😀', replacementChar, replacementChar] := by
  intro before after
  have hne : "é😀" ≠ "" := by decide
  have hbefore : before.decode = ['A', replacementChar] := by decide
  have hafter : after.decode = [replacementChar, replacementChar] := by decide
  obtain ⟨hread, -⟩ := decode_embedded "é😀" before after
  refine ⟨hne, ?_⟩
  rw [hread hne, hbefore, hafter]
  rfl

/-- Around an empty text the bytes on both sides can make a character. -/
example : ((⟨[0xC3]⟩ : Bytes) ++ encode "" ++ ⟨[0xA9]⟩).decode = ['é'] := by decide

end Bytes
end ScriptBuiltins
