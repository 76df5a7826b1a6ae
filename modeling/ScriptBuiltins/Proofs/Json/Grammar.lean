import ScriptBuiltins.Json.Reader
import ScriptBuiltins.Proofs.Number.Digits

/-!
The grammar of JSON texts: which texts stand for which trees. Space is insignificant around every
value and every mark of structure, and nowhere else.
-/
namespace ScriptBuiltins.Json

def Spaces (cs : List Char) : Prop := ∀ c ∈ cs, isSpace c

def IsDigits (ds : List Char) : Prop := ds ≠ [] ∧ ∀ c ∈ ds, c.isDigit

/-- The digits before the point: a zero alone, or digits of which the first one counts. -/
def IsWhole (ds : List Char) : Prop := ds = ['0'] ∨ Significant ds

theorem IsWhole.isDigits {ds : List Char} (h : IsWhole ds) : IsDigits ds := by
  obtain rfl | h := h
  · simp [IsDigits]
  · exact ⟨h.nonempty, h.isDigit⟩

inductive FractionText : List Char → List Char → Prop
  | none : FractionText [] []
  | some {ds : List Char} (h : IsDigits ds) : FractionText ds ('.' :: ds)

inductive SignText : Bool → List Char → Prop
  | none : SignText false []
  | plus : SignText false ['+']
  | minus : SignText true ['-']

inductive ExponentText : Option Int → List Char → Prop
  | none : ExponentText none []
  | some {e : Char} {below : Bool} {sign ds : List Char} (he : e = 'e' ∨ e = 'E')
      (hsign : SignText below sign) (hds : IsDigits ds) :
      ExponentText (some (if below then -(decimalValue ds : Int) else decimalValue ds))
        (e :: (sign ++ ds))

inductive NumberText : DecimalLiteral → List Char → Prop
  | mk {whole fraction point power : List Char} {exponent : Option Int} (negative : Bool)
      (hwhole : IsWhole whole) (hfraction : FractionText fraction point)
      (hexponent : ExponentText exponent power) :
      NumberText ⟨negative, whole, fraction, exponent⟩ (signed negative (whole ++ point ++ power))

/-- The ways to write one character of a string. One past U+FFFF may be written by its two
surrogates. -/
inductive CharText : Char → List Char → Prop
  | plain {c : Char} (hlow : 0x20 ≤ c.toNat) (hquote : c ≠ '"') (hslash : c ≠ '\\') :
      CharText c [c]
  | short {mark c : Char} (h : shortEscape? mark = some c) : CharText c ['\\', mark]
  | code {a b c d : Char} {u : Nat} (h : codeUnit? [a, b, c, d] = some u)
      (hlone : ¬(0xD800 ≤ u ∧ u < 0xE000)) : CharText (Char.ofNat u) ['\\', 'u', a, b, c, d]
  | pair {a b c d a' b' c' d' : Char} {u v : Nat} (hu : codeUnit? [a, b, c, d] = some u)
      (hhigh : 0xD800 ≤ u ∧ u < 0xDC00) (hv : codeUnit? [a', b', c', d'] = some v)
      (hlow : 0xDC00 ≤ v ∧ v < 0xE000) :
      CharText (Char.ofNat (0x10000 + (u - 0xD800) * 0x400 + (v - 0xDC00)))
        ['\\', 'u', a, b, c, d, '\\', 'u', a', b', c', d']

inductive CharsText : List Char → List Char → Prop
  | nil : CharsText [] []
  | cons {c : Char} {cs text rest : List Char} (h : CharText c text) (hrest : CharsText cs rest) :
      CharsText (c :: cs) (text ++ rest)

inductive StringText : String → List Char → Prop
  | mk {cs text : List Char} (h : CharsText cs text) :
      StringText (String.ofList cs) ('"' :: (text ++ ['"']))

inductive ListText {α : Type} (P : α → List Char → Prop) : List α → List Char → Prop
  | last {x : α} {s text t : List Char} (hs : Spaces s) (h : P x text) (ht : Spaces t) :
      ListText P [x] (s ++ (text ++ t))
  | more {x : α} {xs : List α} {s text t rest : List Char} (hs : Spaces s) (h : P x text)
      (ht : Spaces t) (hrest : ListText P xs rest) :
      ListText P (x :: xs) (s ++ (text ++ (t ++ ',' :: rest)))

inductive MemberText (P : Json → List Char → Prop) : String × Json → List Char → Prop
  | mk {key : String} {value : Json} {name s t text : List Char} (hkey : StringText key name)
      (hs : Spaces s) (ht : Spaces t) (h : P value text) :
      MemberText P (key, value) (name ++ (s ++ ':' :: (t ++ text)))

inductive ValueText : Json → List Char → Prop
  | null : ValueText null "null".toList
  | yes : ValueText (bool true) "true".toList
  | no : ValueText (bool false) "false".toList
  | number {l : DecimalLiteral} {text : List Char} (h : NumberText l text) :
      ValueText (number l) text
  | string {s : String} {text : List Char} (h : StringText s text) : ValueText (string s) text
  | emptyArray {s : List Char} (hs : Spaces s) : ValueText (array []) ('[' :: (s ++ [']']))
  | array {items : List Json} {inside : List Char} (h : ListText ValueText items inside) :
      ValueText (array items) ('[' :: (inside ++ [']']))
  | emptyObject {s : List Char} (hs : Spaces s) :
      ValueText (object []) ('\x7b' :: (s ++ ['\x7d']))
  | object {members : List (String × Json)} {inside : List Char}
      (h : ListText (MemberText ValueText) members inside) :
      ValueText (object members) ('\x7b' :: (inside ++ ['\x7d']))

inductive Text : Json → List Char → Prop
  | mk {tree : Json} {s text t : List Char} (hs : Spaces s) (h : ValueText tree text)
      (ht : Spaces t) : Text tree (s ++ (text ++ t))

theorem spaces_nil : Spaces [] := by
  intro c hc
  contradiction

theorem skipSpace_append {s rest : List Char} (hs : Spaces s) (h : Stops isSpace rest) :
    skipSpace (s ++ rest) = rest := dropWhile_run hs h

end ScriptBuiltins.Json
