import ScriptBuiltins.Template.Directive

namespace ScriptBuiltins

/-- A rendered value. Zeros may be filled in between the radix mark and the body if `zeroFill` is
set. -/
structure Field where
  sign : List Char := []
  radixMark : List Char := []
  body : List Char
  zeroFill : Bool := false

namespace Field

def text (f : Field) : List Char := f.sign ++ f.radixMark ++ f.body

def pad (f : Field) (flags : Flags) (width : Nat) : List Char :=
  let fill := width - f.text.length
  if flags.leftJustify then f.text ++ List.replicate fill ' '
  else if flags.zeroPad && f.zeroFill then
    f.sign ++ f.radixMark ++ List.replicate fill '0' ++ f.body
  else List.replicate fill ' ' ++ f.text

theorem pad_zero (f : Field) (flags : Flags) : f.pad flags 0 = f.text := by
  simp [pad, text]

theorem length_pad (f : Field) (flags : Flags) (width : Nat) :
    (f.pad flags width).length = max width f.text.length := by
  unfold pad
  split
  · simp
    omega
  · split
    · simp [text]
      omega
    · simp
      omega

end Field

def Flags.signFor (flags : Flags) (negative : Bool) : List Char :=
  if negative then ['-']
  else if flags.plusSign then ['+']
  else if flags.spaceSign then [' ']
  else []

end ScriptBuiltins
