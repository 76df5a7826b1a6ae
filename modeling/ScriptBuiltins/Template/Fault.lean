import ScriptBuiltins.Number.Decimal

namespace ScriptBuiltins

inductive Fault where
  | incomplete
  | malformed
  | emptyName
  | namedTwice
  | unsupported (conversion : Char)
  | widthOverLimit (width limit : Nat)
  | precisionOverLimit (precision limit : Nat)
  deriving DecidableEq

structure TemplateError where
  fault : Fault
  offset : Nat
  deriving DecidableEq

inductive ArgumentError where
  | missingPositional (index : Nat)
  | missingObject (name : String)
  | missingProperty (name : String)
  deriving DecidableEq

/-- Why a text cannot be formatted. The decimal printer gives at most `maxFractionDigits` digits
after a point and there is no text when more are asked for. -/
inductive FormatError where
  | template (error : TemplateError)
  | argument (error : ArgumentError)
  | tooManyDigits
  deriving DecidableEq

def maxFractionDigits : Nat := 65535

def TemplateError.message (e : TemplateError) : String :=
  match e.fault with
  | .incomplete => s!"incomplete formatting directive at end of format (offset {e.offset})"
  | .malformed => s!"malformed formatting directive at offset {e.offset}"
  | .emptyName => s!"invalid named formatting directive at offset {e.offset}, empty name"
  | .namedTwice => s!"formatting directive at offset {e.offset} is named twice"
  | .unsupported c => s!"unsupported formatting directive '%{c}' at offset {e.offset}"
  | .widthOverLimit width limit =>
    s!"field width {width} at offset {e.offset} exceeds limit {limit}"
  | .precisionOverLimit precision limit =>
    s!"precision {precision} at offset {e.offset} exceeds limit {limit}"

def ArgumentError.message : ArgumentError → String
  | .missingPositional index => s!"too few parameters for format: no argument at position {index}"
  | .missingObject name => s!"invalid parameters for format, expected object for '%({name})'"
  | .missingProperty name =>
    s!"property '{name}' named by formatting directive missing from parameter object"

def FormatError.message : FormatError → String
  | .template e => e.message
  | .argument e => e.message
  | .tooManyDigits => s!"more than {maxFractionDigits} fraction digits"

end ScriptBuiltins
