import ScriptBuiltins.Json.Basic
import ScriptBuiltins.Template.Directive

namespace ScriptBuiltins

structure Config where
  defaultPrecision : Nat := 6
  maxWidth : Nat := 65536
  maxPrecision : Nat := 1024
  deriving DecidableEq

namespace Config

/-- Refuses a directive that is too wide, or else too precise. -/
def check (config : Config) (d : Directive) : Except Fault Unit :=
  if config.maxWidth < d.width.getD 0 then
    .error (.widthOverLimit (d.width.getD 0) config.maxWidth)
  else if config.maxPrecision < d.precision.getD 0 then
    .error (.precisionOverLimit (d.precision.getD 0) config.maxPrecision)
  else .ok ()

def precisionOf (config : Config) (d : Directive) : Nat := d.precision.getD config.defaultPrecision

def setting? (default : Nat) : Option Json → Option Nat
  | none => some default
  | some (.number literal) => literal.count?
  | some _ => none

def ofSettings? (precision width maxPrecision : Option Json) : Option Config := do
  let d : Config := {}
  let precision ← setting? d.defaultPrecision precision
  let width ← setting? d.maxWidth width
  let maxPrecision ← setting? d.maxPrecision maxPrecision
  some ⟨precision, width, maxPrecision⟩

/-- Reads a configuration from an object, whose other members do not matter, or from an array of up
to three settings. -/
def ofJson? (tree : Json) : Option Config :=
  match tree with
  | .object _ =>
    ofSettings? (tree.member? "default_precision") (tree.member? "max_width")
      (tree.member? "max_precision")
  | .array items =>
    if items.length ≤ 3 then ofSettings? items[0]? items[1]? items[2]? else none
  | _ => none

def toJson (config : Config) : List Char :=
  "\x7b\"default_precision\":".toList ++ digits config.defaultPrecision
    ++ ",\"max_width\":".toList ++ digits config.maxWidth
    ++ ",\"max_precision\":".toList ++ digits config.maxPrecision ++ ['\x7d']

end Config
end ScriptBuiltins
