import ScriptBuiltins.Render.Float
import ScriptBuiltins.Render.Integer
import ScriptBuiltins.Value.Coercion

namespace ScriptBuiltins.Directive

/-- The field of a value; none if it needs too many digits. A precision cuts texts. -/
def field (d : Directive) (v : Value) (config : Config) : Option Field :=
  let cut (cs : List Char) : List Char := match d.precision with
    | some p => cs.take p
    | none => cs
  match d.conversion with
  | .text => some { body := cut v.toText }
  | .json => some { body := cut v.toJson }
  | .decimal | .integer => some (signedField d v.toNumber)
  | .octal => some (octalField d v.toNumber)
  | .hex letters => some (hexField d letters v.toNumber)
  | .fixed letters => floatField d letters fixedText v.toNumber config
  | .exponent letters => floatField d letters scientificText v.toNumber config
  | .general letters => floatField d letters generalText v.toNumber config

def render (d : Directive) (v : Value) (config : Config) : Option (List Char) :=
  (d.field v config).map fun f => f.pad d.flags (d.width.getD 0)

end ScriptBuiltins.Directive
