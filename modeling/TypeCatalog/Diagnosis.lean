import TypeCatalog.Decimal.Layout
import TypeCatalog.Text.Displayed

/-! What a decoder can object to in data that is well formed but not of the wanted shape, and what a
user is told about an error, apart from its cause. -/
namespace TypeCatalog

inductive Found where
  | null
  | boolean (b : Bool)
  | integer (n : Int)
  | float (f : Float)
  | string (s : String)
  | sequence
  | map

inductive Mismatch where
  | wrongKind (found : Found) (expected : String)
  | wrongLength (length : Nat) (expected : String)
  | missing (field : String)
  | duplicate (field : String)
  | unknown (field : String) (known : List String)

def Found.describe (layout : Decimal.Layout) : Found → String
  | .null => "null"
  | .boolean b => s!"boolean `{b}`"
  | .integer n => s!"integer `{n}`"
  | .float f => s!"floating point `{layout.text f}`"
  | .string s => s!"string {Text.display s}"
  | .sequence => "sequence"
  | .map => "map"

def alternatives : List String → String
  | [] => "nothing"
  | [a] => s!"`{a}`"
  | [a, b] => s!"`{a}` or `{b}`"
  | names => "one of " ++ ", ".intercalate (names.map fun name => s!"`{name}`")

def Mismatch.message (layout : Decimal.Layout) : Mismatch → String
  | .wrongKind found expected => s!"invalid type: {found.describe layout}, expected {expected}"
  | .wrongLength length expected => s!"invalid length {length}, expected {expected}"
  | .missing field => s!"missing field `{field}`"
  | .duplicate field => s!"duplicate field `{field}`"
  | .unknown field known => s!"unknown field `{field}`, expected {alternatives known}"

structure Label where
  offset : Nat
  length : Nat
deriving DecidableEq, Repr

def Label.text : String := "parse error here"

/-- Errors that are not about a source have no list of labels, the others may have an empty
one. -/
structure Diagnosis where
  message : String
  code : String
  help? : Option String := none
  labels? : Option (List Label) := none
deriving DecidableEq, Repr

end TypeCatalog
