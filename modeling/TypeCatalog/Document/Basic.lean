import TypeCatalog.Node

/-! Documents: the variables that a source file declares, in their order, and the interface that has
one field for each of them. -/
namespace TypeCatalog

inductive DeclaredType where
  | boolean
  | number
  | string
  | other (token : String)
deriving DecidableEq, Repr

namespace DeclaredType

/-- Tokens are told apart by their exact spelling. -/
def ofToken (token : String) : DeclaredType :=
  if token = "boolean" then .boolean
  else if token = "number" then .number
  else if token = "string" then .string
  else .other token

def token : DeclaredType → String
  | boolean => "boolean"
  | number => "number"
  | string => "string"
  | other token => token

def isPrimitive : DeclaredType → Bool
  | other _ => false
  | _ => true

@[simp] theorem token_ofToken (token : String) : (ofToken token).token = token := by
  unfold ofToken
  split <;> (try split) <;> (try split) <;> simp_all [DeclaredType.token]

end DeclaredType

structure Variable where
  name : String
  type? : Option DeclaredType := none
  nullable : Bool := false
deriving DecidableEq, Repr

/-- Names may occur more than once. -/
structure Document where
  declared : List Variable
deriving DecidableEq, Repr

namespace TypeNode

/-- Types that are not known, or not declared, are `any`. -/
def ofDeclared : Option DeclaredType → TypeNode
  | some .boolean => boolean
  | some .number => number
  | some .string => string
  | some (.other _) | none => any

def ofVariable (v : Variable) : TypeNode :=
  let value := ofDeclared v.type?
  if v.nullable then value.nullable else value

end TypeNode

/-- The name is kept as given, and so are the names of the fields. -/
def Document.interface (d : Document) (name : String) : Interface :=
  ⟨name, d.declared.map fun v => (v.name, TypeNode.ofVariable v)⟩

end TypeCatalog
