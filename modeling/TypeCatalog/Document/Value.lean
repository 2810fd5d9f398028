import TypeCatalog.Document.Reader
import TypeCatalog.Json.Value

/-! Documents and JSON values. `Document.toValue` is how a document is written,
`Document.ofValue` accepts the shapes that `Document.parse` accepts as text. -/
namespace TypeCatalog

open Json (Value)

/-- Lists that stand for records have no items beyond the fields. -/
def refuseSurplus {α : Type} (items : List α) (fields : Nat) : Except Mismatch Unit :=
  if items.length ≤ fields then .ok ()
  else .error (.wrongLength items.length "fewer elements in array")

namespace Variable

def toValue (v : Variable) : Value :=
  let type := match v.type? with
    | none => []
    | some t => [("type", Value.string t.token)]
  .object (("name", .string v.name) :: type ++ [("nullable", .boolean v.nullable)])

def typeOfValue : Value → Except Mismatch (Option DeclaredType)
  | .null => .ok none
  | v => v.asString.map fun token => some (DeclaredType.ofToken token)

def Seen.insert (seen : Seen) (member : String × Value) : Except Mismatch Seen := do
  let (key, v) := member
  if key = "name" then return { seen with name? := some (← v.asString) }
  else if key = "type" then return { seen with type? := some (← typeOfValue v) }
  else if key = "nullable" then return { seen with nullable? := some (← v.asBoolean) }
  else throw (.unknown key fieldNames)

def ofItems (items : List Value) : Except Mismatch Variable := do
  let some name := items[0]? | throw (.wrongLength 0 "struct Variable with 3 elements")
  let name ← name.asString
  let type? ← (items[1]?.map typeOfValue).getD (.ok none)
  let nullable ← (items[2]?.map Value.asBoolean).getD (.ok false)
  refuseSurplus items 3
  return ⟨name, type?, nullable⟩

/-- The members of an object are looked at in the order of their keys. -/
def ofValue : Value → Except Mismatch Variable
  | .list items => ofItems items
  | .object members => do ((← (Value.sortMembers members).foldlM Seen.insert {}).finish)
  | v => .error (.wrongKind v.found "struct Variable")

end Variable

namespace Document

def toValue (d : Document) : Value :=
  .object [("variables", .list (d.declared.map Variable.toValue))]

def toText (d : Document) : String := d.toValue.toCompact

def variablesOfValue (v : Value) : Except Mismatch (List Variable) := do
  (← v.asList "a sequence").mapM Variable.ofValue

def insertMember (seen : Option (List Variable)) (member : String × Value) :
    Except Mismatch (Option (List Variable)) :=
  if member.1 = "variables" then (variablesOfValue member.2).map some else .ok seen

def ofValue : Value → Except Mismatch Document
  | .list items => do
    let declared? ← items[0]?.mapM variablesOfValue
    refuseSurplus items 1
    return ofDeclared declared?
  | .object members => (members.foldlM insertMember none).map ofDeclared
  | v => .error (.wrongKind v.found "struct ParsedDocument")

end Document

/-- What is wrong with a value has no place in a text, whatever source it is reported against. -/
def Source.documentOfValue (source : Source) (v : Value) : Except DocumentError Document :=
  (Document.ofValue v).mapError fun m => source.documentError ⟨.data m, none⟩

end TypeCatalog
