import TypeCatalog.Diagnosis
import TypeCatalog.Document.Basic
import TypeCatalog.Json.Shape

/-! Documents as JSON text. A document is an object with a list of variables, or a list that holds
this list alone; a variable is an object of three fields, or the list of their values. Other members
of a document do not matter, other members of a variable are refused. A refusal is shown at a place
in the source. -/
namespace TypeCatalog

open Json (Reader Contents Fault)

namespace Variable

def fieldNames : List String := ["name", "type", "nullable"]

def typeReader : Reader (Option DeclaredType) := (Reader.string.map DeclaredType.ofToken).orNull

structure Seen where
  name? : Option String := none
  type? : Option (Option DeclaredType) := none
  nullable? : Option Bool := none

namespace Seen

def choose (seen : Seen) (key : String) : Except Mismatch (Reader Seen) :=
  if key = "name" then
    if seen.name?.isSome then .error (.duplicate key)
    else .ok (Reader.string.map fun name => { seen with name? := some name })
  else if key = "type" then
    if seen.type?.isSome then .error (.duplicate key)
    else .ok (typeReader.map fun type => { seen with type? := some type })
  else if key = "nullable" then
    if seen.nullable?.isSome then .error (.duplicate key)
    else .ok (Reader.boolean.map fun nullable => { seen with nullable? := some nullable })
  else .error (.unknown key fieldNames)

/-- A variable needs a name; without a type it has none, and it is not nullable unless it says
so. -/
def finish (seen : Seen) : Except Mismatch Variable :=
  match seen.name? with
  | none => .error (.missing "name")
  | some name => .ok ⟨name, seen.type?.getD none, seen.nullable?.getD false⟩

end Seen

def fields : Contents Variable where
  read s :=
    match Json.item? Reader.string true s with
    | .error f => .error f
    | .ok (none, r) =>
      .error (.before (.data (.wrongLength 0 "struct Variable with 3 elements")) (Json.pastList r))
    | .ok (some name, r) =>
      match Json.item? typeReader false r with
      | .error f => .error f
      | .ok (type?, r) =>
        match Json.item? Reader.boolean false r with
        | .error f => .error f
        | .ok (nullable?, r) => .ok (⟨name, type?.getD none, nullable?.getD false⟩, r)
  shrinks {s _ r} h := by
    split at h <;> try simp at h
    rename_i name t ht
    have := Json.length_le_of_item? ht
    split at h <;> try simp at h
    rename_i type u hu
    have := Json.length_le_of_item? hu
    split at h <;> try simp at h
    rename_i nullable v hv
    have := Json.length_le_of_item? hv
    rw [← h.2]; omega

def reader : Reader Variable :=
  .record "struct Variable" (.members {} Seen.choose Seen.finish) fields

end Variable

namespace Document

def variablesReader : Reader (List Variable) := .list "a sequence" (.items Variable.reader)

/-- The state is the list of variables, once it has been seen. -/
def choose (seen : Option (List Variable)) (key : String) :
    Except Mismatch (Reader (Option (List Variable))) :=
  if key = "variables" then
    if seen.isSome then .error (.duplicate key) else .ok (variablesReader.map some)
  else .ok (Reader.ignored.map fun _ => seen)

/-- A document without a list of variables has none. -/
def ofDeclared (declared? : Option (List Variable)) : Document := ⟨declared?.getD []⟩

def reader : Reader Document :=
  .record "struct ParsedDocument" (.members none choose fun seen => .ok (ofDeclared seen))
    ((Contents.upToOne variablesReader).map ofDeclared)

def parse (text : String) : Except Json.Error Document := reader.parse text

end Document

structure Source where
  name : String
  text : String
deriving DecidableEq, Repr

structure DocumentError where
  fileName : String
  /-- A byte offset into the source. -/
  label? : Option Nat
  cause : Json.Error

def DocumentError.diagnosis (e : DocumentError) : Diagnosis where
  message := "failed to parse document"
  code := "envuse::document_error"
  help? := some "expected an object with a \"variables\" array of name/type/nullable records"
  labels? := some (e.label?.toList.map (⟨·, 0⟩))

namespace Source

/-- The label is a place in this source, whatever text the error comes from. -/
def documentError (source : Source) (e : Json.Error) : DocumentError :=
  ⟨source.name, e.position?.map (Text.Position.offset source.text.toList), e⟩

def document (source : Source) : Except DocumentError Document :=
  (Document.parse source.text).mapError source.documentError

end Source

end TypeCatalog
