import TypeCatalog.Catalog
import TypeCatalog.Files.Session
import TypeCatalog.Store.Basic
import TypeCatalog.Text.Displayed

/-! The work of a store step by step, for those who do not wait for the files, and what is told
while it goes on. -/
namespace TypeCatalog

def Attached.label : Attached → String
  | .inserted => "Inserted"
  | .replaced => "Replaced"

inductive Event where
  | attaching (name : String) (locations : Locations)
  | listing (definition : Path)
  | noDefinition (definition : Path)
  | pulled (definition : Path) (entries : Nat)
  | attached (key : String) (outcome : Attached)
  | synced (locations : Locations) (entries : Nat)
  | registered (name : String) (outcome : Attached)
deriving DecidableEq, Repr

namespace Event

def origin : Event → String
  | .attaching .. => "DEBUG envuse::ops::attach"
  | .listing .. => "DEBUG envuse::ops::list"
  | .registered .. => "INFO envuse::ops::attach"
  | .noDefinition .. | .pulled .. | .attached .. | .synced .. =>
    "DEBUG envuse_dts::catalog::store"

def fields (l : Locations) : String :=
  s!"definition={l.definition.text} declarations={l.declarations.text}"

/-- The name that a command is given is quoted, the key in the store is not. -/
def text : Event → String
  | .attaching name l => s!"attaching document key={Text.display name} {fields l}"
  | .listing definition => s!"listing catalog definition={definition.text}"
  | .noDefinition definition => s!"no definition found, starting empty path={definition.text}"
  | .pulled definition entries => s!"pulled catalog path={definition.text} entries={entries}"
  | .attached key outcome => s!"attached interface key={key} attached={outcome.label}"
  | .synced l entries => s!"synced catalog {fields l} entries={entries}"
  | .registered name outcome =>
    s!"attached interface key={Text.display name} attached={outcome.label}"

def line (e : Event) : String := s!"{e.origin}: {e.text}"

end Event

/-- Steps on artifacts; the first failure ends them. -/
abbrev Steps := ExceptT CatalogError (Session Event)

namespace Steps

def tell (event : Event) : Steps Unit := ExceptT.lift (Session.tell event)

def write (path : Path) (text : String) : Steps Unit := do
  match ← ExceptT.lift (Session.writeText path text) with
  | .ok () => return
  | .error e => throw (.io path e)

end Steps

namespace Store

def pulling (s : Store) : Session Event (Except CatalogError Catalog × Store) := do
  let path := s.locations.definition
  match FileError.orMissing (← Session.readText path) with
  | .error e => return (.error (.io path e), s)
  | .ok none =>
    Session.tell (.noDefinition path)
    Session.tell (.pulled path 0)
    return (.ok ∅, { s with catalog := ∅ })
  | .ok (some text) =>
    match Catalog.ofDefinition text with
    | .error e => return (.error (.malformed path e), s)
    | .ok catalog =>
      Session.tell (.pulled path catalog.size)
      return (.ok catalog, { s with catalog })

def syncing (s : Store) : Steps Unit := do
  Steps.write s.locations.definition s.catalog.definition
  Steps.write s.locations.declarations s.catalog.declarations
  Steps.tell (.synced s.locations s.catalog.size)

end Store

/-- The store that a pull leaves, for work that cannot go on without. -/
def Steps.pull (s : Store) : Steps Store := ExceptT.mk do
  let (pulled, s) ← s.pulling
  return pulled.map fun _ => s

def Document.registering (d : Document) (name : String) (locations : Locations) :
    Steps Registration := do
  let s ← Steps.pull (.new locations)
  let (registration, s) := s.attachDocument d name
  Steps.tell (.attached registration.key registration.attached)
  s.syncing
  return registration

end TypeCatalog
