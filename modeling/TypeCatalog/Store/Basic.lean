import TypeCatalog.Catalog
import TypeCatalog.Diagnosis
import TypeCatalog.Document.Basic
import TypeCatalog.Files.Tree
import TypeCatalog.Json.Fault

/-! A catalog in memory and the two artifacts that it is kept in. Nobody locks them: where several
work on the same artifacts, each artifact is left as the last to write it had it. A document goes
into the catalog in one go: pull, attach, sync. -/
namespace TypeCatalog

structure Locations where
  definition : Path
  declarations : Path
deriving DecidableEq, Repr

namespace Locations

def standard : Locations := ⟨⟨".envuse/def.json"⟩, ⟨".envuse/types.d.ts"⟩⟩

def inDir (dir : Path) : Locations :=
  ⟨dir.join standard.definition, dir.join standard.declarations⟩

def same (a b : Locations) : Bool :=
  a.definition.same b.definition && a.declarations.same b.declarations

end Locations

inductive CatalogError where
  | io (path : Path) (cause : FileError)
  | malformed (path : Path) (cause : Json.Error)

namespace CatalogError

def path : CatalogError → Path
  | .io path _ => path
  | .malformed path _ => path

def diagnosis : CatalogError → Diagnosis
  | .io path _ => {
      message := s!"failed to access '{path.text}'"
      code := "envuse::io" }
  | .malformed path _ => {
      message := s!"malformed catalog definition '{path.text}'"
      code := "envuse::malformed_definition"
      help? := some
        ("the definition must be a JSON array of [key, text] pairs; " ++
          "delete it to start from an empty catalog") }

def detail : CatalogError → String
  | .io _ cause => cause.message
  | .malformed _ cause => cause.message

end CatalogError

structure Store where
  locations : Locations
  catalog : Catalog

namespace Store

def new (locations : Locations) : Store := ⟨locations, ∅⟩

/-- The catalog that a read of the definition gives, empty if there is none. -/
def received (path : Path) : Except FileError (Option String) → Except CatalogError Catalog
  | .error e => .error (.io path e)
  | .ok none => .ok ∅
  | .ok (some text) => (Catalog.ofDefinition text).mapError (.malformed path)

/-- Takes what a read of the definition gives in place of the catalog in memory. That one stays if
nothing could be read, or no definition. -/
def replace (s : Store) (found : Except FileError (Option String)) :
    Except CatalogError Catalog × Store :=
  match received s.locations.definition found with
  | .error e => (.error e, s)
  | .ok catalog => (.ok catalog, { s with catalog })

def pull (s : Store) (t : Tree) : Except CatalogError Catalog × Store :=
  s.replace (t.readOptional s.locations.definition)

def attach (s : Store) (i : Interface) : Attached × Store :=
  let (attached, catalog) := s.catalog.attach i
  (attached, { s with catalog })

/-- Writes the definition and then the declarations; one that is written stays. -/
def sync (s : Store) (t : Tree) : Except CatalogError Unit × Tree :=
  let ⟨definition, declarations⟩ := s.locations
  match t.writeText definition s.catalog.definition with
  | (.error e, t) => (.error (.io definition e), t)
  | (.ok (), t) =>
    match t.writeText declarations s.catalog.declarations with
    | (.error e, t) => (.error (.io declarations e), t)
    | (.ok (), t) => (.ok (), t)

end Store

structure Registration where
  /-- The name as given. -/
  key : String
  text : String
  attached : Attached
  /-- How many entries the catalog has with this one. -/
  entries : Nat
deriving DecidableEq, Repr

namespace Store

def attachDocument (s : Store) (d : Document) (name : String) : Registration × Store :=
  let i := d.interface name
  let (attached, s) := s.attach i
  (⟨i.name, i.source, attached, s.catalog.size⟩, s)

end Store

def Document.register (d : Document) (name : String) (locations : Locations) (t : Tree) :
    Except CatalogError Registration × Tree :=
  match (Store.new locations).pull t with
  | (.error e, _) => (.error e, t)
  | (.ok _, s) =>
    let (registration, s) := s.attachDocument d name
    match s.sync t with
    | (.error e, t) => (.error e, t)
    | (.ok (), t) => (.ok registration, t)

end TypeCatalog
