import TypeCatalog.Document.Reader
import TypeCatalog.Json.Value
import TypeCatalog.Store.Basic
import TypeCatalog.Toml.Document

/-! The settings file. It has one table, `store`, with the paths of the two artifacts; each path
that is not given has its standard value. The table may also be a list of the two paths, and what
follows them in it is not looked at. Keys are looked at in their order, and the first objection
counts. Where there is one, a number without a value anywhere makes the text no TOML. -/
namespace TypeCatalog.Settings

open Toml (Span Key Item sortEntries)

structure Fault where
  mismatch : Mismatch
  span : Span

inductive Cause where
  | notToml
  | data (fault : Fault)

def storeNames : List String := ["definition", "declarations"]

def unknownKey (key : Key) (known : List String) : Cause :=
  .data ⟨.unknown key.name known, key.span⟩

def wrongItem (item : Item) (expected : String) : Cause :=
  match item.found? with
  | some found => .data ⟨.wrongKind found expected, item.span⟩
  | none => .notToml

def path : Item → Except Cause Path
  | .string _ s => .ok ⟨s⟩
  | item => .error (wrongItem item "path string")

def setPath (l : Locations) (entry : Key × Item) : Except Cause Locations := do
  let (key, item) := entry
  if key.name = "definition" then return { l with definition := ← path item }
  else if key.name = "declarations" then return { l with declarations := ← path item }
  else throw (unknownKey key storeNames)

/-- A moment is a table with a key of its own, which is not one of the two. -/
def momentKey : String := "$__toml_private_datetime"

def store : Item → Except Cause Locations
  | .table _ entries => (sortEntries entries).foldlM setPath .standard
  | .list _ items => do
    let definition ← (items[0]?.map path).getD (.ok Locations.standard.definition)
    let declarations ← (items[1]?.map path).getD (.ok Locations.standard.declarations)
    return ⟨definition, declarations⟩
  | .moment span => .error (unknownKey ⟨momentKey, span⟩ storeNames)
  | item => .error (wrongItem item "struct StoreConfig")

def setStore (_ : Locations) (entry : Key × Item) : Except Cause Locations :=
  if entry.1.name = "store" then store entry.2
  else .error (unknownKey entry.1 ["store"])

def ofEntries (entries : List (Key × Item)) : Except Cause Locations :=
  (sortEntries entries).foldlM setStore .standard

/-- An objection to data that has a number without a value is one to the text as a whole. -/
def objection (entries : List (Key × Item)) (cause : Cause) : Cause :=
  if entries.all (·.2.isSound) then cause else .notToml

def parse (text : String) : Except Cause Locations :=
  match Toml.parse text with
  | none => .error .notToml
  | some entries => (ofEntries entries).mapError (objection entries)

def toValue (l : Locations) : Json.Value :=
  .object [("store", .object
    [("definition", .string l.definition.text), ("declarations", .string l.declarations.text)])]

end Settings

structure SettingsError where
  fileName : String
  cause : Settings.Cause

namespace SettingsError

def diagnosis (e : SettingsError) : Diagnosis where
  message := "failed to parse envuse.toml"
  code := "envuse::config_error"
  labels? := match e.cause with
    | .notToml => none
    | .data fault => some [⟨fault.span.start, fault.span.stop - fault.span.start⟩]

def detail? (e : SettingsError) : Option String :=
  match e.cause with
  | .notToml => none
  | .data fault => some (fault.mismatch.message .full)

end SettingsError

def Source.settings (source : Source) : Except SettingsError Locations :=
  (Settings.parse source.text).mapError (⟨source.name, ·⟩)

end TypeCatalog
