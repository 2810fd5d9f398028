import TypeCatalog.Command.Invocation
import TypeCatalog.Files.Session
import TypeCatalog.Settings
import TypeCatalog.Store.Basic
import TypeCatalog.Store.Steps

/-! The commands. What they print comes out at the end; what they tell on the way is for the log. -/
namespace TypeCatalog

inductive LoadError (ε : Type) where
  | unreadable (path : Path) (cause : FileError)
  | refused (e : ε)

namespace LoadError

def diagnosis {ε : Type} (refusal : ε → Diagnosis) : LoadError ε → Diagnosis
  | .unreadable path _ => { message := s!"failed to read '{path.text}'", code := "envuse::io" }
  | .refused e => refusal e

def detail {ε : Type} (refusal : ε → String) : LoadError ε → String
  | .unreadable _ cause => cause.message
  | .refused e => refusal e

end LoadError

def Document.load {ε : Type} (p : Path) : Session ε (Except (LoadError DocumentError) Document) :=
  return match ← Session.readText p with
    | .error e => .error (.unreadable p e)
    | .ok text => (Source.mk p.text text).document.mapError .refused

/-- Where there is no file, all settings have their standard values. -/
def Settings.load {ε : Type} (p : Path) : Session ε (Except (LoadError SettingsError) Locations) :=
  return match FileError.orMissing (← Session.readText p) with
    | .error e => .error (.unreadable p e)
    | .ok none => .ok .standard
    | .ok (some text) => (Source.mk p.text text).settings.mapError .refused

end TypeCatalog

namespace TypeCatalog.Command.Report

/-- Every line has an end. -/
def lines (l : List String) : String := String.join (l.map (· ++ "\n"))

def rendered (source : String) : String := lines [source]

def attached (r : Registration) (fields : Nat) (l : Locations) : String :=
  let (heading, mark) := match r.attached with
    | .inserted => ("Added:", "+")
    | .replaced => ("Updated:", "~")
  lines [
    heading,
    s!"  {mark} {r.key} ({fields} fields)",
    "",
    s!"Entries: {r.entries}",
    s!"Definition: {l.definition.text}",
    s!"Declarations: {l.declarations.text}"]

def listed (definition : Path) (c : Catalog) : String :=
  if c.isEmpty then lines [s!"No interfaces in {definition.text}."]
  else lines ("Interfaces:" :: c.keys.map fun key => s!"  - {key} -> {Identifier.ofKey key}")

end TypeCatalog.Command.Report

namespace TypeCatalog.Command

inductive Failure where
  | usage (e : UsageError)
  | document (e : LoadError DocumentError)
  | settings (e : LoadError SettingsError)
  | attach (name : String) (e : CatalogError)
  | list (e : CatalogError)

namespace Failure

def code : Failure → Nat
  | .usage _ => 2
  | _ => 1

/-- The failure of a store from the outside in. The others have a diagnosis of their own. -/
def chain : Failure → List String
  | .attach name e => [s!"Failed to attach '{name}'", e.diagnosis.message, e.detail]
  | .list e => ["Failed to read the type catalog", e.diagnosis.message, e.detail]
  | _ => []

def report (f : Failure) : List String :=
  let told (d : Diagnosis) (detail : String) := [d.message, detail] ++ d.help?.toList
  match f with
  | .usage e => [e.message]
  | .document e => told (e.diagnosis DocumentError.diagnosis) (e.detail (·.cause.message))
  | .settings e =>
    told (e.diagnosis SettingsError.diagnosis) (e.detail (·.detail?.getD "this is not valid TOML"))
  | .attach _ e | .list e => f.chain ++ e.diagnosis.help?.toList

end Failure

def versionText : String := "envuse 0.3.0"

def helpText : List String := [
  "Generate declaration-file types for envuse documents",
  "",
  "Usage: envuse [-v] <command>",
  "",
  "  render <document> [-n <name>]",
  "  attach <document> [-n <name>] [-c <path>] [--definition <path>] [--declarations <path>]",
  "  list [-c <path>] [--definition <path>] [--declarations <path>]",
  "  completions <shell>",
  "  help [<command>]"]

abbrev Work := ExceptT Failure (Session Event)

def tell (event : Event) : Work Unit := ExceptT.lift (Session.tell event)

def loadDocument (p : Path) : Work Document :=
  ExceptT.adapt .document (ExceptT.mk (Document.load p))

/-- Each artifact on its own: the option if it is given, else the settings file. -/
def StoreOptions.locations (o : StoreOptions) : Work Locations := do
  let l ← ExceptT.adapt .settings (ExceptT.mk (Settings.load o.settings))
  return ⟨o.definition?.getD l.definition, o.declarations?.getD l.declarations⟩

/-- Without a name of its own an interface is called like the document's path. -/
def interfaceName (document : Path) (name? : Option String) : String := name?.getD document.text

def render (document : Path) (name? : Option String) : Work String := do
  let d ← loadDocument document
  return Report.rendered (d.interface (interfaceName document name?)).source

def attach (document : Path) (name? : Option String) (options : StoreOptions) : Work String := do
  let d ← loadDocument document
  let name := interfaceName document name?
  let l ← options.locations
  tell (.attaching name l)
  let r ← ExceptT.adapt (.attach name) (d.registering name l)
  tell (.registered name r.attached)
  return Report.attached r d.declared.length l

def list (options : StoreOptions) : Work String := do
  let l ← options.locations
  tell (.listing l.definition)
  let s ← ExceptT.adapt .list (Steps.pull (.new l))
  return Report.listed l.definition s.catalog

/-- The scripts for the shells are not made here. -/
def Invocation.work : Invocation → Work String
  | .help => return Report.lines helpText
  | .version => return Report.lines [versionText]
  | .completions _ => return ""
  | .render document name? => Command.render document name?
  | .attach document name? options => Command.attach document name? options
  | .list options => Command.list options

/-- What a command line does to the files, and the text that it prints. -/
def session (args : List String) : Session Event (Except Failure String) :=
  match Request.parse args with
  | .error e => return .error (.usage e)
  | .ok request =>
    let work := request.invocation.work.run
    if request.verbose then work else work.quiet

end TypeCatalog.Command
