import TypeCatalog.Toml.Item

/-! Tables under construction. The statements of a document reach into the tables that earlier
statements made, and how a table was made decides who may still add to it. -/
namespace TypeCatalog.Toml

/-- A table that no header names itself is implied by the header of a table within it, or by a
dotted key. -/
inductive Origin where
  | implied
  | dotted
  | header
deriving DecidableEq, Repr

/-- A finished value, a table, or the tables that repeated headers make, latest first. -/
inductive Draft where
  | value (item : Item)
  | table (span : Span) (origin : Origin) (entries : List (Key × Draft))
  | tables (span : Span) (latest : Span × List (Key × Draft))
      (earlier : List (Span × List (Key × Draft)))

abbrev Draft.Entries := List (Key × Draft)

namespace Draft

mutual

def finish : Draft → Item
  | value item => item
  | table span _ entries => .table span (finishEntries entries)
  | tables span (at', entries) earlier =>
    .list span (finishTables earlier [.table at' (finishEntries entries)])

def finishEntries : List (Key × Draft) → List (Key × Item)
  | [] => []
  | (key, draft) :: rest => (key, finish draft) :: finishEntries rest

def finishTables : List (Span × List (Key × Draft)) → List Item → List Item
  | [], later => later
  | (span, entries) :: earlier, later =>
    finishTables earlier (.table span (finishEntries entries) :: later)

end

namespace Entries

def find? (entries : Entries) (name : String) : Option Draft :=
  (List.find? (fun e => e.1.name == name) entries).map Prod.snd

def replace (entries : Entries) (name : String) (draft : Draft) : Entries :=
  entries.map fun e => if e.1.name == name then (e.1, draft) else e

def erase (entries : Entries) (name : String) : Entries :=
  entries.filter fun e => e.1.name != name

/-- Changes the table at the end of a path of header keys. Tables that are missing are implied;
of repeated tables the latest is meant. -/
def modify (f : Entries → Option Entries) : List Key → Entries → Option Entries
  | [], entries => f entries
  | key :: path, entries =>
    match entries.find? key.name with
    | none => do
      let inner ← modify f path []
      return entries ++ [(key, .table key.span .implied inner)]
    | some (.table span origin inner) => do
      let inner ← modify f path inner
      return entries.replace key.name (.table span origin inner)
    | some (.tables span (at', inner) earlier) => do
      let inner ← modify f path inner
      return entries.replace key.name (.tables span (at', inner) earlier)
    | some (.value _) => none

/-- Starts the table of a header. It may exist already if only implied, and then takes the key
and the place of its header. -/
def startTable (key : Key) (span : Span) (entries : Entries) : Option Entries :=
  match entries.find? key.name with
  | none => some (entries ++ [(key, .table span .header [])])
  | some (.table _ .implied inner) =>
    some (entries.erase key.name ++ [(key, .table span .header inner)])
  | some _ => none

/-- Starts one more of the tables of repeated headers; together they take the place of the
first header. -/
def startNextTable (key : Key) (span : Span) (entries : Entries) : Option Entries :=
  match entries.find? key.name with
  | none => some (entries ++ [(key, .tables span (span, []) [])])
  | some (.tables first latest earlier) =>
    some (entries.replace key.name (.tables first (span, []) (latest :: earlier)))
  | some _ => none

/-- Sets a key that must be new. A dotted key may pass through tables that no header names, and
must end in one that dotted keys made. `closed` says that this is not so here. -/
def assign (item : Item) (closed : Bool) : List Key → Entries → Option Entries
  | [], _ => none
  | [key], entries =>
    if closed then none
    else match entries.find? key.name with
      | none => some (entries ++ [(key, .value item)])
      | some _ => none
  | key :: path, entries =>
    match entries.find? key.name with
    | none => do
      let inner ← assign item false path []
      return entries ++ [(key, .table key.span .dotted inner)]
    | some (.table span .dotted inner) => do
      let inner ← assign item false path inner
      return entries.replace key.name (.table span .dotted inner)
    | some (.table span .implied inner) => do
      let inner ← assign item true path inner
      return entries.replace key.name (.table span .implied inner)
    | some (.tables span (at', inner) earlier) => do
      let inner ← assign item true path inner
      return entries.replace key.name (.tables span (at', inner) earlier)
    | some (.table _ .header _) | some (.value _) => none

end Entries

end Draft

end TypeCatalog.Toml
