import TypeCatalog.Json.Shape
import TypeCatalog.Json.Value
import TypeCatalog.Node
import TypeCatalog.OrderedMap

/-! The catalog: for each name, the source text of the interface that was last attached under it, in
the order in which the names came. Its declarations are all texts and an interface that leads from
each key to the interface declared for it; its definition is a JSON list of pairs of key and text,
from which the catalog can be read back. -/
namespace TypeCatalog

abbrev Catalog := OrderedMap String String

inductive Attached where
  | inserted
  | replaced
deriving DecidableEq, Repr

namespace Catalog

open Json (Reader Value)

def put (c : Catalog) (key text : String) : Attached × Catalog :=
  (if c.contains key then .replaced else .inserted, c.insert key text)

/-- The key is the name as given, not the identifier made of it. -/
def attach (c : Catalog) (i : Interface) : Attached × Catalog := c.put i.name i.source

/-- Between two texts stands one blank line, before the lookup interface two. -/
def textSeparator : String := "\n\n"

def lookupSeparator : String := "\n\n\n"

def lookup (c : Catalog) : TypeNode :=
  .exported (.interface "MapParsers" (c.keys.map fun key => (key, .keyword key)))

def declarations (c : Catalog) : String :=
  textSeparator.intercalate (c.entries.map Prod.snd) ++ lookupSeparator ++ c.lookup.source

def toValue (c : Catalog) : Value :=
  .list (c.entries.map fun e => .list [.string e.1, .string e.2])

def definition (c : Catalog) : String := c.toValue.toPretty

def pairReader : Reader (String × String) :=
  .list "a tuple of size 2" (.pair "a tuple of size 2" .string .string)

def pairsReader : Reader (List (String × String)) := .list "a sequence" (.items pairReader)

/-- Of pairs with the same key the last one gives the text and the first one the place. -/
def ofDefinition (text : String) : Except Json.Error Catalog :=
  (pairsReader.parse text).map OrderedMap.ofList

end Catalog

end TypeCatalog
