import TypeCatalog.Text.Quoted

/-! Type expressions and their source text. A name becomes an identifier or the name of a property.
A node is rendered at a depth into lines, each with its own indentation, so that a parent can put
the first line behind a text of its own. -/
namespace TypeCatalog

namespace Identifier

/-- ASCII letters, digits and the underscore; no other character counts. -/
def isWord (c : Char) : Bool := c.isAlphanum || c == '_'

/-- Every other character becomes one underscore, and so does the empty key. -/
def ofKey (key : String) : String :=
  if key.isEmpty then "_" else key.map fun c => if isWord c then c else '_'

def needsQuotes (key : String) : Bool := key.isEmpty || !key.toList.all isWord

/-- The key itself where that is a bare name, and quoted otherwise. -/
def property (key : String) : String := if needsQuotes key then Text.quote key else key

end Identifier

/-- Texts of keywords and literals, and names, are kept as given. -/
inductive TypeNode where
  | keyword (raw : String)
  | literal (raw : String)
  | any
  | undefined
  | null
  | string
  | number
  | boolean
  | union (first : TypeNode) (others : List TypeNode)
  | field (name : String) (value : TypeNode)
  | interface (name : String) (fields : List (String × TypeNode))
  | exported (inner : TypeNode)
deriving Repr

structure Interface where
  name : String
  fields : List (String × TypeNode)

namespace TypeNode

def ofInterface (i : Interface) : TypeNode := .interface i.name i.fields

def nullable (node : TypeNode) : TypeNode := .union .null [node]

def unionOf? : List TypeNode → Option TypeNode
  | [] => none
  | first :: others => some (.union first others)

mutual

def same : TypeNode → TypeNode → Bool
  | keyword a, keyword b => a == b
  | literal a, literal b => a == b
  | any, any => true
  | undefined, undefined => true
  | null, null => true
  | string, string => true
  | number, number => true
  | boolean, boolean => true
  | union a as, union b bs => same a b && sameAll as bs
  | field m a, field n b => m == n && same a b
  | interface m as, interface n bs => m == n && sameFields as bs
  | exported a, exported b => same a b
  | _, _ => false

def sameAll : List TypeNode → List TypeNode → Bool
  | [], [] => true
  | a :: as, b :: bs => same a b && sameAll as bs
  | _, _ => false

def sameFields : List (String × TypeNode) → List (String × TypeNode) → Bool
  | [], [] => true
  | (m, a) :: as, (n, b) :: bs => m == n && same a b && sameFields as bs
  | _, _ => false

end

end TypeNode

/-- The text may itself hold line ends; only its start is indented. -/
structure Line where
  indent : Nat
  text : String
deriving DecidableEq, Repr

namespace Line

def toText (l : Line) : String := String.ofList (List.replicate (2 * l.indent) ' ') ++ l.text

def flatten (lines : List Line) : String := "\n".intercalate (lines.map toText)

/-- Puts a text in front of the first line, which takes the given indentation. -/
def lead (depth : Nat) (before : String) : List Line → List Line
  | [] => []
  | first :: rest => ⟨depth, before ++ first.text⟩ :: rest

/-- One line of several: after the first, each stands on its own with its indentation. -/
def join (depth : Nat) (before : String) : List Line → Line
  | [] => ⟨depth, before⟩
  | first :: rest =>
    ⟨depth, before ++ first.text ++ String.join (rest.map fun l => "\n" ++ l.toText)⟩

end Line

namespace TypeNode

mutual

def renderAt (depth : Nat) : TypeNode → List Line
  | keyword raw => [⟨depth, Identifier.ofKey raw⟩]
  | literal raw => [⟨depth, Text.quote raw⟩]
  | any => [⟨depth, "any"⟩]
  | undefined => [⟨depth, "undefined"⟩]
  | null => [⟨depth, "null"⟩]
  | string => [⟨depth, "string"⟩]
  | number => [⟨depth, "number"⟩]
  | boolean => [⟨depth, "boolean"⟩]
  | union first others => renderAt depth first ++ renderOthers depth others
  | field name value => [.join depth (Identifier.property name ++ ": ") (renderAt depth value)]
  | interface name fields =>
    ⟨depth, "interface " ++ Identifier.ofKey name ++ " \x7b"⟩ ::
      renderFields (depth + 1) fields ++ [⟨depth, "\x7d"⟩]
  | exported inner => Line.lead depth "export " (renderAt depth inner)

/-- The members of a union after the first: a bar opens each of them. -/
def renderOthers (depth : Nat) : List TypeNode → List Line
  | [] => []
  | node :: rest => Line.lead depth "| " (renderAt depth node) ++ renderOthers depth rest

/-- Each field is one line that holds the lines of its value. -/
def renderFields (depth : Nat) : List (String × TypeNode) → List Line
  | [] => []
  | (name, value) :: rest =>
    .join depth (Identifier.property name ++ ": ") (renderAt depth value) ::
      renderFields depth rest

end

def render (node : TypeNode) : List Line := renderAt 0 node

def source (node : TypeNode) : String := Line.flatten node.render

end TypeNode

namespace Interface

def identifier (i : Interface) : String := Identifier.ofKey i.name

def source (i : Interface) : String := (TypeNode.ofInterface i).source

end Interface

end TypeCatalog
