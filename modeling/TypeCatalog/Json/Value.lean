import TypeCatalog.Json.Numeral
import TypeCatalog.Text.Quoted

/-! JSON values as data and as text: `compact` without any white space, `pretty` with one item to a
line. -/
namespace TypeCatalog.Json

/-- The members of an object stand in the order in which they are written. -/
inductive Value where
  | null
  | boolean (b : Bool)
  | number (n : Number)
  | string (s : String)
  | list (items : List Value)
  | object (members : List (String × Value))

namespace Value

def found : Value → Found
  | null => .null
  | boolean b => .boolean b
  | number (.integer n) => .integer n
  | number (.float f) => .float f
  | string s => .string s
  | list _ => .sequence
  | object _ => .map

def asString : Value → Except Mismatch String
  | string s => .ok s
  | v => .error (.wrongKind v.found "a string")

def asBoolean : Value → Except Mismatch Bool
  | boolean b => .ok b
  | v => .error (.wrongKind v.found "a boolean")

def asList (expected : String) : Value → Except Mismatch (List Value)
  | list items => .ok items
  | v => .error (.wrongKind v.found expected)

/-- Members in the order of their keys, compared code point by code point. -/
def sortMembers (members : List (String × Value)) : List (String × Value) :=
  members.mergeSort fun a b => !decide (b.1 < a.1)

end Value

def intText (n : Int) : List Char :=
  if n < 0 then '-' :: Nat.toDigits 10 n.natAbs else Nat.toDigits 10 n.natAbs

def Number.text : Number → List Char
  | .integer n => intText n
  | .float f => (Decimal.Layout.compact.text f).toList

namespace Value

def quoted (s : String) : List Char := (Text.quote s).toList

mutual

def compact : Value → List Char
  | null => ['n', 'u', 'l', 'l']
  | boolean true => ['t', 'r', 'u', 'e']
  | boolean false => ['f', 'a', 'l', 's', 'e']
  | number n => n.text
  | string s => quoted s
  | list [] => ['[', ']']
  | list (v :: vs) => '[' :: compact v ++ compactItems vs
  | object [] => ['\x7b', '\x7d']
  | object ((key, v) :: ms) => '\x7b' :: quoted key ++ ':' :: compact v ++ compactMembers ms

def compactItems : List Value → List Char
  | [] => [']']
  | v :: vs => ',' :: compact v ++ compactItems vs

def compactMembers : List (String × Value) → List Char
  | [] => ['\x7d']
  | (key, v) :: ms => ',' :: quoted key ++ ':' :: compact v ++ compactMembers ms

end

/-- A line end and the indentation of the next line, two spaces for each level. -/
def lineBreak (depth : Nat) : List Char := '\n' :: List.replicate (2 * depth) ' '

mutual

def pretty (depth : Nat) : Value → List Char
  | list (v :: vs) =>
    '[' :: lineBreak (depth + 1) ++ pretty (depth + 1) v ++ prettyItems depth vs
  | object ((key, v) :: ms) =>
    '\x7b' :: lineBreak (depth + 1) ++ quoted key ++ ':' :: ' ' :: pretty (depth + 1) v ++
      prettyMembers depth ms
  | v => compact v

def prettyItems (depth : Nat) : List Value → List Char
  | [] => lineBreak depth ++ [']']
  | v :: vs => ',' :: lineBreak (depth + 1) ++ pretty (depth + 1) v ++ prettyItems depth vs

def prettyMembers (depth : Nat) : List (String × Value) → List Char
  | [] => lineBreak depth ++ ['\x7d']
  | (key, v) :: ms =>
    ',' :: lineBreak (depth + 1) ++ quoted key ++ ':' :: ' ' :: pretty (depth + 1) v ++
      prettyMembers depth ms

end

def toCompact (v : Value) : String := String.ofList v.compact

def toPretty (v : Value) : String := String.ofList (v.pretty 0)

end Value

end TypeCatalog.Json
