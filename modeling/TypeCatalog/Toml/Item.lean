import TypeCatalog.Diagnosis
import TypeCatalog.Text.Position

/-! TOML data. Every key and every value knows which bytes of the text it comes from. -/
namespace TypeCatalog.Toml

/-- The bytes from `start` up to but not including `stop`. -/
structure Span where
  start : Nat
  stop : Nat
deriving DecidableEq, Repr

structure Key where
  name : String
  span : Span
deriving DecidableEq, Repr

/-- Dates and times are told apart from other values, but their parts are not kept. A `badNumber`
is written like a number and has no value. -/
inductive Item where
  | string (span : Span) (s : String)
  | integer (span : Span) (n : Int)
  | float (span : Span) (f : Float)
  | boolean (span : Span) (b : Bool)
  | moment (span : Span)
  | badNumber (span : Span)
  | list (span : Span) (items : List Item)
  | table (span : Span) (entries : List (Key × Item))

namespace Item

def span : Item → Span
  | string s _ | integer s _ | float s _ | boolean s _ | moment s | badNumber s | list s _
  | table s _ => s

/-- What a decoder sees of an item, if it can be seen; to it a moment is a table. -/
def found? : Item → Option Found
  | string _ s => some (.string s)
  | integer _ n => some (.integer n)
  | float _ f => some (.float f)
  | boolean _ b => some (.boolean b)
  | moment _ => some .map
  | badNumber _ => none
  | list _ _ => some .sequence
  | table _ _ => some .map

/-- Every number in the item, however deep, has a value. -/
def isSound : Item → Bool
  | badNumber _ => false
  | list _ items => allSound items
  | table _ entries => entriesSound entries
  | _ => true
where
  allSound : List Item → Bool
    | [] => true
    | item :: rest => item.isSound && allSound rest
  entriesSound : List (Key × Item) → Bool
    | [] => true
    | (_, item) :: rest => item.isSound && entriesSound rest

end Item

/-- Entries in the order of their keys, compared code point by code point. -/
def sortEntries (entries : List (Key × Item)) : List (Key × Item) :=
  entries.mergeSort fun a b => !decide (b.1.name < a.1.name)

end TypeCatalog.Toml
