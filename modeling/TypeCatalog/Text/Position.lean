/-! Places in a text, counted in the bytes of its UTF-8 form. `Position.after` turns a byte
count into a line and column, `Position.offset` turns them back into a byte count; the two
agree up to the clamping that `offset` does at the ends of a line. -/
namespace TypeCatalog.Text

def byteCount : List Char → Nat
  | [] => 0
  | c :: rest => c.utf8Size + byteCount rest

@[simp] theorem byteCount_nil : byteCount [] = 0 := rfl
@[simp] theorem byteCount_cons (c : Char) (s : List Char) :
    byteCount (c :: s) = c.utf8Size + byteCount s := rfl
@[simp] theorem byteCount_append (s t : List Char) :
    byteCount (s ++ t) = byteCount s + byteCount t := by
  induction s with
  | nil => simp
  | cons c s ih => simp [ih, Nat.add_assoc]

/-- Lines count from one, columns are the bytes since the last line end. -/
structure Position where
  line : Nat
  column : Nat
deriving DecidableEq, Repr

namespace Position

/-- Moves on by `n` bytes of the text; the last of them may lie inside a character. -/
def advance (p : Position) : List Char → Nat → Position
  | [], _ => p
  | c :: rest, n =>
    if n < c.utf8Size then { p with column := p.column + n }
    else if c = '\n' then advance ⟨p.line + 1, 0⟩ rest (n - c.utf8Size)
    else advance { p with column := p.column + c.utf8Size } rest (n - c.utf8Size)

def after (text : List Char) (n : Nat) : Position := advance ⟨1, 0⟩ text n

def lineBytes : List Char → Nat → Nat
  | _, 0 => 0
  | [], _ + 1 => 0
  | c :: rest, n + 1 => c.utf8Size + lineBytes rest (if c = '\n' then n else n + 1)

/-- The byte just before the position, or the start of its line in column 0; never past the end. -/
def offset (text : List Char) (p : Position) : Nat :=
  min (lineBytes text (p.line - 1) + (p.column - 1)) (byteCount text)

theorem offset_le (text : List Char) (p : Position) : offset text p ≤ byteCount text :=
  Nat.min_le_right ..

end Position

end TypeCatalog.Text
