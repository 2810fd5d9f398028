/-! Paths as they are spelt, and the parts they are made of. Repeated slashes, a slash at the end
and dots other than one at the very start make no difference to the parts. What can go wrong with a
file is here too. -/
namespace TypeCatalog

inductive FileError where
  | notFound
  | alreadyExists
  | notADirectory
  | isADirectory
  | nameTooLong
  /-- The bytes of the file are no UTF-8. -/
  | notText
  | nulInName
  | other (message : String)
deriving DecidableEq, Repr

namespace FileError

def message : FileError → String
  | .notFound => "No such file or directory (os error 2)"
  | .alreadyExists => "File exists (os error 17)"
  | .notADirectory => "Not a directory (os error 20)"
  | .isADirectory => "Is a directory (os error 21)"
  | .nameTooLong => "File name too long (os error 36)"
  | .notText => "stream did not contain valid UTF-8"
  | .nulInName => "file name contained an unexpected NUL byte"
  | .other message => message

/-- What a read gives where a missing file is no failure. -/
def orMissing {α : Type} : Except FileError α → Except FileError (Option α)
  | .ok a => .ok (some a)
  | .error .notFound => .ok none
  | .error e => .error e

end FileError

structure Path where
  text : String
deriving DecidableEq, Repr

namespace Path

def splitSlash : List Char → List (List Char)
  | [] => [[]]
  | c :: r =>
    match splitSlash r with
    | [] => [[c]]
    | piece :: pieces => if c = '/' then [] :: piece :: pieces else (c :: piece) :: pieces

def segments (p : Path) : List String :=
  ((splitSlash p.text.toList).filter (!·.isEmpty)).map String.ofList

def isAbsolute (p : Path) : Bool := p.text.toList.head? == some '/'

/-- A slash at the end asks for a directory. -/
def endsInSlash (p : Path) : Bool := p.text.toList.getLast? == some '/'

inductive Component where
  | root
  | here
  | up
  | name (s : String)
deriving DecidableEq, Repr

def components (p : Path) : List Component :=
  let part (s : String) : Option Component :=
    if s = "." then none else if s = ".." then some .up else some (.name s)
  let parts := p.segments.filterMap part
  if p.isAbsolute then .root :: parts
  else if (splitSlash p.text.toList).head? = some ['.'] then .here :: parts
  else parts

def same (p q : Path) : Bool := p.components == q.components

/-- A piece is a part unless it is empty, or a dot that is not the first piece. -/
def isPart (index : Nat) (piece : List Char) : Bool :=
  !piece.isEmpty && (index == 0 || piece != ['.'])

/-- The directories above as they are spelt, that is the beginnings of the path that end in a
part, the nearest first. The root and the empty path are left out. -/
def ancestors (p : Path) : List Path :=
  let pieces := splitSlash p.text.toList
  let beginning (index : Nat) : Option Path :=
    if pieces[index]?.any (isPart index) then
      some ⟨String.ofList (['/'].intercalate (pieces.take (index + 1)))⟩
    else none
  (((List.range pieces.length).reverse).filterMap beginning).drop 1

def join (dir p : Path) : Path :=
  if p.isAbsolute then p
  else if dir.text.isEmpty || dir.endsInSlash then ⟨dir.text ++ p.text⟩
  else ⟨dir.text ++ "/" ++ p.text⟩

end Path

end TypeCatalog
