import TypeCatalog.Command.Run

/-! The program: a session on the files of the working directory. -/
namespace TypeCatalog.Disk

def fileError : IO.Error → FileError
  | .noFileOrDirectory .. => .notFound
  | .alreadyExists .. => .alreadyExists
  | .inappropriateType _ code _ => if code = 21 then .isADirectory else .notADirectory
  | .invalidArgument _ 36 _ => .nameTooLong
  | e => .other (toString e)

/-- Paths that cannot be looked up are not tried. -/
def attempt {α : Type} (p : Path) (act : String → IO α) : IO (Except FileError α) :=
  match Tree.parts p with
  | .error e => return .error e
  | .ok _ => do
    try return .ok (← act p.text) catch e => return .error (fileError e)

def read (p : Path) : IO (Except FileError String) := do
  match ← attempt p (IO.FS.readBinFile ·) with
  | .error e => return .error e
  | .ok content =>
    match String.fromUTF8? content with
    | none => return .error .notText
    | some text => return .ok text

def isDirectory (p : Path) : IO Bool := do
  try (← IO.FS.realPath p.text).isDir catch _ => return false

def ensureDirectory (p : Path) : IO (Except FileError Unit) := do
  match ← attempt p (IO.FS.createDir ·) with
  | .error .alreadyExists => return if ← isDirectory p then .ok () else .error .alreadyExists
  | made => return made

def ensureDirectories : List Path → IO (Except FileError Unit)
  | [] => return .ok ()
  | p :: above => do
    match ← ensureDirectory p with
    | .error .notFound =>
      match ← ensureDirectories above with
      | .error e => return .error e
      | .ok () => ensureDirectory p
    | made => return made

def write (p : Path) (text : String) : IO (Except FileError Unit) := do
  match ← ensureDirectories p.ancestors with
  | .error e => return .error e
  | .ok () => attempt p (IO.FS.writeFile · text)

/-- Events are told as they come. -/
def run {α : Type} : Session Event α → IO α
  | .done a => return a
  | .read path next => do run (next (← read path))
  | .write path text next => do run (next (← write path text))
  | .report event next => do
    IO.eprintln event.line
    run next

end TypeCatalog.Disk

def main (args : List String) : IO UInt32 := do
  match ← TypeCatalog.Disk.run (TypeCatalog.Command.session args) with
  | .ok output =>
    IO.print output
    return 0
  | .error failure =>
    for line in failure.report do IO.eprintln line
    return failure.code.toUInt32
