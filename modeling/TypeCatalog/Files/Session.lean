import TypeCatalog.Files.Tree

/-! Work on files as a sequence of steps, each a whole read or a whole write. Between two steps
others may work on the same tree. -/
namespace TypeCatalog

/-- `ε` is what is told on the way, `α` what comes out. -/
inductive Session (ε α : Type) where
  | done (result : α)
  | read (path : Path) (next : Except FileError String → Session ε α)
  | write (path : Path) (text : String) (next : Except FileError Unit → Session ε α)
  | report (event : ε) (next : Session ε α)

namespace Session

variable {ε α β : Type}

def bind : Session ε α → (α → Session ε β) → Session ε β
  | done a, f => f a
  | read path next, f => read path fun content => (next content).bind f
  | write path text next, f => write path text fun written => (next written).bind f
  | report event next, f => report event (next.bind f)

instance : Monad (Session ε) where
  pure := done
  bind := bind

def readText (path : Path) : Session ε (Except FileError String) := read path done

def writeText (path : Path) (text : String) : Session ε (Except FileError Unit) :=
  write path text done

def tell (event : ε) : Session ε Unit := report event (done ())

def quiet : Session ε α → Session ε α
  | done a => done a
  | read path next => read path fun content => (next content).quiet
  | write path text next => write path text fun written => (next written).quiet
  | report _ next => next.quiet

structure Trace (ε α : Type) where
  result : α
  events : List ε
  tree : Tree

def run : Session ε α → Tree → Trace ε α
  | done a, t => ⟨a, [], t⟩
  | read path next, t => (next (t.read path)).run t
  | write path text next, t =>
    let (written, t) := t.writeText path text
    (next written).run t
  | report event next, t =>
    let trace := next.run t
    { trace with events := event :: trace.events }

theorem run_bind (x : Session ε α) (f : α → Session ε β) (t : Tree) :
    (x.bind f).run t =
      let first := x.run t
      let second := (f first.result).run first.tree
      ⟨second.result, first.events ++ second.events, second.tree⟩ := by
  induction x generalizing t with
  | done a => rfl
  | read path next ih => exact ih _ t
  | write path text next ih => exact ih _ _
  | report event next ih => simp [bind, run, ih]

def advance : Session ε α → Tree → Session ε α × Tree
  | done a, t => (done a, t)
  | read path next, t => (next (t.read path), t)
  | write path text next, t =>
    let (written, t) := t.writeText path text
    (next written, t)
  | report _ next, t => (next, t)

end Session

end TypeCatalog
