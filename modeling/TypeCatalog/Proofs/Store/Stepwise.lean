import TypeCatalog.Proofs.Store.Turns

/-! Work in steps, when nobody else touches the files in between, comes to the same as the work
in one go: the same result or error, and the same files. -/
namespace TypeCatalog

namespace Session

variable {ε δ α β : Type}

/-- What comes of all steps at a stretch, without what is told on the way. -/
def outcome (work : Session ε α) (t : Tree) : α × Tree := ((work.run t).result, (work.run t).tree)

theorem outcome_bind (x : Session ε α) (f : α → Session ε β) (t : Tree) :
    (x.bind f).outcome t = (f (x.outcome t).1).outcome (x.outcome t).2 := by
  simp only [outcome, run_bind]

theorem outcome_quiet (work : Session ε α) (t : Tree) : work.quiet.outcome t = work.outcome t := by
  obtain ⟨result, tree⟩ := work.run_quiet t
  exact Prod.ext result tree

theorem outcome_readText (p : Path) (t : Tree) :
    (readText p : Session ε _).outcome t = (t.read p, t) := rfl

theorem outcome_writeText (p : Path) (text : String) (t : Tree) :
    (writeText p text : Session ε _).outcome t = t.writeText p text := by
  simp only [outcome, writeText, run]

/-- A failure ends the work, and the files stay as they are by then. -/
theorem outcome_run_bind (x : ExceptT δ (Session ε) α) (f : α → ExceptT δ (Session ε) β)
    (t : Tree) :
    (x >>= f).run.outcome t = match x.run.outcome t with
      | (.ok a, u) => (f a).run.outcome u
      | (.error e, u) => (.error e, u) := by
  change (Session.bind x.run (ExceptT.bindCont f)).outcome t = _
  rw [outcome_bind]
  rcases x.run.outcome t with ⟨_ | a, u⟩ <;> rfl

theorem outcome_run_adapt {γ : Type} (f : δ → γ) (x : ExceptT δ (Session ε) α) (t : Tree) :
    (ExceptT.adapt f x).run.outcome t =
      ((x.run.outcome t).1.mapError f, (x.run.outcome t).2) := by
  change (Session.bind x.run fun a => done (a.mapError f)).outcome t = _
  rw [outcome_bind]
  rfl

theorem outcome_run_lift (x : Session ε α) (t : Tree) :
    (ExceptT.lift x : ExceptT δ (Session ε) α).run.outcome t =
      (.ok (x.outcome t).1, (x.outcome t).2) := by
  change (Session.bind x fun a => done (Except.ok a)).outcome t = _
  rw [outcome_bind]
  rfl

end Session

namespace Steps

open Session

theorem outcome_tell (event : Event) (t : Tree) : (tell event).run.outcome t = (.ok (), t) := rfl

theorem outcome_write (p : Path) (text : String) (t : Tree) :
    (write p text).run.outcome t =
      ((t.writeText p text).1.mapError (.io p), (t.writeText p text).2) := by
  rw [write, outcome_run_bind, outcome_run_lift, outcome_writeText]
  rcases t.writeText p text with ⟨_ | _, u⟩ <;> rfl

end Steps

namespace Store

open Session

theorem outcome_pulling (s : Store) (t : Tree) : s.pulling.outcome t = (s.pull t, t) := by
  rw [pull_eq, pulled, Tree.readOptional]
  change (Session.bind (readText s.locations.definition) _).outcome t = _
  rw [outcome_bind, outcome_readText]
  cases t.read s.locations.definition with
  | error e => cases e <;> rfl
  | ok text =>
    simp only [FileError.orMissing, received]
    cases Catalog.ofDefinition text <;> rfl

theorem outcome_syncing (s : Store) (t : Tree) : s.syncing.run.outcome t = s.sync t := by
  simp only [syncing, sync, outcome_run_bind, Steps.outcome_write]
  rcases t.writeText s.locations.definition s.catalog.definition with ⟨_ | _, u⟩
  · rfl
  · simp only [Except.mapError]
    rcases u.writeText s.locations.declarations s.catalog.declarations with ⟨_ | _, v⟩ <;> rfl

end Store

theorem Steps.outcome_pull (s : Store) (t : Tree) :
    (pull s).run.outcome t = ((s.pull t).1.map fun _ => (s.pull t).2, t) := by
  change (Session.bind s.pulling _).outcome t = _
  rw [Session.outcome_bind, Store.outcome_pulling]
  rfl

theorem Document.outcome_registering (d : Document) (name : String) (l : Locations) (t : Tree) :
    (d.registering name l).run.outcome t = d.register name l t := by
  simp only [registering, register, Session.outcome_run_bind, Steps.outcome_pull]
  rcases (Store.new l).pull t with ⟨_ | c, s⟩
  · rfl
  · simp only [Except.map, Steps.outcome_tell, Store.outcome_syncing]
    rcases (s.attachDocument d name).2.sync t with ⟨_ | _, u⟩ <;> rfl

end TypeCatalog
