import TypeCatalog.Proofs.Store.Artifacts
import TypeCatalog.Store.Steps

/-! A registration turn by turn. It takes three: the definition is read, then the definition is
written, then the declarations. Nothing else that it does can be told apart from outside. -/
namespace TypeCatalog

/-- To leave out the events changes neither the result nor the files. -/
theorem Session.run_quiet {ε α : Type} (work : Session ε α) (t : Tree) :
    (work.quiet.run t).result = (work.run t).result ∧
      (work.quiet.run t).tree = (work.run t).tree := by
  induction work generalizing t with
  | done a => exact ⟨rfl, rfl⟩
  | read path next ih => exact ih _ t
  | write path text next ih =>
    simp only [quiet, run]
    exact ih _ _
  | report event next ih => exact ih t

theorem Session.advance_keepsDirectories {ε α : Type} (work : Session ε α) (t : Tree) :
    t.KeepsDirectories (work.advance t).2 := by
  cases work with
  | write path text next =>
    have keeps := t.writeText_keepsDirectories path text
    simp only [advance]
    exact keeps
  | _ => exact .refl t

inductive Artifact where
  | definition
  | declarations
deriving DecidableEq

namespace Artifact

def path (l : Locations) : Artifact → Path
  | definition => l.definition
  | declarations => l.declarations

def text (c : Catalog) : Artifact → String
  | definition => c.definition
  | declarations => c.declarations

/-- The turns that a registration has taken before it writes the artifact. -/
def turn : Artifact → Nat
  | definition => 1
  | declarations => 2

theorem turn_injective {a b : Artifact} (same : a.turn = b.turn) : a = b := by
  cases a <;> cases b <;> first | rfl | cases same

theorem apart_of_ne {a b : Artifact} {l : Locations} {t : Tree}
    (apart : t.Apart l.definition l.declarations) (ne : a ≠ b) :
    t.Apart (a.path l) (b.path l) := by
  cases a <;> cases b
  · exact absurd rfl ne
  · exact apart
  · exact apart.symm
  · exact absurd rfl ne

end Artifact

namespace Call

abbrev Work := Session Event (Except CatalogError Registration)

def writing (l : Locations) (c : Catalog) (a : Artifact) (next : Work) : Work :=
  .write (a.path l) (a.text c) fun
    | .ok () => next
    | .error e => .done (.error (.io (a.path l) e))

def declaring (call : Call) (l : Locations) (c : Catalog) : Work :=
  writing l (call.enter c) .declarations (.done (.ok (call.told c)))

def syncing (call : Call) (l : Locations) (c : Catalog) : Work :=
  writing l (call.enter c) .definition (call.declaring l c)

def reading (call : Call) (l : Locations) : Work :=
  .read l.definition fun content =>
    match Store.received l.definition (FileError.orMissing content) with
    | .error e => .done (.error e)
    | .ok c => call.syncing l c

/-- What is left of a call after some turns; `c` is the catalog that it has pulled by then. -/
def remaining (call : Call) (l : Locations) (c : Catalog) : Nat → Work
  | 0 => call.reading l
  | 1 => call.syncing l c
  | 2 => call.declaring l c
  | _ + 3 => .done (.ok (call.told c))

/-- What a call does once it has its catalog comes down to the two writes. -/
theorem attaching_quiet (call : Call) (l : Locations) (c : Catalog) :
    (ExceptT.run do
      let (registration, s) := (Store.mk l c).attachDocument call.document call.name
      Steps.tell (.attached registration.key registration.attached)
      s.syncing
      return registration).quiet = call.syncing l c := by
  show Session.write l.definition _ _ = Session.write l.definition _ _
  congr 1
  funext written
  cases written with
  | error e => rfl
  | ok _ =>
    show Session.write l.declarations _ _ = Session.write l.declarations _ _
    congr 1
    funext written
    cases written <;> rfl

/-- The call as it is written comes down to its three turns. -/
theorem registering_quiet (call : Call) (l : Locations) :
    (call.document.registering call.name l).run.quiet = call.reading l := by
  show Session.read l.definition _ = Session.read l.definition _
  congr 1
  funext content
  cases content with
  | error e =>
    cases e with
    | notFound => exact call.attaching_quiet l ∅
    | _ => rfl
  | ok text =>
    cases decoded : Catalog.ofDefinition text <;>
      simp only [FileError.orMissing, Store.received, decoded, Except.mapError, Session.bind]
    case error => rfl
    case ok c => exact call.attaching_quiet l c

/-- A turn that goes well, the first of a call being number 0. The catalog is what a pull gives
at the first turn, and of the artifacts only the one whose turn it is gets written. -/
structure Turn (call : Call) (l : Locations) (c : Catalog) (turn : Nat) (t t' : Tree) : Prop where
  pulls : turn = 0 → Store.pulled l t = .ok c
  writes : ∀ a : Artifact, a.turn = turn →
    t.writeText (a.path l) (a.text (call.enter c)) = (.ok (), t')
  stays : (∀ a : Artifact, a.turn ≠ turn) → t' = t

/-- The turn at which an artifact is written. -/
theorem turn_of_write {call : Call} {l : Locations} {c : Catalog} {a : Artifact} {t t' : Tree}
    (wrote : t.writeText (a.path l) (a.text (call.enter c)) = (.ok (), t')) :
    call.Turn l c a.turn t t' where
  pulls first := by cases a <;> cases first
  writes b same := by
    obtain rfl := Artifact.turn_injective same
    exact wrote
  stays other := absurd rfl (other a)

/-- A turn at which nothing is written. -/
theorem turn_of_idle {call : Call} {l : Locations} {c : Catalog} {turn : Nat} {t : Tree}
    (pulls : turn = 0 → Store.pulled l t = .ok c) (idle : ∀ a : Artifact, a.turn ≠ turn) :
    call.Turn l c turn t t where
  pulls := pulls
  writes a own := absurd own (idle a)
  stays _ := rfl

theorem advance_reading {call : Call} {l : Locations} {rest : Work} {t t' : Tree}
    (advanced : (call.reading l).advance t = (rest, t')) :
    t' = t ∧ ((∃ e, rest = .done (.error e)) ∨
      ∃ c, Store.pulled l t = .ok c ∧ rest = call.syncing l c) := by
  simp only [reading, Session.advance, Prod.mk.injEq] at advanced
  obtain ⟨after, rfl⟩ := advanced
  refine ⟨rfl, ?_⟩
  change (match Store.pulled l t with | .error e => _ | .ok c => _) = rest at after
  cases pulls : Store.pulled l t with
  | error e =>
    rw [pulls] at after
    exact .inl ⟨e, after.symm⟩
  | ok c =>
    rw [pulls] at after
    exact .inr ⟨c, rfl, after.symm⟩

theorem advance_writing {l : Locations} {c : Catalog} {a : Artifact} {next rest : Work}
    {t t' : Tree} (advanced : (writing l c a next).advance t = (rest, t')) :
    (∃ e, rest = .done (.error e)) ∨
      rest = next ∧ t.writeText (a.path l) (a.text c) = (.ok (), t') := by
  rcases wrote : t.writeText (a.path l) (a.text c) with ⟨written, u⟩
  simp only [writing, Session.advance, wrote] at advanced
  cases written with
  | error e =>
    cases advanced
    exact .inl ⟨_, rfl⟩
  | ok =>
    cases advanced
    exact .inr ⟨rfl, rfl⟩

/-- A turn fails and ends the call, or it goes well and leaves the call one turn further on. -/
theorem advance_remaining {call : Call} {l : Locations} {c : Catalog} {turn : Nat} {rest : Work}
    {t t' : Tree} (advanced : (call.remaining l c turn).advance t = (rest, t')) :
    (∃ e, rest = .done (.error e)) ∨
      ∃ c', (turn ≠ 0 → c' = c) ∧ rest = call.remaining l c' (turn + 1) ∧
        call.Turn l c' turn t t' := by
  match turn with
  | 0 =>
    obtain ⟨rfl, failed | ⟨c', pulls, further⟩⟩ := advance_reading advanced
    · exact .inl failed
    · have idle : ∀ a : Artifact, a.turn ≠ 0 := by
        intro a
        cases a <;> decide
      exact .inr ⟨c', fun later => absurd rfl later, further, turn_of_idle (fun _ => pulls) idle⟩
  | 1 =>
    rcases advance_writing advanced with failed | ⟨further, wrote⟩
    · exact .inl failed
    · exact .inr ⟨c, fun _ => rfl, further, turn_of_write wrote⟩
  | 2 =>
    rcases advance_writing advanced with failed | ⟨further, wrote⟩
    · exact .inl failed
    · exact .inr ⟨c, fun _ => rfl, further, turn_of_write wrote⟩
  | turn + 3 =>
    have idle : ∀ a : Artifact, a.turn ≠ turn + 3 := by
      intro a
      cases a <;> simp [Artifact.turn]
    simp only [remaining, Session.advance, Prod.mk.injEq] at advanced
    obtain ⟨rfl, rfl⟩ := advanced
    exact .inr ⟨c, fun _ => rfl, rfl, turn_of_idle nofun idle⟩

variable {call : Call} {l : Locations} {c : Catalog} {a : Artifact} {t t' : Tree}

theorem Turn.read {turn : Nat} (took : call.Turn l c turn t t') (own : a.turn = turn) :
    t'.read (a.path l) = .ok (a.text (call.enter c)) := by
  obtain ⟨_, written⟩ := Tree.writeText_written (took.writes a own)
  exact written.read

/-- At another's turn an artifact stays as it is. -/
theorem Turn.read_other {turn : Nat} {text : String} (took : call.Turn l c turn t t')
    (other : a.turn ≠ turn) (apart : t'.Apart l.definition l.declarations)
    (read : t.read (a.path l) = .ok text) : t'.read (a.path l) = .ok text := by
  by_cases written : ∃ b : Artifact, b.turn = turn
  · obtain ⟨b, own⟩ := written
    have ne : a ≠ b := by
      rintro rfl
      exact other own
    obtain ⟨_, written⟩ := Tree.writeText_written (took.writes b own)
    exact written.read_other read (Artifact.apart_of_ne apart ne)
  · rw [took.stays (not_exists.mp written)]
    exact read

end Call
end TypeCatalog
