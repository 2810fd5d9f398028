import TypeCatalog.Proofs.Store.Artifacts
import TypeCatalog.Proofs.Store.Stepwise

/-! What a store has in memory after any number of operations, while others do to the files what
they like. It is the catalog of the last pull that went well with the interfaces attached since,
and nothing else has a part in it. -/
namespace TypeCatalog

inductive Mode where
  | blocking
  | stepwise

namespace Store

def pullBy (s : Store) (t : Tree) : Mode → (Except CatalogError Catalog × Store) × Tree
  | .blocking => (s.pull t, t)
  | .stepwise => s.pulling.outcome t

def syncBy (s : Store) (t : Tree) : Mode → Except CatalogError Unit × Tree
  | .blocking => s.sync t
  | .stepwise => s.syncing.run.outcome t

theorem pullBy_eq (s : Store) (t : Tree) (mode : Mode) : s.pullBy t mode = (s.pull t, t) := by
  cases mode with
  | blocking => rfl
  | stepwise => exact s.outcome_pulling t

end Store

structure World where
  store : Store
  tree : Tree

inductive Move where
  | attach (i : Interface)
  | pull (mode : Mode)
  | sync (mode : Mode)
  | change (tree : Tree)

namespace Move

/-- The key and the text that a move is to put into the catalog. -/
def entry? : Move → Option (String × String)
  | attach i => some (i.name, i.source)
  | _ => none

def IsPull (m : Move) : Prop := ∃ mode, m = pull mode

def IsSync (m : Move) : Prop := ∃ mode, m = sync mode

end Move

namespace World

def step (w : World) : Move → Except CatalogError Unit × World
  | .attach i => (.ok (), { w with store := (w.store.attach i).2 })
  | .pull mode =>
    let ((pulled, store), tree) := w.store.pullBy w.tree mode
    (pulled.map fun _ => (), ⟨store, tree⟩)
  | .sync mode =>
    let (synced, tree) := w.store.syncBy w.tree mode
    (synced, { w with tree })
  | .change tree => (.ok (), { w with tree })

/-- All moves one after another, whatever the results of those before. -/
def run (w : World) (moves : List Move) : World := moves.foldl (fun w m => (w.step m).2) w

/-- The move is a pull, and `c` is what it finds: nothing where no file is, and otherwise what the
text in the file is the definition of. -/
def Takes (w : World) (m : Move) (c : Catalog) : Prop :=
  let found := w.tree.read w.store.locations.definition
  m.IsPull ∧ (found = .error .notFound ∧ c = ∅ ∨
    ∃ text, found = .ok text ∧ Catalog.ofDefinition text = .ok c)

inductive Unpulled : World → List Move → Prop where
  | nil {w : World} : Unpulled w []
  | cons {w : World} {m : Move} {rest : List Move} :
      (∀ c, ¬w.Takes m c) → Unpulled (w.step m).2 rest → Unpulled w (m :: rest)

variable {w : World} {m : Move} {c : Catalog}

theorem takes_pull_iff {mode : Mode} :
    w.Takes (.pull mode) c ↔ Store.pulled w.store.locations w.tree = .ok c := by
  rw [Store.pulled_eq_ok_iff]
  exact and_iff_right ⟨mode, rfl⟩

theorem step_of_takes (takes : w.Takes m c) :
    w.step m = (.ok (), ⟨⟨w.store.locations, c⟩, w.tree⟩) := by
  obtain ⟨mode, rfl⟩ := takes.1
  simp only [step, Store.pullBy_eq, Store.pull_eq, takes_pull_iff.mp takes, Except.map]

/-- All that a pull can do: it takes what it finds, or it fails and all is as it was. -/
theorem step_of_pull (pull : m.IsPull) :
    (∃ c, w.Takes m c ∧ w.step m = (.ok (), ⟨⟨w.store.locations, c⟩, w.tree⟩)) ∨
      (∀ c, ¬w.Takes m c) ∧ ∃ e, w.step m = (.error e, w) := by
  obtain ⟨mode, rfl⟩ := pull
  cases found : Store.pulled w.store.locations w.tree with
  | ok c =>
    have takes : w.Takes (.pull mode) c := takes_pull_iff.mpr found
    exact .inl ⟨c, takes, step_of_takes takes⟩
  | error e =>
    refine .inr ⟨fun c takes => ?_, e, ?_⟩
    · rw [takes_pull_iff, found] at takes
      cases takes
    · simp only [step, Store.pullBy_eq, Store.pull_eq, found, Except.map]

theorem step_pull_ok_iff (pull : m.IsPull) :
    (w.step m).1 = .ok () ↔ ∃ c, w.Takes m c := by
  rcases step_of_pull pull with ⟨c, takes, step⟩ | ⟨fails, e, step⟩
  · exact iff_of_true (by rw [step]) ⟨c, takes⟩
  · exact iff_of_false (by simp [step]) (not_exists.mpr fails)

theorem tree_step_of_pull (pull : m.IsPull) : (w.step m).2.tree = w.tree := by
  rcases step_of_pull pull with ⟨c, -, step⟩ | ⟨-, e, step⟩ <;> rw [step]

theorem store_step_of_sync (sync : m.IsSync) : (w.step m).2.store = w.store := by
  obtain ⟨mode, rfl⟩ := sync
  rfl

/-- Whatever fails leaves the store as it was. -/
theorem store_step_of_error {e : CatalogError} (failed : (w.step m).1 = .error e) :
    (w.step m).2.store = w.store := by
  cases m with
  | attach i => cases failed
  | pull mode =>
    rcases step_of_pull (w := w) ⟨mode, rfl⟩ with ⟨c, -, step⟩ | ⟨-, e', step⟩
    · rw [step] at failed
      cases failed
    · rw [step]
  | sync mode => rfl
  | change tree => cases failed

theorem locations_step (w : World) (m : Move) :
    (w.step m).2.store.locations = w.store.locations := by
  cases m with
  | pull mode =>
    rcases step_of_pull (w := w) ⟨mode, rfl⟩ with ⟨c, -, step⟩ | ⟨-, e, step⟩ <;> rw [step]
  | _ => rfl

/-- But for a pull that goes well, a move adds what it attaches and nothing else. -/
theorem catalog_step (stays : ∀ c, ¬w.Takes m c) :
    (w.step m).2.store.catalog = w.store.catalog.insertAll m.entry?.toList := by
  cases m with
  | pull mode =>
    rcases step_of_pull (w := w) ⟨mode, rfl⟩ with ⟨c, takes, -⟩ | ⟨-, e, step⟩
    · exact absurd takes (stays c)
    · rw [step]
      rfl
  | _ => rfl

theorem locations_run (w : World) (moves : List Move) :
    (w.run moves).store.locations = w.store.locations := by
  induction moves generalizing w with
  | nil => rfl
  | cons m moves ih => exact (ih (w.step m).2).trans (w.locations_step m)

/-- By induction on the moves: the first of them either starts afresh or adds what it attaches. -/
theorem catalog_run (w : World) (moves : List Move) :
    (w.Unpulled moves ∧ (w.run moves).store.catalog =
        w.store.catalog.insertAll (moves.filterMap Move.entry?)) ∨
      ∃ earlier pull later c, moves = earlier ++ pull :: later ∧ (w.run earlier).Takes pull c ∧
        ((w.run earlier).step pull).2.Unpulled later ∧
        (w.run moves).store.catalog = c.insertAll (later.filterMap Move.entry?) := by
  induction moves generalizing w with
  | nil => exact .inl ⟨.nil, rfl⟩
  | cons m moves ih =>
    rcases ih (w.step m).2 with ⟨unpulled, rest⟩ | ⟨earlier, pull, later, c, rfl, last⟩
    · change (w.run (m :: moves)).store.catalog = _ at rest
      -- No pull among the others goes well, so the first move may be the last one that does.
      by_cases found : ∃ c, w.Takes m c
      · obtain ⟨c, takes⟩ := found
        refine .inr ⟨[], m, moves, c, rfl, takes, unpulled, ?_⟩
        rw [rest, step_of_takes takes]
      · refine .inl ⟨.cons (not_exists.mp found) unpulled, ?_⟩
        rw [rest, catalog_step (not_exists.mp found), List.filterMap_cons]
        cases m <;> rfl
    · exact .inr ⟨m :: earlier, pull, later, c, rfl, last⟩

end World

/-- A new store, after any moves: either no pull has gone well, and it holds what was attached, or
it holds what the last pull that did has found in the files, with what was attached since. A pull
succeeds if the files have a catalog for it, and then takes it whatever was in memory; it changes
no file. No move that fails and no sync changes the store. -/
theorem memory_follows_last_pull (l : Locations) (t : Tree) (moves : List Move) :
    let start : World := ⟨.new l, t⟩
    ((start.Unpulled moves ∧ (start.run moves).store =
        ⟨l, OrderedMap.insertAll ∅ (moves.filterMap Move.entry?)⟩) ∨
      ∃ earlier pull later c, moves = earlier ++ pull :: later ∧
        (start.run earlier).Takes pull c ∧ ((start.run earlier).step pull).2.Unpulled later ∧
        (start.run moves).store = ⟨l, c.insertAll (later.filterMap Move.entry?)⟩) ∧
    ∀ (w : World) (m : Move),
      (∀ e, (w.step m).1 = .error e → (w.step m).2.store = w.store) ∧
      (m.IsSync → (w.step m).2.store = w.store) ∧
      (m.IsPull → (w.step m).2.tree = w.tree ∧ ((w.step m).1 = .ok () ↔ ∃ c, w.Takes m c)) ∧
      ∀ c, w.Takes m c → ∀ memory : Catalog,
        World.step ⟨⟨w.store.locations, memory⟩, w.tree⟩ m =
          (.ok (), ⟨⟨w.store.locations, c⟩, w.tree⟩) := by
  intro start
  have store {c : Catalog} (holds : (start.run moves).store.catalog = c) :
      (start.run moves).store = ⟨l, c⟩ := by
    have located : (start.run moves).store.locations = l := start.locations_run moves
    rw [← located, ← holds]
  refine ⟨?_, fun w m => ⟨fun e => World.store_step_of_error, World.store_step_of_sync, ?_, ?_⟩⟩
  · rcases start.catalog_run moves with ⟨unpulled, holds⟩ | ⟨earlier, pull, later, c, whole, takes,
      unpulled, holds⟩
    · exact .inl ⟨unpulled, store holds⟩
    · exact .inr ⟨earlier, pull, later, c, whole, takes, unpulled, store holds⟩
  · exact fun pull => ⟨World.tree_step_of_pull pull, World.step_pull_ok_iff pull⟩
  · exact fun c takes memory => World.step_of_takes takes

end TypeCatalog
