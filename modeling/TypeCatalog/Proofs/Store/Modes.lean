import TypeCatalog.Proofs.Store.Memory

/-! Work in one go and work in steps, mixed along one run. Nobody can tell from what the operations
give, from the store or from the files which of them were done in steps. -/
namespace TypeCatalog

theorem Store.syncBy_eq (s : Store) (t : Tree) (mode : Mode) : s.syncBy t mode = s.sync t := by
  cases mode with
  | blocking => rfl
  | stepwise => exact s.outcome_syncing t

namespace Call

def registerBy (call : Call) (l : Locations) (t : Tree) :
    Mode → Except CatalogError Registration × Tree
  | .blocking => call.document.register call.name l t
  | .stepwise => (call.document.registering call.name l).run.outcome t

theorem registerBy_eq (call : Call) (l : Locations) (t : Tree) (mode : Mode) :
    call.registerBy l t mode = call.document.register call.name l t := by
  cases mode with
  | blocking => rfl
  | stepwise => exact call.document.outcome_registering call.name l t

end Call

/-- What can be asked for along a run. A registration has a store of its own, and leaves the one
at hand alone. -/
inductive Operation where
  | start (l : Locations)
  | attach (i : Interface)
  | pull
  | sync
  | register (call : Call) (l : Locations)

inductive Answer where
  | started
  | attached (outcome : Attached)
  | pulled (c : Catalog)
  | synced
  | registered (r : Registration)

namespace World

/-- One operation, in one go or in steps that nobody comes between. -/
def perform (w : World) (mode : Mode) : Operation → Except CatalogError Answer × World
  | .start l => (.ok .started, { w with store := .new l })
  | .attach i =>
    let (outcome, store) := w.store.attach i
    (.ok (.attached outcome), { w with store })
  | .pull =>
    let ((pulled, store), tree) := w.store.pullBy w.tree mode
    (pulled.map .pulled, ⟨store, tree⟩)
  | .sync =>
    let (synced, tree) := w.store.syncBy w.tree mode
    (synced.map fun _ => .synced, { w with tree })
  | .register call l =>
    let (done, tree) := call.registerBy l w.tree mode
    (done.map .registered, { w with tree })

/-- What is seen after each of the operations: what it gave, the store and the files. -/
def transcript (w : World) : List (Operation × Mode) → List (Except CatalogError Answer × World)
  | [] => []
  | (operation, mode) :: rest =>
    let seen := w.perform mode operation
    seen :: seen.2.transcript rest

/-- An operation gives the same in both modes, also where it fails halfway. -/
theorem perform_mode (w : World) (mode mode' : Mode) (operation : Operation) :
    w.perform mode operation = w.perform mode' operation := by
  cases operation with
  | start l => rfl
  | attach i => rfl
  | pull => simp only [perform, Store.pullBy_eq]
  | sync => simp only [perform, Store.syncBy_eq]
  | register call l => simp only [perform, Call.registerBy_eq]

/-- A run in which any of the operations are done in steps is seen as the one in which all of
them are done in one go: each gives the same result or the same error, and leaves the same store
and the same files. -/
theorem transcript_of_blocking (w : World) (steps : List (Operation × Mode)) :
    w.transcript (steps.map fun step => (step.1, .blocking)) = w.transcript steps := by
  induction steps generalizing w with
  | nil => rfl
  | cons step rest ih =>
    obtain ⟨operation, mode⟩ := step
    simp only [List.map_cons, transcript, w.perform_mode .blocking mode operation, ih]

end World

end TypeCatalog
