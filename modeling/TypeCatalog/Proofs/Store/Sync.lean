import TypeCatalog.Proofs.Files.Repetition
import TypeCatalog.Proofs.Store.Artifacts

/-! What a sync leaves in the tree: both artifacts of its catalog, from which another store takes
up the same catalog, and all else as it was. The same sync once more finds nothing to do. -/
namespace TypeCatalog

namespace Store

variable {s : Store} {t u t' : Tree}

theorem sync_of_writes
    (first : t.writeText s.locations.definition s.catalog.definition = (.ok (), u))
    (second : u.writeText s.locations.declarations s.catalog.declarations = (.ok (), t')) :
    s.sync t = (.ok (), t') := by
  simp only [sync, first, second]

/-- Both artifacts in files of their own, and nothing else touched. -/
structure Leaves (s : Store) (t t' : Tree) (definition declarations : Place) : Prop where
  defined : Tree.Stored t' s.locations.definition s.catalog.definition definition
  declared : Tree.Stored t' s.locations.declarations s.catalog.declarations declarations
  others : ∀ place entry, place ≠ definition → place ≠ declarations →
    t.at? place = some entry → t'.at? place = some entry

theorem sync_leaves (synced : s.sync t = (.ok (), t'))
    (apart : t'.Apart s.locations.definition s.locations.declarations) :
    ∃ definition declarations, s.Leaves t t' definition declarations := by
  obtain ⟨u, first, second⟩ := sync_eq_ok synced
  obtain ⟨definition, defined⟩ := Tree.writeText_written first
  obtain ⟨declarations, declared⟩ := Tree.writeText_written second
  have ne : definition ≠ declarations := by
    rintro rfl
    have later := Tree.resolve_keeps declared.keepsDirectories defined.resolved
    exact apart definition later declared.resolved
  refine ⟨definition, declarations, {
    defined := defined.stored.written_other declared ne
    declared := declared.stored
    others := fun place entry ne ne' there => ?_ }⟩
  exact declared.others place entry ne' (defined.others place entry ne there)

/-- A sync that finds its own artifacts leaves the tree as it is. -/
theorem Leaves.sync {definition declarations : Place}
    (leaves : s.Leaves t t' definition declarations) : s.sync t' = (.ok (), t') :=
  sync_of_writes leaves.defined.writeText leaves.declared.writeText

theorem Leaves.isSome {definition declarations place : Place}
    (leaves : s.Leaves t t' definition declarations) (there : (t.at? place).isSome) :
    (t'.at? place).isSome := by
  obtain ⟨entry, there⟩ := Option.isSome_iff_exists.mp there
  by_cases first : place = definition
  · rw [first, leaves.defined.file]
    rfl
  · by_cases second : place = declarations
    · rw [second, leaves.declared.file]
      rfl
    · rw [leaves.others place entry first second there]
      rfl

/-- A sync that is seen to succeed when it is tried. -/
theorem sync_of_toOption (tried : (s.sync t).1.toOption = some ()) :
    s.sync t = (.ok (), (s.sync t).2) :=
  Prod.ext (eq_ok_of_toOption tried) rfl

end Store

/-- After a sync to paths that lead to different files a new store takes up the same catalog,
entry by entry, and the declarations are those of the catalog. Nothing is gone from the tree, and
what stands elsewhere is as it was. A second sync succeeds and changes nothing. -/
theorem sync_round_trip {s : Store} {t t' : Tree} (synced : s.sync t = (.ok (), t'))
    (apart : t'.Apart s.locations.definition s.locations.declarations) :
    (Store.new s.locations).pull t' = (.ok s.catalog, s) ∧
      t'.read s.locations.declarations = .ok s.catalog.declarations ∧
      (∀ place entry, t'.resolve s.locations.definition ≠ .ok place →
        t'.resolve s.locations.declarations ≠ .ok place →
          t.at? place = some entry → t'.at? place = some entry) ∧
      (∀ place, (t.at? place).isSome → (t'.at? place).isSome) ∧
      s.sync t' = (.ok (), t') := by
  obtain ⟨definition, declarations, leaves⟩ := Store.sync_leaves synced apart
  have held : t'.Holds s.locations s.catalog :=
    ⟨⟨_, leaves.defined.read, Catalog.ofDefinition_definition _⟩, leaves.declared.read⟩
  refine ⟨?_, held.declarations, ?_, fun place => leaves.isSome, leaves.sync⟩
  · rw [Store.pull_eq, Store.new, Store.pulled_of_holds held]
  · intro place entry ne ne'
    apply leaves.others place entry
    · rintro rfl
      exact ne leaves.defined.resolved
    · rintro rfl
      exact ne' leaves.declared.resolved

/-- The definition is reached over a directory that has to be made first and lies beside the old
declarations, which are longer than the new ones. -/
theorem sync_round_trip_in_old_tree :
    let c : Catalog := ⟨[("b", "interface b \x7b\n\x7d"), ("", "[]\u2028")], by decide⟩
    let s : Store := ⟨⟨⟨"gen/new/../def.json"⟩, ⟨"./gen/types.d.ts"⟩⟩, c⟩
    let old := String.ofList (List.replicate 200 'x')
    let t := (((∅ : Tree).writeText ⟨"gen/types.d.ts"⟩ old).2.writeText ⟨"notes"⟩ "keep").2
    let t' := (s.sync t).2
    s.sync t = (.ok (), t') ∧ t'.Apart s.locations.definition s.locations.declarations ∧
      (Store.new s.locations).pull t' = (.ok c, s) ∧ s.sync t' = (.ok (), t') := by
  intro c s old t t'
  have synced : s.sync t = (.ok (), t') := Store.sync_of_toOption (by decide +kernel)
  have apart : t'.Apart s.locations.definition s.locations.declarations :=
    Tree.apart_of_ne (by decide +kernel)
  obtain ⟨pulled, -, -, -, again⟩ := sync_round_trip synced apart
  exact ⟨synced, apart, pulled, again⟩

end TypeCatalog
