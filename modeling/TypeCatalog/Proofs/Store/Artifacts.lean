import TypeCatalog.Proofs.Catalog.Definition
import TypeCatalog.Proofs.Except
import TypeCatalog.Proofs.Files.Writing
import TypeCatalog.Store.Basic

/-! The two artifacts of a catalog in a tree. What a sync leaves there is what the next pull takes
up, and a registration is one pull, one entry and one sync. -/
namespace TypeCatalog

structure Tree.Holds (t : Tree) (l : Locations) (c : Catalog) : Prop where
  definition : ∃ text, t.read l.definition = .ok text ∧ Catalog.ofDefinition text = .ok c
  declarations : t.read l.declarations = .ok c.declarations

/-- The artifacts may be those of two catalogs. -/
theorem Tree.holds_iff {t : Tree} {l : Locations} {defined declared c : Catalog}
    (definition : t.read l.definition = .ok defined.definition)
    (declarations : t.read l.declarations = .ok declared.declarations) :
    t.Holds l c ↔ c = defined ∧ declared.declarations = c.declarations := by
  constructor
  · rintro ⟨⟨text, read, decoded⟩, read'⟩
    rw [definition] at read
    obtain rfl := Except.ok.inj read
    rw [Catalog.ofDefinition_definition] at decoded
    rw [declarations] at read'
    exact ⟨(Except.ok.inj decoded).symm, Except.ok.inj read'⟩
  · rintro ⟨rfl, same⟩
    exact ⟨⟨_, definition, Catalog.ofDefinition_definition c⟩, by rw [declarations, same]⟩

theorem Tree.exists_holds_iff {t : Tree} {l : Locations} {defined declared : Catalog}
    (definition : t.read l.definition = .ok defined.definition)
    (declarations : t.read l.declarations = .ok declared.declarations) :
    (∃ c, t.Holds l c) ↔ declared.declarations = defined.declarations := by
  simp only [Tree.holds_iff definition declarations, exists_eq_left]

namespace Store

def pulled (l : Locations) (t : Tree) : Except CatalogError Catalog :=
  received l.definition (t.readOptional l.definition)

theorem pull_eq (s : Store) (t : Tree) :
    s.pull t = match pulled s.locations t with
      | .error e => (.error e, s)
      | .ok c => (.ok c, ⟨s.locations, c⟩) := rfl

theorem pulled_eq_ok_iff {l : Locations} {t : Tree} {c : Catalog} :
    pulled l t = .ok c ↔ (t.read l.definition = .error .notFound ∧ c = ∅) ∨
      ∃ text, t.read l.definition = .ok text ∧ Catalog.ofDefinition text = .ok c := by
  unfold pulled Tree.readOptional
  cases t.read l.definition with
  | ok text => cases decoded : Catalog.ofDefinition text <;>
      simp [FileError.orMissing, received, decoded, Except.mapError]
  | error e => cases e <;> simp [FileError.orMissing, received, eq_comm]

theorem pulled_of_holds {l : Locations} {t : Tree} {c : Catalog} (holds : t.Holds l c) :
    pulled l t = .ok c :=
  pulled_eq_ok_iff.mpr (.inr holds.definition)

/-- Where no text can be read, a pull that succeeds has found nothing. -/
theorem pulled_eq_empty {l : Locations} {t : Tree} {c : Catalog}
    (free : ∀ text, t.read l.definition ≠ .ok text) (pulls : pulled l t = .ok c) : c = ∅ := by
  rcases pulled_eq_ok_iff.mp pulls with ⟨-, empty⟩ | ⟨text, read, -⟩
  · exact empty
  · exact absurd read (free text)

/-- A sync ends with its first write that fails, and with the second at the latest. -/
theorem sync_eq (s : Store) (t : Tree) :
    s.sync t = match t.writeText s.locations.definition s.catalog.definition with
      | (.error e, u) => (.error (.io s.locations.definition e), u)
      | (.ok (), u) =>
        let (declared, v) := u.writeText s.locations.declarations s.catalog.declarations
        (declared.mapError (.io s.locations.declarations), v) := by
  obtain ⟨⟨definition, declarations⟩, c⟩ := s
  simp only [sync]
  rcases t.writeText definition c.definition with ⟨_ | _, u⟩
  · rfl
  · rcases declared : u.writeText declarations c.declarations with ⟨_ | _, v⟩ <;>
      simp only [declared] <;> rfl

theorem sync_eq_ok {s : Store} {t t' : Tree} (synced : s.sync t = (.ok (), t')) :
    ∃ u, t.writeText s.locations.definition s.catalog.definition = (.ok (), u) ∧
      u.writeText s.locations.declarations s.catalog.declarations = (.ok (), t') := by
  rw [sync_eq] at synced
  split at synced
  · cases synced
  · rename_i u first
    refine ⟨u, first, ?_⟩
    generalize u.writeText s.locations.declarations s.catalog.declarations = second at synced ⊢
    rcases second with ⟨_ | _, v⟩
    · cases synced
    · cases synced
      rfl

/-- A sync to paths that lead apart leaves both artifacts of its catalog. -/
theorem holds_of_writes {l : Locations} {c : Catalog} {t u t' : Tree}
    (first : t.writeText l.definition c.definition = (.ok (), u))
    (second : u.writeText l.declarations c.declarations = (.ok (), t'))
    (apart : t'.Apart l.definition l.declarations) : t'.Holds l c := by
  obtain ⟨_, defined⟩ := Tree.writeText_written first
  obtain ⟨_, declared⟩ := Tree.writeText_written second
  exact ⟨⟨_, declared.read_other defined.read apart, Catalog.ofDefinition_definition c⟩,
    declared.read⟩

end Store

structure Call where
  document : Document
  name : String

namespace Call

def interface (call : Call) : Interface := call.document.interface call.name

def text (call : Call) : String := call.interface.source

def enter (call : Call) (c : Catalog) : Catalog := (c.attach call.interface).2

theorem enter_eq (call : Call) (c : Catalog) : call.enter c = c.insert call.name call.text := rfl

/-- What a call tells that has entered itself into `c`. -/
def told (call : Call) (c : Catalog) : Registration :=
  ⟨call.name, call.text, (c.attach call.interface).1, (call.enter c).size⟩

/-- A registration pulls, and then it has nothing to do but a sync. -/
theorem register_eq (call : Call) (l : Locations) (t : Tree) :
    call.document.register call.name l t = match Store.pulled l t with
      | .error e => (.error e, t)
      | .ok c =>
        let (synced, t') := Store.sync ⟨l, call.enter c⟩ t
        (synced.map fun _ => call.told c, t') := by
  rw [Document.register, Store.pull_eq, Store.new]
  cases Store.pulled l t with
  | error e => rfl
  | ok c =>
    have enters : Store.attachDocument ⟨l, c⟩ call.document call.name =
        (call.told c, ⟨l, call.enter c⟩) := rfl
    simp only [enters]
    rcases Store.sync ⟨l, call.enter c⟩ t with ⟨_ | _, t'⟩ <;> rfl

/-- A registration that succeeds has written the catalog that it pulled, with its entry, to both
artifacts. -/
theorem register_eq_ok {call : Call} {l : Locations} {t t' : Tree} {r : Registration}
    (done : call.document.register call.name l t = (.ok r, t')) :
    ∃ c u, Store.pulled l t = .ok c ∧ r = call.told c ∧
      t.writeText l.definition (call.enter c).definition = (.ok (), u) ∧
      u.writeText l.declarations (call.enter c).declarations = (.ok (), t') := by
  rw [register_eq] at done
  split at done
  · cases done
  · rename_i c pulls
    rcases synced : Store.sync ⟨l, call.enter c⟩ t with ⟨_ | _, u⟩
    · simp [synced, Except.map] at done
    · simp only [synced, Except.map] at done
      cases done
      obtain ⟨u, first, second⟩ := Store.sync_eq_ok synced
      exact ⟨c, u, pulls, rfl, first, second⟩

theorem register_keepsDirectories {call : Call} {l : Locations} {t t' : Tree} {r : Registration}
    (done : call.document.register call.name l t = (.ok r, t')) : t.KeepsDirectories t' := by
  obtain ⟨_, u, -, -, first, second⟩ := call.register_eq_ok done
  obtain ⟨_, defined⟩ := Tree.writeText_written first
  obtain ⟨_, declared⟩ := Tree.writeText_written second
  exact defined.keepsDirectories.trans declared.keepsDirectories

end Call

/-- A registration that is seen to succeed when it is tried. -/
theorem Document.register_of_toOption {d : Document} {name : String} {l : Locations} {t : Tree}
    {r : Registration} (tried : (d.register name l t).1.toOption = some r) :
    d.register name l t = (.ok r, (d.register name l t).2) :=
  Prod.ext (eq_ok_of_toOption tried) rfl

/-- A registration that is seen to fail when it is tried. -/
theorem Document.exists_error_of_toOption {d : Document} {name : String} {l : Locations} {t : Tree}
    (tried : (d.register name l t).1.toOption = none) :
    ∃ e, d.register name l t = (.error e, (d.register name l t).2) := by
  obtain ⟨e, failed⟩ := TypeCatalog.exists_error_of_toOption tried
  exact ⟨e, Prod.ext failed rfl⟩

end TypeCatalog
