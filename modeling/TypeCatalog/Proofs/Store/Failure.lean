import TypeCatalog.Proofs.Files.Failure
import TypeCatalog.Proofs.Store.Artifacts

/-! Registrations that fail. What is left is as it was, or the definition is that of the new
catalog already, and either way the same registration can be made again as if for the first time. -/
namespace TypeCatalog

def Tree.SameFile (t t' : Tree) (place : Place) : Prop :=
  ∀ content, t'.at? place = some (.file content) ↔ t.at? place = some (.file content)

theorem Store.pulled_congr {l : Locations} {t t' : Tree}
    (same : t.read l.definition = t'.read l.definition) : pulled l t = pulled l t' := by
  rw [pulled, pulled, Tree.readOptional, Tree.readOptional, same]

/-- A sync fails at the first of its writes or at the second. -/
theorem Store.sync_eq_error {s : Store} {t t' : Tree} {e : CatalogError}
    (failed : s.sync t = (.error e, t')) :
    (∃ e', t.writeText s.locations.definition s.catalog.definition = (.error e', t')) ∨
      ∃ u e', t.writeText s.locations.definition s.catalog.definition = (.ok (), u) ∧
        u.writeText s.locations.declarations s.catalog.declarations = (.error e', t') := by
  rw [sync_eq] at failed
  split at failed
  · rename_i first
    cases failed
    exact .inl ⟨_, first⟩
  · rename_i u first
    rcases second : u.writeText s.locations.declarations s.catalog.declarations with ⟨e' | _, v⟩
    · simp only [second] at failed
      cases failed
      exact .inr ⟨u, e', first, second⟩
    · simp [second, Except.mapError] at failed

namespace Call

variable {call : Call} {l : Locations} {t t' : Tree}

theorem register_eq_error {e : CatalogError}
    (failed : call.document.register call.name l t = (.error e, t')) :
    (Store.pulled l t = .error e ∧ t' = t) ∨ ∃ c, Store.pulled l t = .ok c ∧
      ((∃ e', t.writeText l.definition (call.enter c).definition = (.error e', t')) ∨
        ∃ u e', t.writeText l.definition (call.enter c).definition = (.ok (), u) ∧
          u.writeText l.declarations (call.enter c).declarations = (.error e', t')) := by
  rw [register_eq] at failed
  split at failed
  · rename_i unpulled
    cases failed
    exact .inl ⟨unpulled, rfl⟩
  · rename_i c pulls
    rcases synced : Store.sync ⟨l, call.enter c⟩ t with ⟨_ | _, u⟩
    · simp only [synced, Except.map] at failed
      cases failed
      have outcomes := Store.sync_eq_error synced
      exact .inr ⟨c, pulls, outcomes⟩
    · simp [synced, Except.map] at failed

theorem enter_enter (call : Call) (c : Catalog) : call.enter (call.enter c) = call.enter c :=
  c.insert_insert call.name call.text call.text

/-- When the definition cannot be written, there was none and there is none. -/
theorem pulled_of_unwritten {c c' : Catalog} {content : String} {e : FileError}
    (failed : t.writeText l.definition content = (.error e, t')) (pulls : Store.pulled l t = .ok c)
    (pulls' : Store.pulled l t' = .ok c') : c' = c := by
  obtain ⟨grows, unread⟩ := Tree.writeText_error failed
  have unread' : ∀ text, t.read l.definition ≠ .ok text :=
    fun text read => unread text (grows.within.read read)
  rw [Store.pulled_eq_empty unread pulls', Store.pulled_eq_empty unread' pulls]

/-- When the declarations cannot be written, the new definition is there. -/
theorem read_of_undeclared {u : Tree} {content content' : String} {e : FileError}
    (first : t.writeText l.definition content = (.ok (), u))
    (second : u.writeText l.declarations content' = (.error e, t')) :
    t'.read l.definition = .ok content := by
  obtain ⟨_, written⟩ := Tree.writeText_written first
  exact (Tree.writeText_error second).1.within.read written.read

/-- Of the files a failed call has changed none, or it has written the definition and no other. -/
theorem files_of_register_error {c : Catalog} {e : CatalogError}
    (failed : call.document.register call.name l t = (.error e, t'))
    (pulls : Store.pulled l t = .ok c) :
    (∀ place, t.SameFile t' place) ∧
        (∀ text, t'.read l.definition = .ok text ↔ t.read l.definition = .ok text) ∨
      ∃ place, t'.resolve l.definition = .ok place ∧
        t'.textAt? place = some (call.enter c).definition ∧
        ∀ other, other ≠ place → t.SameFile t' other := by
  rcases register_eq_error failed with ⟨unpulled, -⟩ | ⟨c', pulls', outcomes⟩
  · rw [pulls] at unpulled
    cases unpulled
  rw [pulls] at pulls'
  obtain rfl := Except.ok.inj pulls'
  rcases outcomes with ⟨_, first⟩ | ⟨u, _, first, second⟩
  · left
    obtain ⟨grows, unread⟩ := Tree.writeText_error first
    refine ⟨grows.file_iff, fun text => ⟨?_, grows.within.read⟩⟩
    exact fun read => absurd read (unread text)
  · right
    obtain ⟨place, written⟩ := Tree.writeText_written first
    have grows := (Tree.writeText_error second).1
    have resolved := Tree.resolve_keeps grows.within.keepsDirectories written.resolved
    refine ⟨place, resolved, Tree.textAt?_file (grows.within _ _ written.file), ?_⟩
    intro other ne content
    rw [grows.file_iff, written.file_iff ne]

/-- Pulled after a failed call or before it, a catalog is the same once the call is entered. -/
theorem enter_pulled_after_error {c' : Catalog} {e : CatalogError}
    (failed : call.document.register call.name l t = (.error e, t'))
    (pulls' : Store.pulled l t' = .ok c') :
    ∃ c, Store.pulled l t = .ok c ∧ call.enter c' = call.enter c := by
  rcases register_eq_error failed with ⟨unpulled, rfl⟩ | ⟨c, pulls, outcomes⟩
  · rw [unpulled] at pulls'
    cases pulls'
  rcases outcomes with ⟨_, first⟩ | ⟨u, _, first, second⟩
  · exact ⟨c, pulls, by rw [pulled_of_unwritten first pulls pulls']⟩
  -- The entry is in the definition by now, and entering it again changes nothing.
  · have read := read_of_undeclared first second
    have entered := Store.pulled_eq_ok_iff.mpr
      (.inr ⟨_, read, Catalog.ofDefinition_definition (call.enter c)⟩)
    rw [pulls'] at entered
    obtain rfl := Except.ok.inj entered
    exact ⟨c, pulls, call.enter_enter c⟩

/-- A call that succeeds leaves both artifacts as it has rendered them. -/
theorem reads_of_register_eq_ok {r : Registration}
    (done : call.document.register call.name l t = (.ok r, t'))
    (apart : t'.Apart l.definition l.declarations) :
    ∃ c, Store.pulled l t = .ok c ∧ t'.read l.definition = .ok (call.enter c).definition ∧
      t'.read l.declarations = .ok (call.enter c).declarations := by
  obtain ⟨c, u, pulls, -, first, second⟩ := register_eq_ok done
  obtain ⟨_, defined⟩ := Tree.writeText_written first
  obtain ⟨_, declared⟩ := Tree.writeText_written second
  exact ⟨c, pulls, declared.read_other defined.read apart, declared.read⟩

end Call

/-- A registration fails on a definition that cannot be pulled, and leaves all as it was. If it
fails later, every file is as it was, or every file but the definition, and that is then the whole
definition of the new catalog. Wherever the definition reads as it was left, the same registration,
once it succeeds, leaves the two artifacts that the first try was to leave. -/
theorem failed_registration_retried {d : Document} {name : String} {l : Locations} {t t' : Tree}
    {e : CatalogError} (failed : d.register name l t = (.error e, t')) :
    (∀ e', Store.pulled l t = .error e' → t' = t) ∧
    (∀ c, Store.pulled l t = .ok c →
      (∀ place, t.SameFile t' place) ∧
          (∀ text, t'.read l.definition = .ok text ↔ t.read l.definition = .ok text) ∨
        ∃ place, t'.resolve l.definition = .ok place ∧
          t'.textAt? place = some (Catalog.definition (c.insert name (d.interface name).source)) ∧
          ∀ other, other ≠ place → t.SameFile t' other) ∧
    ∀ (t₂ t₃ : Tree) (r : Registration), t₂.read l.definition = t'.read l.definition →
      d.register name l t₂ = (.ok r, t₃) → t₃.Apart l.definition l.declarations →
      ∃ c, Store.pulled l t = .ok c ∧
        t₃.read l.definition =
          .ok (Catalog.definition (c.insert name (d.interface name).source)) ∧
        t₃.read l.declarations =
          .ok (Catalog.declarations (c.insert name (d.interface name).source)) := by
  let call : Call := ⟨d, name⟩
  refine ⟨fun e' unpulled => ?_, fun c pulls => call.files_of_register_error failed pulls, ?_⟩
  · rcases call.register_eq_error failed with ⟨-, kept⟩ | ⟨c, pulls, -⟩
    · exact kept
    · rw [unpulled] at pulls
      cases pulls
  · intro t₂ t₃ r same done apart
    obtain ⟨c₂, pulls₂, defined, declared⟩ := call.reads_of_register_eq_ok done apart
    rw [Store.pulled_congr same] at pulls₂
    obtain ⟨c, pulls, entered⟩ := call.enter_pulled_after_error failed pulls₂
    rw [entered] at defined declared
    exact ⟨c, pulls, defined, declared⟩

/-- A directory is in the way of the declarations, so the definition alone gets written. With the
directory gone, the second try finds its own entry there and leaves what the first was to leave. -/
theorem registration_retried_without_directory :
    let c : Catalog := OrderedMap.insert ∅ "keep" "interface keep \x7b\n\x7d"
    let inTheWay := ((∅ : Tree).writeText ⟨"types.d.ts/notes"⟩ "").2
    let t := (inTheWay.writeText ⟨"def.json"⟩ c.definition).2
    let l : Locations := ⟨⟨"def.json"⟩, ⟨"types.d.ts"⟩⟩
    let d : Document := ⟨[]⟩
    let t' := (d.register "new" l t).2
    let t₂ := t'.without ["types.d.ts"]
    let t₃ := (d.register "new" l t₂).2
    let c' : Catalog := c.insert "new" (d.interface "new").source
    (∃ e, d.register "new" l t = (.error e, t')) ∧ t'.read l.definition = .ok c'.definition ∧
      (∃ r, d.register "new" l t₂ = (.ok r, t₃)) ∧
      t₃.read l.definition = .ok c'.definition ∧
      t₃.read l.declarations = .ok c'.declarations := by
  intro c inTheWay t l d t' t₂ t₃ c'
  obtain ⟨e, failed⟩ := Document.exists_error_of_toOption
    (show (d.register "new" l t).1.toOption = none by decide +kernel)
  have found : t.read l.definition = .ok c.definition := eq_ok_of_toOption (by decide +kernel)
  have pulled : Store.pulled l t = .ok c :=
    Store.pulled_eq_ok_iff.mpr (.inr ⟨_, found, Catalog.ofDefinition_definition c⟩)
  have left : t'.read l.definition = .ok c'.definition := eq_ok_of_toOption (by decide +kernel)
  have left₂ : t₂.read l.definition = .ok c'.definition := eq_ok_of_toOption (by decide +kernel)
  let r : Registration := ⟨"new", "interface new \x7b\n\x7d", .replaced, 2⟩
  have done : d.register "new" l t₂ = (.ok r, t₃) :=
    Document.register_of_toOption (by decide +kernel)
  have apart : t₃.Apart l.definition l.declarations := Tree.apart_of_ne (by decide +kernel)
  refine ⟨⟨e, failed⟩, left, ⟨_, done⟩, ?_⟩
  obtain ⟨c₀, pulls, defined, declared⟩ :=
    (failed_registration_retried failed).2.2 t₂ t₃ _ (left₂.trans left.symm) done apart
  rw [pulled] at pulls
  obtain rfl := Except.ok.inj pulls
  exact ⟨defined, declared⟩

end TypeCatalog
