import TypeCatalog.Proofs.Files.Failure

/-! Writes of what is there already. The directories on the way are there as well, so nothing at
all changes. -/
namespace TypeCatalog.Tree

variable {t t' : Tree} {p q : Path} {text content : String} {place other : Place}

structure Stored (t : Tree) (p : Path) (text : String) (place : Place) : Prop where
  resolved : t.resolve p = .ok place
  file : t.at? place = some (.file text.toUTF8)
  noSlash : p.endsInSlash = false

theorem Written.stored (written : Written t p text place t') : Stored t' p text place :=
  ⟨written.resolved, written.file, written.noSlash⟩

/-- A file stays when a text is written to another one. -/
theorem Stored.written_other (stored : Stored t q content other)
    (written : Written t p text place t') (ne : other ≠ place) : Stored t' q content other :=
  ⟨resolve_keeps written.keepsDirectories stored.resolved, written.others other _ ne stored.file,
    stored.noSlash⟩

theorem Stored.read (stored : Stored t p text place) : t.read p = .ok text :=
  read_eq_ok_iff.mpr ⟨place, stored.resolved, textAt?_file stored.file, stored.noSlash⟩

theorem ensureDirectories_of_directories {paths : List Path}
    (there : ∀ q ∈ paths, ∃ directory, t.resolve q = .ok directory ∧
      t.at? directory = some .directory) : t.ensureDirectories paths = (.ok (), t) := by
  cases paths with
  | nil => rfl
  | cons q above =>
    obtain ⟨directory, resolved, isDirectory⟩ := there q List.mem_cons_self
    rw [ensureDirectories, ensureDirectory_of_directory resolved isDirectory]

theorem eq_of_entries (same : t.entries = t'.entries) : t = t' := by
  cases t
  cases t'
  cases same
  rfl

theorem set_of_at? {s : Spot t} {entry : Entry} (there : t.at? s.place = some entry)
    (keeps : t.at? s.place = some .directory → entry = .directory) : t.set s entry keeps = t := by
  have filled : s.place ≠ [] := by simp [Spot.place]
  have found : t.entries.get? s.place = some entry := by
    simpa [at?, Entry.find, filled] using there
  exact eq_of_entries (OrderedMap.insert_of_get? found)

theorem Stored.write (stored : Stored t p text place) : t.write p text.toUTF8 = .ok t := by
  obtain ⟨resolved, file, noSlash⟩ := stored
  rcases spot_of_resolve resolved with ⟨-, there⟩ | ⟨s, spot, rfl, short⟩
  · rw [file] at there
    cases there
  · have noDirectory : t.at? s.place ≠ some .directory := by simp [file]
    have kept := set_of_at? file fun there => absurd there noDirectory
    simpa [Tree.write, spot, bind, Except.bind, noSlash, short, noDirectory, pure, Except.pure]
      using kept

/-- What is in a file already can be written to it and changes nothing. -/
theorem Stored.writeText (stored : Stored t p text place) : t.writeText p text = (.ok (), t) := by
  have around : t.ensureDirectories p.ancestors = (.ok (), t) :=
    ensureDirectories_of_directories fun q member =>
      resolve_above (Path.above_of_mem_ancestors member) stored.resolved
  rw [Tree.writeText, around]
  simp only [stored.write]

end TypeCatalog.Tree
