import TypeCatalog.Proofs.Files.Writing

/-! Writes that fail. They make directories at most, and they fail for good: what stopped them is
still there, so the path does not lead to a text that could be read. -/
namespace TypeCatalog.Tree

variable {t u : Tree} {p q : Path}

/-- A directory that is there is as good as a new one. -/
theorem ensureDirectory_of_directory {directory : Place} (resolved : t.resolve q = .ok directory)
    (there : t.at? directory = some .directory) : t.ensureDirectory q = .ok t := by
  have found : t.isDirectory q = true := by simp [isDirectory, resolved, there]
  have exists_already : t.makeDirectory q = .error .alreadyExists := by
    rcases spot_of_resolve resolved with ⟨spot, -⟩ | ⟨s, spot, rfl, short⟩
    · simp [makeDirectory, spot, bind, Except.bind, throw, throwThe, MonadExceptOf.throw]
    · simp [makeDirectory, spot, bind, Except.bind, short, there, throw, throwThe,
        MonadExceptOf.throw]
  simp [ensureDirectory, exists_already, found]

/-- One of the directories could not be made in the tree that is left. -/
theorem ensureDirectories_error {paths : List Path} {e : FileError}
    (failed : t.ensureDirectories paths = (.error e, u)) :
    ∃ q ∈ paths, ∃ e', u.ensureDirectory q = .error e' := by
  induction paths generalizing t with
  | nil => cases failed
  | cons p above ih =>
    unfold ensureDirectories at failed
    split at failed
    · cases failed
    · split at failed
      · rename_i around
        cases failed
        obtain ⟨q, member, e', stopped⟩ := ih around
        exact ⟨q, List.mem_cons_of_mem _ member, e', stopped⟩
      · split at failed
        · cases failed
        · rename_i stopped
          cases failed
          exact ⟨p, List.mem_cons_self, _, stopped⟩
    · rename_i stopped
      cases failed
      exact ⟨p, List.mem_cons_self, _, stopped⟩

/-- A file that can be reached can be written. -/
theorem write_of_file {place : Place} {content : ByteArray} (resolved : t.resolve p = .ok place)
    (file : t.at? place = some (.file content)) (noSlash : p.endsInSlash = false)
    (new : ByteArray) : ∃ t', t.write p new = .ok t' := by
  rcases spot_of_resolve resolved with ⟨-, there⟩ | ⟨s, spot, rfl, short⟩
  · rw [file] at there
    cases there
  · have noDirectory : t.at? s.place ≠ some .directory := by simp [file]
    refine ⟨t.set s (.file new) fun there => absurd there noDirectory, ?_⟩
    simp [write, spot, bind, Except.bind, noSlash, short, noDirectory, pure, Except.pure]

/-- A write that fails has found no text, and it leaves none. -/
theorem writeText_error {text : String} {e : FileError}
    (failed : t.writeText p text = (.error e, u)) :
    t.Grows u ∧ ∀ content, u.read p ≠ .ok content := by
  have grows := ensureDirectories_grows t p.ancestors
  unfold writeText at failed
  split at failed
  · rename_i stopped
    cases failed
    rw [stopped] at grows
    refine ⟨grows, fun content read => ?_⟩
    obtain ⟨place, resolved, -⟩ := read_eq_ok_iff.mp read
    obtain ⟨q, member, e', cannot⟩ := ensureDirectories_error stopped
    have above := Path.above_of_mem_ancestors member
    obtain ⟨directory, reached, there⟩ := resolve_above above resolved
    rw [ensureDirectory_of_directory reached there] at cannot
    cases cannot
  · rename_i v made
    rw [made] at grows
    split at failed
    · cases failed
    · rename_i cannot
      cases failed
      refine ⟨grows, fun content read => ?_⟩
      obtain ⟨place, resolved, file, noSlash⟩ := read_eq_ok_iff.mp read
      obtain ⟨bytes, there, -⟩ := textAt?_eq_some_iff.mp file
      obtain ⟨t', wrote⟩ := write_of_file resolved there noSlash text.toUTF8
      rw [wrote] at cannot
      cases cannot

end TypeCatalog.Tree
