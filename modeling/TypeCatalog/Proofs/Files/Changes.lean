import TypeCatalog.Proofs.Files.Walk

/-! What may be different after work on files. A place changes only if a path leads there to which
a text is written, and a directory is new only where a path leads at which directories are made. -/
namespace TypeCatalog.Tree

/-- What became of a place of the first tree in the second, if texts are written to `files` and
directories are made at `directories`. -/
inductive Change (t t' : Tree) (files directories : List Path) (place : Place) : Prop where
  | kept : t'.at? place = t.at? place → Change t t' files directories place
  | written {p : Path} {content : ByteArray} : p ∈ files → t'.resolve p = .ok place →
      t.at? place ≠ some .directory → t'.at? place = some (.file content) →
        Change t t' files directories place
  | made {q : Path} : q ∈ directories → t'.resolve q = .ok place → t.at? place = none →
      t'.at? place = some .directory → Change t t' files directories place

/-- All places are as they were, but for what has been written and made. -/
def Confined (t t' : Tree) (files directories : List Path) : Prop :=
  ∀ place, Change t t' files directories place

variable {t u t' : Tree} {files directories : List Path} {place : Place}

namespace Confined

theorem refl (t : Tree) (files directories : List Path) : t.Confined t files directories :=
  fun _ => .kept rfl

theorem keepsDirectories (confined : t.Confined t' files directories) : t.KeepsDirectories t' := by
  intro place there
  cases confined place with
  | kept same => rw [same, there]
  | written _ _ noDirectory _ => exact absurd there noDirectory
  | made _ _ free _ => simp [free] at there

/-- Paths still lead in the end to where they led on the way. -/
theorem trans (first : t.Confined u files directories) (second : u.Confined t' files directories) :
    t.Confined t' files directories := by
  have keeps := second.keepsDirectories
  intro place
  cases second place with
  | kept same =>
    cases first place with
    | kept same' => exact .kept (same.trans same')
    | written member resolved noDirectory file =>
      exact .written member (resolve_keeps keeps resolved) noDirectory (same.trans file)
    | made member resolved free there =>
      exact .made member (resolve_keeps keeps resolved) free (same.trans there)
  | written member resolved noDirectory file =>
    have noDirectory' : t.at? place ≠ some .directory :=
      fun there => noDirectory (first.keepsDirectories place there)
    exact .written member resolved noDirectory' file
  | made member resolved free there =>
    cases first place with
    | kept same => exact .made member resolved (same ▸ free) there
    | written _ _ _ file => simp [free] at file
    | made _ _ _ there' => simp [free] at there'

theorem mono {files' directories' : List Path} (confined : t.Confined t' files directories)
    (fewer : files ⊆ files') (fewer' : directories ⊆ directories') :
    t.Confined t' files' directories' := by
  intro place
  cases confined place with
  | kept same => exact .kept same
  | written member resolved noDirectory file =>
    exact .written (fewer member) resolved noDirectory file
  | made member resolved free there => exact .made (fewer' member) resolved free there

theorem file (confined : t.Confined t' files directories) {content : ByteArray}
    (there : t.at? place = some (.file content)) (other : ∀ p ∈ files, t'.resolve p ≠ .ok place) :
    t'.at? place = some (.file content) := by
  cases confined place with
  | kept same => rw [same, there]
  | written member resolved _ _ => exact absurd resolved (other _ member)
  | made _ _ free _ => simp [free] at there

theorem isSome (confined : t.Confined t' files directories) (there : (t.at? place).isSome) :
    (t'.at? place).isSome := by
  cases confined place with
  | kept same => rwa [same]
  | written _ _ _ file => simp [file]
  | made _ _ _ there' => simp [there']

theorem exists_directory (confined : t.Confined t' files directories)
    (new : t.at? place ≠ some .directory) (there : t'.at? place = some .directory) :
    ∃ q ∈ directories, t'.resolve q = .ok place := by
  cases confined place with
  | kept same => exact absurd (same.symm.trans there) new
  | written _ _ _ file => simp [file] at there
  | made member resolved _ _ => exact ⟨_, member, resolved⟩

end Confined

/-- A directory is made where the path leads, and only where nothing is. -/
theorem makeDirectory_eq_ok {p : Path} (made : t.makeDirectory p = .ok t') :
    ∃ s : Spot t, t.spot p = .ok (some s) ∧ isTooLong s.name = false ∧ t.at? s.place = none ∧
      t' = t.set s .directory fun _ => rfl := by
  unfold makeDirectory at made
  cases spot : t.spot p with
  | error e => simp [spot, bind, Except.bind] at made
  | ok s? =>
    cases s? with
    | none => simp [spot, bind, Except.bind, throw, throwThe, MonadExceptOf.throw] at made
    | some s =>
      simp only [spot, bind, Except.bind] at made
      split at made
      · cases made
      · rename_i short
        split at made
        · cases made
        · rename_i free
          cases made
          exact ⟨s, rfl, by simpa using short, by simpa using free, rfl⟩

/-- A directory that is there already changes nothing. -/
theorem ensureDirectory_eq_ok {p : Path} (made : t.ensureDirectory p = .ok t') :
    t' = t ∨ t.makeDirectory p = .ok t' := by
  unfold ensureDirectory at made
  split at made
  · split at made
    · cases made
      exact .inl rfl
    · cases made
  · exact .inr made

/-- A file is written where the path leads, unless there is a directory. -/
theorem write_eq_ok {p : Path} {content : ByteArray}
    (done : t.write p content = .ok t') :
    ∃ (s : Spot t) (noDirectory : t.at? s.place ≠ some .directory), t.spot p = .ok (some s) ∧
      isTooLong s.name = false ∧ p.endsInSlash = false ∧
      t' = t.set s (.file content) fun there => absurd there noDirectory := by
  unfold write at done
  cases spot : t.spot p with
  | error e => simp [spot, bind, Except.bind] at done
  | ok s? =>
    cases s? with
    | none => simp [spot, bind, Except.bind, throw, throwThe, MonadExceptOf.throw] at done
    | some s =>
      simp only [spot, bind, Except.bind] at done
      split at done
      · cases done
      · rename_i noSlash
        split at done
        · cases done
        · rename_i short
          split at done
          · cases done
          · rename_i noDirectory
            cases done
            exact ⟨s, noDirectory, rfl, by simpa using short, by simpa using noSlash, rfl⟩

/-- The walk to what is new goes through directories that were there. -/
theorem resolve_set {p : Path} {s : Spot t} (spot : t.spot p = .ok (some s))
    (short : isTooLong s.name = false) (noDirectory : t.at? s.place ≠ some .directory)
    (entry : Entry) (keeps : t.at? s.place = some .directory → entry = .directory) :
    (t.set s entry keeps).resolve p = .ok s.place := by
  apply resolve_keeps _ (resolve_of_spot spot short)
  intro place there
  have ne : place ≠ s.place := by
    rintro rfl
    exact noDirectory there
  rw [at?_set, if_neg ne, there]

theorem confined_set {s : Spot t} {entry : Entry}
    {keeps : t.at? s.place = some .directory → entry = .directory}
    (change : Change t (t.set s entry keeps) files directories s.place) :
    t.Confined (t.set s entry keeps) files directories := by
  intro place
  by_cases same : place = s.place
  · exact same ▸ change
  · exact .kept (by rw [at?_set, if_neg same])

theorem makeDirectory_confined {p : Path} (member : p ∈ directories)
    (made : t.makeDirectory p = .ok t') : t.Confined t' files directories := by
  obtain ⟨s, spot, short, free, rfl⟩ := makeDirectory_eq_ok made
  have resolved := resolve_set spot short (by simp [free]) .directory fun _ => rfl
  exact confined_set (.made member resolved free (by rw [at?_set, if_pos rfl]))

theorem write_confined {p : Path} {content : ByteArray} (member : p ∈ files)
    (done : t.write p content = .ok t') : t.Confined t' files directories := by
  obtain ⟨s, noDirectory, spot, short, -, rfl⟩ := write_eq_ok done
  have resolved := resolve_set spot short noDirectory (.file content)
    fun there => absurd there noDirectory
  exact confined_set (.written member resolved noDirectory (by rw [at?_set, if_pos rfl]))

/-- What has been made stays when the rest fails. -/
theorem ensureDirectories_confined (t : Tree) (files : List Path)
    {paths directories : List Path} (subset : paths ⊆ directories) :
    t.Confined (t.ensureDirectories paths).2 files directories := by
  have ensured {t t' : Tree} {p : Path} (member : p ∈ directories)
      (made : t.ensureDirectory p = .ok t') : t.Confined t' files directories := by
    rcases ensureDirectory_eq_ok made with rfl | made
    · exact .refl t' files directories
    · exact makeDirectory_confined member made
  induction paths with
  | nil => exact .refl t files directories
  | cons p above ih =>
    obtain ⟨member, others⟩ := List.cons_subset.mp subset
    have around := ih others
    unfold ensureDirectories
    split
    · rename_i made
      exact ensured member made
    · split
      · rename_i failed
        rwa [failed] at around
      · rename_i u there
        rw [there] at around
        split
        · rename_i made
          exact around.trans (ensured member made)
        · exact around
    · exact .refl t files directories

/-- A write that fails may have made directories all the same. -/
theorem writeText_confined (t : Tree) (p : Path) (text : String) :
    t.Confined (t.writeText p text).2 [p] p.ancestors := by
  have around := t.ensureDirectories_confined [p] (List.Subset.refl p.ancestors)
  unfold writeText
  split
  · rename_i made
    rwa [made] at around
  · rename_i u made
    rw [made] at around
    split
    · rename_i wrote
      exact around.trans (write_confined List.mem_cons_self wrote)
    · exact around

end TypeCatalog.Tree
