import TypeCatalog.Proofs.Files.Failure

/-! A write as a whole. What it wrote is read back, what was there before stays, and all else that
is new are directories through which the path is spelt, however far the write got. -/
namespace TypeCatalog.Tree

variable {t t' u : Tree} {p : Path} {text : String}

/-- What a write to a path does beside the place of its file, or anywhere if there is no file. -/
structure Beside (t t' : Tree) (p : Path) (file? : Option Place) : Prop where
  kept : ∀ place entry, some place ≠ file? → t.at? place = some entry →
    t'.at? place = some entry
  made : ∀ place entry, some place ≠ file? → t.at? place = none → t'.at? place = some entry →
    entry = .directory ∧ ∃ q, q.Above p ∧ t'.resolve q = .ok place

theorem Confined.beside {files : List Path} {file? : Option Place}
    (confined : t.Confined t' files p.ancestors)
    (leads : ∀ q ∈ files, ∀ place, t'.resolve q = .ok place → some place = file?) :
    t.Beside t' p file? where
  kept place entry apart there := by
    cases confined place with
    | kept same => rw [same, there]
    | written member resolved _ _ => exact absurd (leads _ member place resolved) apart
    | made _ _ free _ =>
      rw [free] at there
      cases there
  made place entry apart free there := by
    cases confined place with
    | kept same =>
      rw [same, free] at there
      cases there
    | written member resolved _ _ => exact absurd (leads _ member place resolved) apart
    | made member resolved _ directory =>
      rw [directory] at there
      exact ⟨(Option.some.inj there).symm, _, Path.above_of_mem_ancestors member, resolved⟩

/-- A write that fails has written no file. -/
theorem writeText_error_confined {e : FileError} (failed : t.writeText p text = (.error e, u)) :
    t.Confined u [] p.ancestors := by
  have around := t.ensureDirectories_confined [] (List.Subset.refl p.ancestors)
  unfold writeText at failed
  split at failed
  · rename_i stopped
    rw [stopped] at around
    cases failed
    exact around
  · rename_i made
    rw [made] at around
    split at failed
    · cases failed
    · cases failed
      exact around

/-- A write that succeeds leaves a file that is read back as the text. It stands where the path
leads now, where no directory was. A write that fails leaves no file. In both cases all else that
was in the tree is as it was, and all else that is new are directories above the path. -/
theorem writeText_read_back (t : Tree) (p : Path) (text : String) :
    let t' := (t.writeText p text).2
    match (t.writeText p text).1 with
    | .ok () => t'.readOptional p = .ok (some text) ∧
        ∃ place, t'.resolve p = .ok place ∧ t'.at? place = some (.file text.toUTF8) ∧
          t.at? place ≠ some .directory ∧ t.Beside t' p (some place)
    | .error _ => t.Beside t' p none := by
  have confined := t.writeText_confined p text
  cases outcome : t.writeText p text with
  | mk result t' =>
    rw [outcome] at confined
    cases result with
    | ok =>
      obtain ⟨place, written⟩ := writeText_written outcome
      refine ⟨?_, place, written.resolved, written.file, written.noDirectory, ?_⟩
      · rw [readOptional, written.read]
        rfl
      · apply confined.beside
        intro q member other resolved
        obtain rfl := List.mem_singleton.mp member
        rw [written.resolved] at resolved
        rw [Except.ok.inj resolved]
    | error e => exact (writeText_error_confined outcome).beside nofun

end TypeCatalog.Tree
