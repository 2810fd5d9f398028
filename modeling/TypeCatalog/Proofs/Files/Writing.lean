import TypeCatalog.Proofs.Files.Changes

/-! What reading and writing do to a tree. Making directories only adds to it, and a text that is
written changes one place: the one that its path leads to from then on. -/
namespace TypeCatalog.Tree

def textAt? (t : Tree) (place : Place) : Option String :=
  match t.at? place with
  | some (.file content) => String.fromUTF8? content
  | _ => none

theorem textAt?_file {t : Tree} {place : Place} {text : String}
    (file : t.at? place = some (.file text.toUTF8)) : t.textAt? place = some text := by
  simp [textAt?, file, String.fromUTF8?, String.fromUTF8, text.isValidUTF8]

theorem textAt?_eq_some_iff {t : Tree} {place : Place} {text : String} :
    t.textAt? place = some text ↔
      ∃ content, t.at? place = some (.file content) ∧ String.fromUTF8? content = some text := by
  unfold textAt?
  split <;> simp_all

theorem read_eq_ok_iff {t : Tree} {p : Path} {text : String} :
    t.read p = .ok text ↔ ∃ place, t.resolve p = .ok place ∧ t.textAt? place = some text ∧
      p.endsInSlash = false := by
  unfold read textAt?
  cases t.resolve p with
  | error e => simp [bind, Except.bind]
  | ok place =>
    simp only [bind, Except.bind, Except.ok.injEq, exists_eq_left']
    split <;> simp_all [throw, throwThe, MonadExceptOf.throw, pure, Except.pure]
    split <;> simp_all
    split <;> simp_all

/-- All that is in the first tree is in the second as it was. -/
def Within (t t' : Tree) : Prop :=
  ∀ place entry, t.at? place = some entry → t'.at? place = some entry

theorem Within.keepsDirectories {t t' : Tree} (within : t.Within t') : t.KeepsDirectories t' :=
  fun place there => within place .directory there

/-- Some places where nothing was have become directories, and that is all. -/
def Grows (t t' : Tree) : Prop :=
  ∀ place, t'.at? place = t.at? place ∨ t.at? place = none ∧ t'.at? place = some .directory

namespace Grows

variable {t u : Tree}

theorem within (grows : t.Grows u) : t.Within u := by
  intro place entry there
  rcases grows place with same | ⟨free, -⟩
  · rw [same, there]
  · rw [free] at there
    cases there

theorem file_iff (grows : t.Grows u) (place : Place) (content : ByteArray) :
    u.at? place = some (.file content) ↔ t.at? place = some (.file content) := by
  rcases grows place with same | ⟨free, made⟩
  · rw [same]
  · simp [free, made]

end Grows

theorem Confined.grows {t t' : Tree} {directories : List Path}
    (confined : t.Confined t' [] directories) : t.Grows t' := by
  intro place
  cases confined place with
  | kept same => exact .inl same
  | written member _ _ _ => cases member
  | made _ _ free there => exact .inr ⟨free, there⟩

/-- What could be read can still be read. -/
theorem Within.read {t t' : Tree} (within : t.Within t') {p : Path} {text : String}
    (read : t.read p = .ok text) : t'.read p = .ok text := by
  obtain ⟨place, resolved, file, noSlash⟩ := read_eq_ok_iff.mp read
  obtain ⟨content, there, decoded⟩ := textAt?_eq_some_iff.mp file
  have file' := textAt?_eq_some_iff.mpr ⟨content, within _ _ there, decoded⟩
  exact read_eq_ok_iff.mpr ⟨place, resolve_keeps within.keepsDirectories resolved, file', noSlash⟩

theorem ensureDirectories_grows (t : Tree) (paths : List Path) :
    t.Grows (t.ensureDirectories paths).2 :=
  (t.ensureDirectories_confined [] (List.Subset.refl paths)).grows

/-- What it means that a text has been written: the path leads to a file that holds the text,
no directory had to give way to it, all else that was there is as it was, and no other file is
new. -/
structure Written (t : Tree) (p : Path) (text : String) (place : Place) (t' : Tree) : Prop where
  resolved : t'.resolve p = .ok place
  file : t'.at? place = some (.file text.toUTF8)
  noSlash : p.endsInSlash = false
  noDirectory : t.at? place ≠ some .directory
  others : ∀ other entry, other ≠ place → t.at? other = some entry → t'.at? other = some entry
  noFiles : ∀ other content, other ≠ place → t'.at? other = some (.file content) →
    t.at? other = some (.file content)

theorem Written.keepsDirectories {t t' : Tree} {p : Path} {text : String} {place : Place}
    (written : Written t p text place t') : t.KeepsDirectories t' := by
  intro other there
  by_cases same : other = place
  · subst same
    exact absurd there written.noDirectory
  · exact written.others other .directory same there

theorem Written.file_iff {t t' : Tree} {p : Path} {text : String} {place : Place}
    (written : Written t p text place t') {other : Place} (ne : other ≠ place)
    (content : ByteArray) :
    t'.at? other = some (.file content) ↔ t.at? other = some (.file content) :=
  ⟨written.noFiles other content ne, written.others other _ ne⟩

theorem Written.read {t t' : Tree} {p : Path} {text : String} {place : Place}
    (written : Written t p text place t') : t'.read p = .ok text :=
  read_eq_ok_iff.mpr ⟨place, written.resolved, textAt?_file written.file, written.noSlash⟩

/-- A path that led somewhere before the text was written leads to the file now. -/
theorem Written.place_eq {t t' : Tree} {p : Path} {text : String} {place earlier : Place}
    (written : Written t p text place t') (resolved : t.resolve p = .ok earlier) :
    earlier = place := by
  have later := resolve_keeps written.keepsDirectories resolved
  rw [written.resolved] at later
  exact (Except.ok.inj later).symm

/-- The file of one path stays when a text is written to another that leads elsewhere. -/
theorem Written.read_other {t t' : Tree} {p q : Path} {text content : String} {place : Place}
    (written : Written t p text place t') (read : t.read q = .ok content)
    (apart : t'.Apart q p) : t'.read q = .ok content := by
  obtain ⟨elsewhere, resolved, file, noSlash⟩ := read_eq_ok_iff.mp read
  have resolved' := resolve_keeps written.keepsDirectories resolved
  have ne : elsewhere ≠ place := by
    rintro rfl
    exact apart elsewhere resolved' written.resolved
  obtain ⟨bytes, there, decoded⟩ := textAt?_eq_some_iff.mp file
  have file' := textAt?_eq_some_iff.mpr ⟨bytes, written.others elsewhere _ ne there, decoded⟩
  exact read_eq_ok_iff.mpr ⟨elsewhere, resolved', file', noSlash⟩

/-- Where nothing but this file and directories can have changed. -/
theorem Confined.written {t t' : Tree} {p : Path} {text : String} {place : Place}
    {directories : List Path} (confined : t.Confined t' [p] directories)
    (resolved : t'.resolve p = .ok place) (file : t'.at? place = some (.file text.toUTF8))
    (noSlash : p.endsInSlash = false) : Written t p text place t' := by
  have elsewhere {other : Place} (ne : other ≠ place) : ∀ q ∈ [p], t'.resolve q ≠ .ok other := by
    intro q member resolved'
    rw [List.mem_singleton.mp member, resolved] at resolved'
    exact ne (Except.ok.inj resolved').symm
  refine ⟨resolved, file, noSlash, ?_, ?_, ?_⟩
  · intro there
    have stays := confined.keepsDirectories place there
    rw [file] at stays
    cases stays
  · intro other entry ne there
    cases confined other with
    | kept same => rw [same, there]
    | written member resolved' _ _ => exact absurd resolved' (elsewhere ne _ member)
    | made _ _ free _ => simp [free] at there
  · intro other content ne there
    cases confined other with
    | kept same => rw [← same, there]
    | written member resolved' _ _ => exact absurd resolved' (elsewhere ne _ member)
    | made _ _ _ made => simp [made] at there

theorem writeText_written {t t' : Tree} {p : Path} {text : String}
    (done : t.writeText p text = (.ok (), t')) : ∃ place, Written t p text place t' := by
  have confined := t.writeText_confined p text
  rw [done] at confined
  unfold writeText at done
  split at done
  · cases done
  · split at done
    · rename_i wrote
      cases done
      obtain ⟨s, noDirectory, spot, short, noSlash, rfl⟩ := write_eq_ok wrote
      have resolved := resolve_set spot short noDirectory (.file text.toUTF8)
        fun there => absurd there noDirectory
      exact ⟨s.place, confined.written resolved (by rw [at?_set, if_pos rfl]) noSlash⟩
    · cases done

/-- Directories stay whether a text gets written or not. -/
theorem writeText_keepsDirectories (t : Tree) (p : Path) (text : String) :
    t.KeepsDirectories (t.writeText p text).2 :=
  (t.writeText_confined p text).keepsDirectories

end TypeCatalog.Tree
