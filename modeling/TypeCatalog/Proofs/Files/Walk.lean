import TypeCatalog.Files.Tree
import TypeCatalog.Proofs.Files.Path
import TypeCatalog.Proofs.OrderedMap

/-! Where a path leads. A walk looks at directories only, so it ends at the same place in every
tree that has these directories, whatever else has been written since. -/
namespace TypeCatalog.Tree

/-- The directories of the first tree are directories of the second. -/
def KeepsDirectories (t t' : Tree) : Prop :=
  ∀ place, t.at? place = some .directory → t'.at? place = some .directory

theorem KeepsDirectories.refl (t : Tree) : t.KeepsDirectories t := fun _ there => there

theorem KeepsDirectories.trans {t u v : Tree} (first : t.KeepsDirectories u)
    (second : u.KeepsDirectories v) : t.KeepsDirectories v :=
  fun place there => second place (first place there)

theorem enter_eq_ok_iff {t : Tree} {place : Place} :
    t.enter place = .ok () ↔ t.at? place = some .directory := by
  unfold enter
  split <;> simp_all

theorem step_eq_ok {t : Tree} {place next : Place} {part : String}
    (step : t.step place part = .ok next) : t.at? place = some .directory := by
  rw [← enter_eq_ok_iff]
  cases entered : t.enter place with
  | ok => rfl
  | error e => simp [Tree.step, entered, bind, Except.bind] at step

theorem step_congr {t t' : Tree} {place : Place} (there : t.at? place = some .directory)
    (there' : t'.at? place = some .directory) (part : String) :
    t'.step place part = t.step place part := by
  simp [step, enter_eq_ok_iff.mpr there, enter_eq_ok_iff.mpr there']

/-- One part further on; the place itself need not be there. -/
theorem step_name {t : Tree} {place : Place} {name : String}
    (there : t.at? place = some .directory) (notHere : name ≠ ".") (notUp : name ≠ "..")
    (short : isTooLong name = false) : t.step place name = .ok (place ++ [name]) := by
  simp [step, enter_eq_ok_iff.mpr there, bind, Except.bind, notHere, notUp, short, pure,
    Except.pure]

theorem foldlM_step_keeps {t t' : Tree} (keeps : t.KeepsDirectories t') {parts : List String}
    {start place : Place} (walked : parts.foldlM t.step start = .ok place) :
    parts.foldlM t'.step start = .ok place := by
  induction parts generalizing start with
  | nil => exact walked
  | cons part parts ih =>
    rw [List.foldlM_cons] at walked ⊢
    cases step : t.step start part with
    | error e => simp [step, bind, Except.bind] at walked
    | ok next =>
      have there := step_eq_ok step
      rw [step] at walked
      rw [step_congr there (keeps start there), step]
      exact ih walked

theorem resolve_keeps {t t' : Tree} (keeps : t.KeepsDirectories t') {p : Path} {place : Place}
    (resolved : t.resolve p = .ok place) : t'.resolve p = .ok place := by
  unfold resolve at resolved ⊢
  cases parts : Tree.parts p with
  | error e => simp [parts, bind, Except.bind] at resolved
  | ok names =>
    rw [parts] at resolved
    exact foldlM_step_keeps keeps resolved

/-- The two paths do not lead to one place. -/
def Apart (t : Tree) (p q : Path) : Prop :=
  ∀ place, t.resolve p = .ok place → t.resolve q ≠ .ok place

theorem apart_of_ne {t : Tree} {p q : Path} (ne : t.resolve p ≠ t.resolve q) : t.Apart p q :=
  fun _ resolved resolved' => ne (resolved.trans resolved'.symm)

theorem Apart.symm {t : Tree} {p q : Path} (apart : t.Apart p q) : t.Apart q p :=
  fun place resolved resolved' => apart place resolved' resolved

/-- Paths that lead apart have never led to one place. -/
theorem Apart.earlier {t t' : Tree} {p q : Path} (apart : t'.Apart p q)
    (keeps : t.KeepsDirectories t') : t.Apart p q :=
  fun place resolved resolved' =>
    apart place (resolve_keeps keeps resolved) (resolve_keeps keeps resolved')

/-- A spot lies behind all parts of the path but the last, which is a name. -/
theorem spot_eq_some {t : Tree} {p : Path} {s : Spot t} (spot : t.spot p = .ok (some s)) :
    ∃ names, Tree.parts p = .ok names ∧ t.walk names.dropLast = .ok s.directory ∧
      names.getLast? = some s.name ∧ s.name ≠ "." ∧ s.name ≠ ".." := by
  unfold Tree.spot at spot
  cases parts : Tree.parts p with
  | error e => simp [parts, bind, Except.bind] at spot
  | ok names =>
    cases walked : t.walk names.dropLast with
    | error e => simp [parts, walked, bind, Except.bind] at spot
    | ok directory =>
      simp only [parts, walked, bind, Except.bind] at spot
      split at spot
      · cases spot
      · cases spot
      · split at spot
        · cases spot
        · rename_i name last
          split at spot
          · cases spot
          · rename_i plain
            obtain rfl := Option.some.inj (Except.ok.inj spot)
            exact ⟨names, rfl, walked, last, not_or.mp plain⟩

theorem resolve_of_spot {t : Tree} {p : Path} {s : Spot t} (spot : t.spot p = .ok (some s))
    (short : isTooLong s.name = false) : t.resolve p = .ok s.place := by
  obtain ⟨names, parts, walked, last, notHere, notUp⟩ := spot_eq_some spot
  obtain ⟨front, rfl⟩ := List.getLast?_eq_some_iff.mp last
  rw [List.dropLast_concat, walk] at walked
  simp [resolve, parts, walk, bind, Except.bind, walked,
    step_name s.isThere notHere notUp short, Spot.place, pure, Except.pure]

/-- What stands in a tree stands in a directory. -/
theorem at?_dropLast {t : Tree} {place : Place} {entry : Entry}
    (there : t.at? place = some entry) : t.at? place.dropLast = some .directory := by
  by_cases root : place = []
  · subst root
    rfl
  · simp only [at?, Entry.find, if_neg root] at there
    exact (t.placed place (OrderedMap.mem_keys_of_get? there)).2

theorem resolve_eq_ok_iff {t : Tree} {p : Path} {place : Place} :
    t.resolve p = .ok place ↔ ∃ names, Tree.parts p = .ok names ∧ t.walk names = .ok place := by
  unfold resolve
  cases Tree.parts p <;> simp [bind, Except.bind]

theorem walk_append {t : Tree} {front back : List String} {place : Place}
    (walked : t.walk (front ++ back) = .ok place) :
    ∃ middle, t.walk front = .ok middle ∧ back.foldlM t.step middle = .ok place := by
  rw [walk, List.foldlM_append] at walked
  cases first : front.foldlM t.step [] with
  | error e => simp [first, bind, Except.bind] at walked
  | ok middle =>
    rw [first] at walked
    exact ⟨middle, first, walked⟩

theorem parts_of_above {p q : Path} (above : q.Above p) {names : List String}
    (parts : Tree.parts p = .ok names) : Tree.parts q = .ok q.segments ∧ names = p.segments := by
  obtain ⟨more, whole⟩ := above.spelling
  have text : p.text = q.text ++ String.ofList more := by
    rw [← String.toList_inj]
    simp [whole]
  have longer : p.text.utf8ByteSize = q.text.utf8ByteSize + (String.ofList more).utf8ByteSize := by
    rw [text, String.utf8ByteSize_append]
  unfold Tree.parts at parts
  split at parts
  · cases parts
  · rename_i noNul
    split at parts
    · cases parts
    · split at parts
      · cases parts
      · rename_i short
        cases parts
        have noNul' : '\x00' ∉ q.text.toList := by
          intro member
          apply noNul
          rw [← whole]
          exact List.mem_append_left _ member
        have short' : ¬4096 ≤ q.text.utf8ByteSize := by omega
        have filled : q.text.isEmpty = false := by simpa [String.isEmpty_iff] using above.filled
        exact ⟨by simp [Tree.parts, noNul', filled, short'], rfl⟩

/-- The directories above a path that leads somewhere are all there. -/
theorem resolve_above {t : Tree} {p q : Path} {place : Place} (above : q.Above p)
    (resolved : t.resolve p = .ok place) :
    ∃ directory, t.resolve q = .ok directory ∧ t.at? directory = some .directory := by
  obtain ⟨names, parts, walked⟩ := resolve_eq_ok_iff.mp resolved
  obtain ⟨parts', rfl⟩ := parts_of_above above parts
  obtain ⟨rest, more, split⟩ := above.parts
  rw [split] at walked
  obtain ⟨directory, first, further⟩ := walk_append walked
  refine ⟨directory, resolve_eq_ok_iff.mpr ⟨_, parts', first⟩, ?_⟩
  cases rest with
  | nil => exact absurd rfl more
  | cons part rest =>
    rw [List.foldlM_cons] at further
    cases step : t.step directory part with
    | error e => simp [step, bind, Except.bind] at further
    | ok next => exact step_eq_ok step

/-- One part further on, by the three kinds of parts. -/
theorem step_cases {t : Tree} {place next : Place} {part : String}
    (step : t.step place part = .ok next) :
    (part = "." ∧ next = place) ∨ (part = ".." ∧ next = place.dropLast) ∨
      (part ≠ "." ∧ part ≠ ".." ∧ isTooLong part = false ∧ next = place ++ [part]) := by
  have there := step_eq_ok step
  simp only [Tree.step, enter_eq_ok_iff.mpr there, bind, Except.bind] at step
  split at step
  · rename_i here
    cases step
    exact .inl ⟨here, rfl⟩
  · rename_i notHere
    split at step
    · rename_i up
      cases step
      exact .inr (.inl ⟨up, rfl⟩)
    · rename_i notUp
      split at step
      · cases step
      · rename_i short
        cases step
        exact .inr (.inr ⟨notHere, notUp, by simpa using short, rfl⟩)

/-- A path that leads somewhere has its spot there, unless it ends in dots or is all slashes, and
then it leads to a directory. -/
theorem spot_of_resolve {t : Tree} {p : Path} {place : Place}
    (resolved : t.resolve p = .ok place) :
    (t.spot p = .ok none ∧ t.at? place = some .directory) ∨
      ∃ s, t.spot p = .ok (some s) ∧ s.place = place ∧ isTooLong s.name = false := by
  obtain ⟨names, parts, walked⟩ := resolve_eq_ok_iff.mp resolved
  rcases List.eq_nil_or_concat' names with rfl | ⟨front, last, rfl⟩
  · -- A path without parts is all slashes, and leads to the root.
    left
    obtain rfl : [] = place := by simpa [walk, pure, Except.pure] using walked
    refine ⟨?_, rfl⟩
    have start : t.walk [] = .ok [] := rfl
    have root : t.at? [] = some .directory := rfl
    unfold Tree.spot
    simp only [parts, List.dropLast_nil, start, bind, Except.bind]
    split
    · simp_all
    · simp_all
    · rfl
  · obtain ⟨directory, first, further⟩ := walk_append walked
    have step : t.step directory last = .ok place := by
      simpa [List.foldlM] using further
    have there := step_eq_ok step
    have spot : t.spot p = if last = "." ∨ last = ".." then .ok none
        else .ok (some ⟨directory, last, there⟩) := by
      unfold Tree.spot
      simp only [parts, List.dropLast_concat, first, bind, Except.bind]
      split
      · simp_all
      · simp_all
      · simp [pure, Except.pure]
    rcases step_cases step with ⟨here, rfl⟩ | ⟨up, rfl⟩ | ⟨notHere, notUp, short, rfl⟩
    · exact .inl ⟨by simpa [here] using spot, there⟩
    · exact .inl ⟨by simpa [up] using spot, at?_dropLast there⟩
    · exact .inr ⟨⟨directory, last, there⟩, by simpa [notHere, notUp] using spot, rfl, short⟩

end TypeCatalog.Tree
