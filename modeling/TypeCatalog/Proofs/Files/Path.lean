import TypeCatalog.Files.Path

/-! The directories above a path. Each is spelt as a beginning of the path, and its parts are the
first ones of the path, but not all of them. -/
namespace TypeCatalog.Path

theorem splitSlash_eq (s : List Char) : splitSlash s = s.splitOn '/' := by
  induction s with
  | nil => rfl
  | cons c r ih =>
    rw [List.splitOn_cons_eq_if_modifyHead, splitSlash, ih]
    cases pieces : r.splitOn '/' with
    | nil => exact absurd pieces (List.splitOn_ne_nil _ _)
    | cons piece pieces => simp

theorem slash_not_mem_of_mem_splitSlash {s piece : List Char} (member : piece ∈ splitSlash s) :
    '/' ∉ piece := by
  induction s generalizing piece with
  | nil => simp_all [splitSlash]
  | cons c r ih =>
    rw [splitSlash] at member
    cases pieces : splitSlash r with
    | nil => exact absurd (splitSlash_eq r ▸ pieces) (List.splitOn_ne_nil _ _)
    | cons head tail =>
      rw [pieces] at member ih
      simp only at member
      split at member
      · rcases List.mem_cons.mp member with rfl | later
        · exact List.not_mem_nil
        · exact ih later
      · rename_i other
        rcases List.mem_cons.mp member with rfl | later
        · have inside : '/' ∉ head := ih List.mem_cons_self
          simp [inside, Ne.symm other]
        · exact ih (List.mem_cons_of_mem _ later)

theorem intercalate_splitSlash (s : List Char) : ['/'].intercalate (splitSlash s) = s := by
  rw [splitSlash_eq]
  exact List.intercalate_splitOn '/'

theorem intercalate_append {front back : List (List Char)} (one : front ≠ []) (two : back ≠ []) :
    ['/'].intercalate (front ++ back) =
      ['/'].intercalate front ++ '/' :: ['/'].intercalate back := by
  induction front with
  | nil => exact absurd rfl one
  | cons piece front ih =>
    cases front with
    | nil => simp [List.intercalate_cons_of_ne_nil two]
    | cons next front =>
      have rest := ih (by simp)
      rw [List.cons_append] at rest ⊢
      rw [List.cons_append, List.intercalate_cons_cons, rest, List.intercalate_cons_cons]
      simp

structure Above (q p : Path) : Prop where
  spelling : q.text.toList <+: p.text.toList
  filled : q.text ≠ ""
  parts : ∃ rest, rest ≠ [] ∧ p.segments = q.segments ++ rest

/-- Of the hits of a search downwards, all but the first have a hit above them. -/
theorem hit_above {α : Type} {hit : Nat → Option α} {n : Nat} {a : α}
    (member : a ∈ ((List.range n).reverse.filterMap hit).drop 1) :
    ∃ i j, i < j ∧ j < n ∧ hit i = some a ∧ (hit j).isSome := by
  induction n with
  | zero => cases member
  | succ n ih =>
    rw [List.range_succ, List.reverse_append, List.reverse_singleton, List.singleton_append,
      List.filterMap_cons] at member
    cases found : hit n with
    | none =>
      rw [found] at member
      obtain ⟨i, j, lt, bound, here, further⟩ := ih member
      exact ⟨i, j, lt, by omega, here, further⟩
    | some b =>
      rw [found] at member
      obtain ⟨i, listed, here⟩ := List.mem_filterMap.mp member
      have bound : i < n := by simpa using listed
      exact ⟨i, n, bound, by omega, here, by simp [found]⟩

theorem segments_of_pieces {p : Path} {pieces : List (List Char)}
    (spelt : splitSlash p.text.toList = pieces) :
    p.segments = (pieces.filter (!·.isEmpty)).map String.ofList := by
  rw [segments, spelt]

/-- A path that is made of the first pieces of another. -/
theorem above_of_pieces {p : Path} {front back : List (List Char)}
    (pieces : splitSlash p.text.toList = front ++ back) (one : ∃ piece ∈ front, piece ≠ [])
    (two : ∃ piece ∈ back, piece ≠ []) :
    Above ⟨String.ofList (['/'].intercalate front)⟩ p := by
  obtain ⟨first, inFront, filled⟩ := one
  obtain ⟨later, inBack, left⟩ := two
  have front_ne := List.ne_nil_of_mem inFront
  have back_ne := List.ne_nil_of_mem inBack
  have unslashed : ∀ piece ∈ front, '/' ∉ piece := by
    intro piece member
    apply slash_not_mem_of_mem_splitSlash
    rw [pieces]
    exact List.mem_append_left _ member
  -- The beginning, as it is spelt, comes apart into the same pieces again.
  have split : splitSlash (['/'].intercalate front) = front := by
    rw [splitSlash_eq]
    exact List.splitOn_intercalate '/' unslashed front_ne
  constructor
  · have spelling := intercalate_append front_ne back_ne
    rw [← pieces, intercalate_splitSlash] at spelling
    rw [String.toList_ofList, spelling]
    exact List.prefix_append _ _
  · intro empty
    have nothing : ['/'].intercalate front = [] := by
      simpa [← String.toList_eq_nil_iff] using empty
    rw [nothing] at split
    rw [← split] at inFront
    exact filled (List.mem_singleton.mp inFront)
  · refine ⟨(back.filter (!·.isEmpty)).map String.ofList, ?_, ?_⟩
    · apply List.ne_nil_of_mem (a := String.ofList later)
      apply List.mem_map_of_mem
      simpa [inBack] using left
    · rw [segments_of_pieces pieces, segments_of_pieces (by simpa using split)]
      simp

theorem piece_of_part {pieces : List (List Char)} {k : Nat}
    (part : pieces[k]?.any (isPart k) = true) : ∃ piece, pieces[k]? = some piece ∧ piece ≠ [] := by
  cases found : pieces[k]? with
  | none => simp [found] at part
  | some piece =>
    refine ⟨piece, rfl, ?_⟩
    rintro rfl
    simp [found, isPart] at part

theorem above_of_mem_ancestors {p q : Path} (member : q ∈ p.ancestors) : Above q p := by
  obtain ⟨i, j, lt, -, here, further⟩ := hit_above member
  generalize found : splitSlash p.text.toList = pieces at here further
  split at here
  · rename_i part
    obtain rfl := Option.some.inj here
    split at further
    · rename_i part'
      obtain ⟨first, at_i, filled⟩ := piece_of_part part
      obtain ⟨later, at_j, left⟩ := piece_of_part part'
      have inFront : first ∈ pieces.take (i + 1) := by
        apply List.mem_of_getElem? (i := i)
        rw [List.getElem?_take_of_lt (by omega), at_i]
      have inBack : later ∈ pieces.drop (i + 1) := by
        apply List.mem_of_getElem? (i := j - (i + 1))
        rw [List.getElem?_drop, Nat.add_sub_cancel' lt, at_j]
      have whole : splitSlash p.text.toList = pieces.take (i + 1) ++ pieces.drop (i + 1) := by
        rw [found, List.take_append_drop]
      exact above_of_pieces whole ⟨first, inFront, filled⟩ ⟨later, inBack, left⟩
    · cases further
  · cases here

end TypeCatalog.Path
