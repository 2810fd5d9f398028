import TypeCatalog.Proofs.Text.Position

/-! Where the characters of a text begin, counted in bytes. A character of several bytes has places
inside of it, and there a text cannot be cut. -/
namespace TypeCatalog.Text

/-- A character begins here, or the text ends. -/
def Boundary (text : List Char) (n : Nat) : Prop :=
  ∃ front back, text = front ++ back ∧ byteCount front = n

variable {text front back : List Char} {n : Nat}

theorem boundary_front (front back : List Char) : Boundary (front ++ back) (byteCount front) :=
  ⟨front, back, rfl, rfl⟩

theorem boundary_zero (text : List Char) : Boundary text 0 := ⟨[], text, rfl, rfl⟩

theorem byteCount_eq_utf8ByteSize (s : List Char) :
    byteCount s = (String.ofList s).utf8ByteSize := by
  induction s with
  | nil => rfl
  | cons c s ih => rw [byteCount_cons, ih, String.ofList_cons, String.utf8ByteSize_append,
      String.utf8ByteSize_singleton]

/-- These are the positions at which a string can be cut. -/
theorem isValid_iff_boundary {s : String} {n : Nat} :
    (⟨n⟩ : String.Pos.Raw).IsValid s ↔ Boundary s.toList n := by
  rw [String.Pos.Raw.isValid_iff_exists_append]
  constructor
  · rintro ⟨front, back, rfl, position⟩
    refine ⟨front.toList, back.toList, String.toList_append, ?_⟩
    rw [byteCount_eq_utf8ByteSize, String.ofList_toList]
    exact (congrArg String.Pos.Raw.byteIdx position).symm
  · rintro ⟨front, back, whole, rfl⟩
    refine ⟨String.ofList front, String.ofList back, ?_, ?_⟩
    · rw [← String.toList_inj, whole]
      simp
    · rw [byteCount_eq_utf8ByteSize]
      rfl

theorem boundary_cons_iff {c : Char} :
    Boundary (c :: text) n ↔ n = 0 ∨ c.utf8Size ≤ n ∧ Boundary text (n - c.utf8Size) := by
  constructor
  · rintro ⟨_ | ⟨d, front⟩, back, whole, rfl⟩
    · exact .inl rfl
    · obtain ⟨rfl, rfl⟩ := List.cons.inj whole
      refine .inr ⟨Nat.le_add_right .., ?_⟩
      rw [byteCount_cons, Nat.add_sub_cancel_left]
      exact boundary_front front back
  · rintro (rfl | ⟨whole, front, back, rfl, rest⟩)
    · exact boundary_zero _
    · exact ⟨c :: front, back, rfl, by rw [byteCount_cons]; omega⟩

/-- What comes before moves the boundaries and makes no others. -/
theorem boundary_append_iff (front : List Char) :
    Boundary (front ++ back) (byteCount front + n) ↔ Boundary back n := by
  induction front with
  | nil => simp
  | cons c front ih =>
    have size := c.utf8Size_pos
    rw [List.cons_append, boundary_cons_iff, byteCount_cons, ← ih, Nat.add_assoc,
      Nat.add_sub_cancel_left]
    constructor
    · rintro (nothing | ⟨-, further⟩)
      · omega
      · exact further
    · intro further
      exact .inr ⟨Nat.le_add_right .., further⟩

/-- No place is a boundary between the first byte of a character and the next character. -/
theorem not_boundary_inside {c : Char} (behind : byteCount front < n)
    (inside : n < byteCount front + c.utf8Size) : ¬Boundary (front ++ c :: back) n := by
  obtain ⟨k, rfl⟩ := Nat.exists_eq_add_of_le behind.le
  rw [boundary_append_iff, boundary_cons_iff]
  omega

/-- The byte before the end of a front is its last character if that takes one byte. -/
theorem boundary_last_byte_iff {c : Char} :
    Boundary (front ++ c :: back) (byteCount (front ++ [c]) - 1) ↔ c.utf8Size = 1 := by
  have size := c.utf8Size_pos
  rw [byteCount_append, byteCount_cons, byteCount_nil]
  constructor
  · intro boundary
    by_contra wide
    exact not_boundary_inside (by omega) (by omega) boundary
  · intro narrow
    rw [narrow]
    exact boundary_front front _

namespace Position

theorem advance_zero (p : Position) (text : List Char) : advance p text 0 = p := by
  cases text with
  | nil => rfl
  | cons c rest => rw [advance, if_pos c.utf8Size_pos, Nat.add_zero]

/-- In column 0 the text begins or a line end comes before. -/
theorem newline_of_column_eq_zero (p : Position) (within : n ≤ byteCount text)
    (start : (advance p text n).column = 0) :
    n = 0 ∨ ∃ front back, text = front ++ '\n' :: back ∧ byteCount front + 1 = n := by
  have size : '\n'.utf8Size = 1 := rfl
  fun_induction advance p text n with
  | case1 p n => exact .inl (Nat.le_zero.mp within)
  | case2 p c rest n inside =>
    dsimp only at start
    omega
  | case3 p rest n whole ih =>
    rw [byteCount_cons] at within
    right
    replace ih := ih (by omega) start
    rcases ih with first | ⟨front, back, rfl, count⟩
    · exact ⟨[], rest, rfl, by rw [byteCount_nil]; omega⟩
    · refine ⟨'\n' :: front, back, rfl, ?_⟩
      rw [byteCount_cons]
      omega
  | case4 p c rest n whole other ih =>
    rw [byteCount_cons] at within
    replace ih := ih (by omega) start
    rcases ih with first | ⟨front, back, rfl, count⟩
    · -- The character itself takes up columns.
      have size := c.utf8Size_pos
      rw [first, advance_zero] at start
      dsimp only at start
      omega
    · refine .inr ⟨c :: front, back, rfl, ?_⟩
      rw [byteCount_cons]
      omega

/-- Whether the offset of a position is a boundary is seen from the byte before the position. -/
theorem boundary_offset_iff (within : n ≤ byteCount text) :
    Boundary text (offset text (after text n)) ↔ Boundary text (n - 1) := by
  rw [offset_after within]
  split
  · rename_i start
    rcases newline_of_column_eq_zero _ within start with rfl | ⟨front, back, rfl, rfl⟩
    · rfl
    · have last := boundary_front (front ++ ['\n']) back
      rw [byteCount_append, List.append_assoc] at last
      exact iff_of_true last (boundary_front front _)
  · rfl

/-- An offset inside a character is one byte before the place that the position is of. -/
theorem offset_of_not_boundary (within : n ≤ byteCount text)
    (inside : ¬Boundary text (offset text (after text n))) :
    offset text (after text n) + 1 = n ∧ ¬Boundary text (n - 1) := by
  have before := mt (boundary_offset_iff within).mpr inside
  have some_bytes : n ≠ 0 := by
    rintro rfl
    exact before (boundary_zero text)
  rw [offset_after within] at inside ⊢
  split
  · rename_i start
    rw [if_pos start] at inside
    rcases newline_of_column_eq_zero _ within start with none_before | ⟨front, back, rfl, rfl⟩
    · exact absurd none_before some_bytes
    · exact absurd (boundary_front front _) before
  · exact ⟨by omega, before⟩

end Position

end TypeCatalog.Text
