import Mathlib.Data.List.DropRight
import Mathlib.Tactic.SplitIfs
import TypeCatalog.Text.Position

/-! Positions through the UTF-8 form of a text. The byte of a line end is part of no other
character, so lines and columns may be counted byte by byte, also up to a place inside a character.
From the position reached there the place is found again. -/
namespace TypeCatalog.Text

def bytes (s : String) : List UInt8 := s.toUTF8.data.toList

theorem bytes_eq (s : String) : bytes s = s.toList.flatMap String.utf8EncodeChar := by
  have same : s.toUTF8 = s.toList.utf8Encode := by
    rw [← String.toByteArray_ofList, String.ofList_toList]
    rfl
  rw [bytes, same, List.utf8Encode, List.toList_data_toByteArray]

theorem byteCount_eq (s : List Char) : byteCount s = (s.flatMap String.utf8EncodeChar).length := by
  induction s with
  | nil => rfl
  | cons c s ih => rw [byteCount_cons, ih, List.flatMap_cons, List.length_append,
      String.length_utf8EncodeChar]

theorem length_bytes (s : String) : (bytes s).length = byteCount s.toList := by
  rw [bytes_eq, byteCount_eq]

def lineEnd : UInt8 := 10

theorem encode_newline : String.utf8EncodeChar '\n' = [lineEnd] := rfl

theorem lineEnd_eq_ofNat_iff {k : Nat} (byte : k < 256) : lineEnd = UInt8.ofNat k ↔ k = 10 := by
  rw [← UInt8.toNat_inj, UInt8.toNat_ofNat_of_lt' byte]
  exact eq_comm

/-- In a form of several bytes each byte is 128 or more. -/
theorem lineEnd_not_mem_encode {c : Char} (other : c ≠ '\n') :
    lineEnd ∉ String.utf8EncodeChar c := by
  have number : c.val.toNat ≠ 10 := fun same => other (Char.ext (UInt32.toNat_inj.mp same))
  rw [String.utf8EncodeChar]
  split_ifs
  all_goals
    simp (disch := omega) only [List.mem_cons, List.not_mem_nil, or_false, lineEnd_eq_ofNat_iff]
    omega

namespace Position

def pass (p : Position) (b : UInt8) : Position :=
  if b = lineEnd then ⟨p.line + 1, 0⟩ else ⟨p.line, p.column + 1⟩

/-- The position behind these bytes: below as many lines as there are line ends, and behind as
many bytes as come after the last of them. -/
def behind (bs : List UInt8) : Position :=
  ⟨bs.count lineEnd + 1, (bs.rtakeWhile (· != lineEnd)).length⟩

theorem behind_concat (bs : List UInt8) (b : UInt8) : behind (bs ++ [b]) = (behind bs).pass b := by
  by_cases ends : b = lineEnd <;> simp [behind, pass, ends]

theorem foldl_pass (bs : List UInt8) : bs.foldl pass ⟨1, 0⟩ = behind bs := by
  induction bs using List.reverseRecOn with
  | nil => rfl
  | append_singleton bs b ih => rw [List.foldl_concat, ih, behind_concat]

theorem foldl_pass_of_not_mem (p : Position) {bs : List UInt8} (none : lineEnd ∉ bs) :
    bs.foldl pass p = ⟨p.line, p.column + bs.length⟩ := by
  induction bs generalizing p with
  | nil => rfl
  | cons b bs ih =>
    obtain ⟨ne, none⟩ := List.ne_and_not_mem_of_not_mem_cons none
    rw [List.foldl_cons, ih _ none, pass, if_neg ne.symm, List.length_cons, Nat.add_assoc,
      Nat.add_comm 1]

/-- A character is passed byte by byte, and the last one may be passed in part. -/
theorem advance_eq_foldl (p : Position) (text : List Char) (n : Nat) :
    advance p text n = ((text.flatMap String.utf8EncodeChar).take n).foldl pass p := by
  induction text generalizing p n with
  | nil => simp [advance]
  | cons c rest ih =>
    have size := String.length_utf8EncodeChar c
    rw [List.flatMap_cons, List.take_append, List.foldl_append, size, advance]
    by_cases newline : c = '\n'
    · subst newline
      cases n with
      | zero => rfl
      | succ n => simp [ih, encode_newline, pass, show '\n'.utf8Size = 1 from rfl]
    · have none := lineEnd_not_mem_encode newline
      rw [if_neg newline]
      split
      · rename_i inside
        have cut : lineEnd ∉ (String.utf8EncodeChar c).take n := fun member =>
          none (List.mem_of_mem_take member)
        rw [foldl_pass_of_not_mem p cut, Nat.sub_eq_zero_of_le inside.le, List.take_zero,
          List.length_take, size, Nat.min_eq_left inside.le]
        rfl
      · rename_i whole
        have all : (String.utf8EncodeChar c).take n = String.utf8EncodeChar c :=
          List.take_of_length_le (by omega)
        rw [all, ih, foldl_pass_of_not_mem p none, size]

theorem after_eq_behind (s : String) (n : Nat) :
    after s.toList n = behind ((bytes s).take n) := by
  rw [after, advance_eq_foldl, foldl_pass, bytes_eq]

theorem lineBytes_newline (rest : List Char) (n : Nat) :
    lineBytes ('\n' :: rest) (n + 1) = 1 + lineBytes rest n := rfl

theorem lineBytes_cons {c : Char} (other : c ≠ '\n') (rest : List Char) {n : Nat} (more : 0 < n) :
    lineBytes (c :: rest) n = c.utf8Size + lineBytes rest n := by
  obtain ⟨n, rfl⟩ := Nat.exists_eq_add_one.mpr more
  rw [lineBytes, if_neg other]

/-- Either the line goes on, or the columns make up for what the lines before leave of the bytes. -/
theorem advance_cases (p : Position) {text : List Char} {n : Nat} (within : n ≤ byteCount text) :
    (advance p text n).line = p.line ∧ (advance p text n).column = p.column + n ∨
    p.line < (advance p text n).line ∧
      lineBytes text ((advance p text n).line - p.line) + (advance p text n).column = n := by
  fun_induction advance p text n with
  | case1 p n =>
    rw [byteCount_nil, Nat.le_zero] at within
    exact .inl ⟨rfl, by rw [within, Nat.add_zero]⟩
  | case2 p c rest n inside => exact .inl ⟨rfl, rfl⟩
  | case3 p rest n whole ih =>
    have size : '\n'.utf8Size = 1 := rfl
    rw [byteCount_cons, size] at within
    rw [size] at whole ih ⊢
    -- The line ends here, so in both cases of the rest the place is on a later one.
    have cases := ih (by omega)
    dsimp only at cases
    generalize advance ⟨p.line + 1, 0⟩ rest (n - 1) = q at cases ⊢
    rcases cases with ⟨line, column⟩ | ⟨later, bytes⟩
    · refine .inr ⟨by omega, ?_⟩
      rw [line, Nat.add_sub_cancel_left, lineBytes_newline, lineBytes]
      omega
    · refine .inr ⟨by omega, ?_⟩
      have lines : q.line - p.line = q.line - (p.line + 1) + 1 := by omega
      rw [lines, lineBytes_newline]
      omega
  | case4 p c rest n whole other ih =>
    rw [byteCount_cons] at within
    have cases := ih (by omega)
    dsimp only at cases
    generalize advance ⟨p.line, p.column + c.utf8Size⟩ rest (n - c.utf8Size) = q at cases ⊢
    rcases cases with ⟨line, column⟩ | ⟨later, bytes⟩
    · exact .inl ⟨line, by omega⟩
    · refine .inr ⟨later, ?_⟩
      rw [lineBytes_cons other rest (Nat.sub_pos_of_lt later)]
      omega

/-- Where a line starts, and the columns from there on. -/
theorem lineBytes_after {text : List Char} {n : Nat} (within : n ≤ byteCount text) :
    lineBytes text ((after text n).line - 1) + (after text n).column = n := by
  rcases advance_cases ⟨1, 0⟩ within with ⟨line, column⟩ | ⟨-, bytes⟩
  · rw [after, line, column, Nat.sub_self, lineBytes, Nat.zero_add, Nat.zero_add]
  · exact bytes

/-- The offset of a position is one byte less than led there, unless a line begins. -/
theorem offset_after {text : List Char} {n : Nat} (within : n ≤ byteCount text) :
    offset text (after text n) = if (after text n).column = 0 then n else n - 1 := by
  have reached := lineBytes_after within
  rw [offset]
  split <;> omega

/-- The byte before a position in a line is no line end, so it is on that line too. -/
theorem count_lineEnd_before {bs : List UInt8} (column : (behind bs).column ≠ 0) :
    bs.dropLast.count lineEnd = bs.count lineEnd := by
  induction bs using List.reverseRecOn with
  | nil => rfl
  | append_singleton bs b =>
    have solid : b ≠ lineEnd := by
      rintro rfl
      rw [behind_concat] at column
      exact column rfl
    rw [List.dropLast_concat, List.count_append, List.count_singleton]
    simp [solid]

end Position

end TypeCatalog.Text
