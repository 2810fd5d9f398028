/-! Reading off the front of a text. A scan that succeeds takes something, so that scans can be
repeated; blanks, line ends and comments between them may be empty. -/
namespace TypeCatalog.Toml

structure Scan (α : Type) where
  read : List Char → Option (α × List Char)
  shrinks : ∀ {s a r}, read s = some (a, r) → r.length < s.length

def isBlank (c : Char) : Bool := c == ' ' || c == '\t'

def skipBlank (s : List Char) : List Char := s.dropWhile isBlank

/-- What may stand in a comment or unescaped in a string of one line: no control character but
the tab. -/
def isPlain (c : Char) : Bool := c == '\t' || (' ' ≤ c && c != '\x7f')

/-- The text from the line end on, or nothing if the text ends first. -/
def skipComment (s : List Char) : Option (List Char) :=
  match s.dropWhile isPlain with
  | [] => some []
  | '\n' :: r => some ('\n' :: r)
  | '\r' :: '\n' :: r => some ('\r' :: '\n' :: r)
  | _ => none

theorem length_skipBlank_le (s : List Char) : (skipBlank s).length ≤ s.length :=
  (List.dropWhile_sublist isBlank).length_le

theorem length_le_of_skipComment {s r : List Char} (h : skipComment s = some r) :
    r.length ≤ s.length := by
  have := (List.dropWhile_sublist isPlain (l := s)).length_le
  unfold skipComment at h
  split at h <;> simp_all
  all_goals rw [← h]; simpa using this

def skipGap (s : List Char) : Option (List Char) :=
  match s with
  | ' ' :: r => skipGap r
  | '\t' :: r => skipGap r
  | '\n' :: r => skipGap r
  | '\r' :: '\n' :: r => skipGap r
  | '#' :: r =>
    match _h : skipComment r with
    | none => none
    | some r => skipGap r
  | s => some s
termination_by s.length
decreasing_by
  all_goals try have := length_le_of_skipComment _h
  all_goals simp
  all_goals omega

theorem length_le_of_skipGap {s r : List Char} (h : skipGap s = some r) :
    r.length ≤ s.length := by
  fun_induction skipGap s with
  | case1 _ ih | case2 _ ih | case3 _ ih | case4 _ ih =>
    have := ih h
    simp; omega
  | case5 => simp at h
  | case6 _ _ hc ih =>
    have := ih h
    have := length_le_of_skipComment hc
    simp; omega
  | case7 => simp_all

/-- Passes over blanks, and where lines may end also over comments and line ends. -/
def skipSpace (multiline : Bool) (s : List Char) : Option (List Char) :=
  if multiline then skipGap s else some (skipBlank s)

theorem length_le_of_skipSpace {multiline : Bool} {s r : List Char}
    (h : skipSpace multiline s = some r) : r.length ≤ s.length := by
  cases multiline with
  | true => exact length_le_of_skipGap h
  | false => exact Option.some.inj h ▸ length_skipBlank_le s

/-- Passes over blanks and a comment, up to the end of the line. -/
def skipRemark (s : List Char) : Option (List Char) :=
  match skipBlank s with
  | '#' :: r => skipComment r
  | s => some s

def nextLine (s : List Char) : Option (List Char) :=
  match s with
  | [] => some []
  | '\n' :: r => some r
  | '\r' :: '\n' :: r => some r
  | _ => none

def endLine (s : List Char) : Option (List Char) := (skipRemark s).bind nextLine

theorem length_le_of_skipRemark {s r : List Char} (h : skipRemark s = some r) :
    r.length ≤ s.length := by
  have hs := length_skipBlank_le s
  unfold skipRemark at h
  split at h
  · rename_i t ht
    have := length_le_of_skipComment h
    simp [ht] at hs; omega
  · simp at h
    rw [← h]; exact hs

theorem length_le_of_nextLine {s r : List Char} (h : nextLine s = some r) :
    r.length ≤ s.length := by
  unfold nextLine at h
  split at h <;> simp at h <;> simp [← h]
  omega

theorem length_le_of_endLine {s r : List Char} (h : endLine s = some r) : r.length ≤ s.length := by
  obtain ⟨t, ht, h⟩ := Option.bind_eq_some_iff.1 h
  have := length_le_of_skipRemark ht
  have := length_le_of_nextLine h
  omega

namespace Scan

variable {α β : Type}

def orElse (first second : Scan α) : Scan α where
  read s := (first.read s).or (second.read s)
  shrinks {s _ r} h := by
    rcases Option.or_eq_some_iff.1 h with h | h
    · exact first.shrinks h
    · exact second.shrinks h.2

/-- Items with commas between them, and perhaps one after the last, up to the end mark. -/
def separated (scan : Scan α) (endMark : Char) (s : List Char) : Option (List α × List Char) :=
  match _hs : skipGap s with
  | none | some [] => none
  | some (c :: r) =>
    if c = endMark then some ([], r)
    else
      match _ha : scan.read (c :: r) with
      | none => none
      | some (a, t) =>
        match _ht : skipGap t with
        | some (',' :: u) => (separated scan endMark u).map fun (as, r) => (a :: as, r)
        | some (d :: u) => if d = endMark then some ([a], u) else none
        | _ => none
termination_by s.length
decreasing_by
  have := length_le_of_skipGap _hs
  have := scan.shrinks _ha
  have := length_le_of_skipGap _ht
  simp at *
  omega

theorem length_le_of_separated {scan : Scan α} {endMark : Char} {s r : List Char} {as : List α}
    (h : separated scan endMark s = some (as, r)) : r.length ≤ s.length := by
  fun_induction separated scan endMark s generalizing as r with
  | case1 => simp at h
  | case2 => simp at h
  | case3 _ _ hs =>
    have := length_le_of_skipGap hs
    simp_all; omega
  | case4 => simp at h
  | case5 _ _ _ hs _ _ _ ha _ ht ih =>
    obtain ⟨p, hp, h⟩ := Option.map_eq_some_iff.1 h
    have := ih hp
    have := length_le_of_skipGap hs
    have := scan.shrinks ha
    have := length_le_of_skipGap ht
    simp_all; omega
  | case6 _ _ _ hs _ _ _ ha _ _ ht =>
    have := length_le_of_skipGap hs
    have := scan.shrinks ha
    have := length_le_of_skipGap ht
    simp_all; omega
  | case7 => simp at h
  | case8 => simp at h

end Scan

end TypeCatalog.Toml
