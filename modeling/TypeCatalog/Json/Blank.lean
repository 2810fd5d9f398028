import TypeCatalog.Json.Fault

/-! White space, the three words and the marks between values. -/
namespace TypeCatalog.Json

def isBlank (c : Char) : Bool := c == ' ' || c == '\n' || c == '\t' || c == '\r'

def skipBlank (s : List Char) : List Char := s.dropWhile isBlank

theorem length_skipBlank_le (s : List Char) : (skipBlank s).length ≤ s.length :=
  (List.dropWhile_sublist isBlank).length_le

def readLetters : List Char → List Char → Except Fault (List Char)
  | [], s => .ok s
  | _ :: _, [] => .error (.before .endInValue [])
  | w :: ws, c :: r => if c = w then readLetters ws r else .error (.next .wrongLetter (c :: r))

theorem length_of_readLetters {w s r : List Char} (h : readLetters w s = .ok r) :
    s.length = r.length + w.length := by
  induction w generalizing s with
  | nil => simp [readLetters] at h; simp [h]
  | cons w ws ih =>
    cases s with
    | nil => simp [readLetters] at h
    | cons c t =>
      simp only [readLetters] at h
      split at h
      · have := ih h
        simp; omega
      · simp at h

def readColon (s : List Char) : Except Fault (List Char) :=
  match skipBlank s with
  | ':' :: r => .ok r
  | [] => .error (.next .endInObject [])
  | s => .error (.next .noColon s)

def closeList (s : List Char) : Except Fault (List Char) :=
  match skipBlank s with
  | ']' :: r => .ok r
  | ',' :: r =>
    match skipBlank r with
    | ']' :: t => .error (.next .trailingComma (']' :: t))
    | t => .error (.next .trailingCharacters t)
  | [] => .error (.next .endInList [])
  | s => .error (.next .trailingCharacters s)

def closeObject (s : List Char) : Except Fault (List Char) :=
  match skipBlank s with
  | '\x7d' :: r => .ok r
  | ',' :: r => .error (.next .trailingComma (',' :: r))
  | [] => .error (.next .endInObject [])
  | s => .error (.next .trailingCharacters s)

/-- The place of an objection to a list as a whole: behind its end or the next comma, if they
come next. -/
def pastList (s : List Char) : List Char :=
  match skipBlank s with
  | ']' :: r => r
  | ',' :: r => skipBlank r
  | s => s

/-- The place of an objection to an object as a whole: behind its end, if that comes next. -/
def pastObject (s : List Char) : List Char :=
  match skipBlank s with
  | '\x7d' :: r => r
  | s => s

theorem length_lt_of_readColon {s r : List Char} (h : readColon s = .ok r) :
    r.length < s.length := by
  have := length_skipBlank_le s
  unfold readColon at h
  split at h
  · rename_i t ht
    have := congrArg List.length ht
    cases h
    simp only [List.length_cons] at this
    omega
  all_goals cases h

theorem length_lt_of_closeList {s r : List Char} (h : closeList s = .ok r) :
    r.length < s.length := by
  have := length_skipBlank_le s
  unfold closeList at h
  split at h
  · rename_i t ht
    have := congrArg List.length ht
    cases h
    simp only [List.length_cons] at this
    omega
  · split at h <;> cases h
  all_goals cases h

theorem length_lt_of_closeObject {s r : List Char} (h : closeObject s = .ok r) :
    r.length < s.length := by
  have := length_skipBlank_le s
  unfold closeObject at h
  split at h
  · rename_i t ht
    have := congrArg List.length ht
    cases h
    simp only [List.length_cons] at this
    omega
  all_goals cases h

end TypeCatalog.Json
