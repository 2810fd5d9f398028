import TypeCatalog.Json.Blank
import TypeCatalog.Json.Chars
import TypeCatalog.Json.Numeral

/-! Values that are passed over. Only their form is checked, at any depth: the containers that
are open are kept in a list. -/
namespace TypeCatalog.Json

inductive Container where
  | list
  | object
deriving DecidableEq, Repr

def skipKey (s : List Char) : Except Fault (List Char) :=
  match skipBlank s with
  | '"' :: r =>
    match skipString r with
    | .error f => .error f
    | .ok r => readColon r
  | [] => .error (.next .endInObject [])
  | s => .error (.next .keyNotString s)

theorem length_lt_of_skipKey {s r : List Char} (h : skipKey s = .ok r) :
    r.length < s.length := by
  have := length_skipBlank_le s
  unfold skipKey at h
  split at h
  · rename_i t ht
    split at h
    · simp at h
    · rename_i u hu
      have := length_lt_of_skipString hu
      have := length_lt_of_readColon h
      simp [ht] at *
      omega
  · simp at h
  · simp at h

def skipScalar (s : List Char) : Except Fault (List Char) :=
  match s with
  | [] => .error (.next .endInValue [])
  | '"' :: r => skipString r
  | 'n' :: r => readLetters ['u', 'l', 'l'] r
  | 't' :: r => readLetters ['r', 'u', 'e'] r
  | 'f' :: r => readLetters ['a', 'l', 's', 'e'] r
  | '-' :: r => skipNumber r
  | c :: _ => if c.isDigit then skipNumber s else .error (.next .noValue s)

theorem length_lt_of_skipScalar {s r : List Char} (h : skipScalar s = .ok r) :
    r.length < s.length := by
  unfold skipScalar at h
  split at h
  · simp at h
  · have := length_lt_of_skipString h; simp; omega
  · have := length_of_readLetters h; simp at *; omega
  · have := length_of_readLetters h; simp at *; omega
  · have := length_of_readLetters h; simp at *; omega
  · have := length_lt_of_skipNumber h; simp; omega
  · split at h
    · exact length_lt_of_skipNumber h
    · simp at h

mutual

/-- Passes over a value and the rest of the containers around it, innermost first. -/
def skipValue (around : List Container) (s : List Char) : Except Fault (List Char) :=
  match _hs : skipBlank s with
  | '[' :: r =>
    match _hr : skipBlank r with
    | ']' :: t => skipRest around t
    | [] => .error (.next .endInList [])
    | t => skipValue (.list :: around) t
  | '\x7b' :: r =>
    match _hr : skipBlank r with
    | '\x7d' :: t => skipRest around t
    | t =>
      match _ht : skipKey t with
      | .error f => .error f
      | .ok u => skipValue (.object :: around) u
  | t =>
    match _ht : skipScalar t with
    | .error f => .error f
    | .ok u => skipRest around u
termination_by s.length
decreasing_by
  all_goals
    have hs := length_skipBlank_le s
    have := congrArg List.length _hs
    try have := length_skipBlank_le r
    try have := congrArg List.length _hr
    try have := length_lt_of_skipKey _ht
    try have := length_lt_of_skipScalar _ht
    try simp only [List.length_cons] at *
    omega

/-- Passes over the rest of the containers after one of their values. -/
def skipRest (around : List Container) (s : List Char) : Except Fault (List Char) :=
  match around with
  | [] => .ok s
  | .list :: outer =>
    match _hs : skipBlank s with
    | ',' :: r => skipValue around r
    | ']' :: r => skipRest outer r
    | [] => .error (.next .endInList [])
    | t => .error (.next .noListComma t)
  | .object :: outer =>
    match _hs : skipBlank s with
    | ',' :: r =>
      match _hr : skipKey r with
      | .error f => .error f
      | .ok u => skipValue around u
    | '\x7d' :: r => skipRest outer r
    | [] => .error (.next .endInObject [])
    | t => .error (.next .noObjectComma t)
termination_by s.length
decreasing_by
  all_goals
    have hs := length_skipBlank_le s
    have := congrArg List.length _hs
    try have := length_lt_of_skipKey _hr
    try simp only [List.length_cons] at *
    omega

end

mutual

theorem length_lt_of_skipValue {around : List Container} {s r : List Char}
    (h : skipValue around s = .ok r) : r.length < s.length := by
  have hs := length_skipBlank_le s
  unfold skipValue at h
  split at h
  · rename_i t ht
    have htl := congrArg List.length ht
    have htb := length_skipBlank_le t
    rw [List.length_cons] at htl
    split at h
    · rename_i u hu
      have hul := congrArg List.length hu
      rw [List.length_cons] at hul
      have := length_le_of_skipRest h
      omega
    · cases h
    · have := length_lt_of_skipValue h
      omega
  · rename_i t ht
    have htl := congrArg List.length ht
    have htb := length_skipBlank_le t
    rw [List.length_cons] at htl
    split at h
    · rename_i u hu
      have hul := congrArg List.length hu
      rw [List.length_cons] at hul
      have := length_le_of_skipRest h
      omega
    · split at h
      · cases h
      · rename_i v hv
        have := length_lt_of_skipKey hv
        have := length_lt_of_skipValue h
        omega
  · split at h
    · cases h
    · rename_i v hv
      have := length_lt_of_skipScalar hv
      have := length_le_of_skipRest h
      omega
termination_by s.length
decreasing_by all_goals (try simp only [List.length_cons] at *); omega

theorem length_le_of_skipRest {around : List Container} {s r : List Char}
    (h : skipRest around s = .ok r) : r.length ≤ s.length := by
  have hs := length_skipBlank_le s
  unfold skipRest at h
  split at h
  · cases h
    exact Nat.le_refl _
  · split at h
    · rename_i t ht
      have htl := congrArg List.length ht
      rw [List.length_cons] at htl
      have := length_lt_of_skipValue h
      omega
    · rename_i t ht
      have htl := congrArg List.length ht
      rw [List.length_cons] at htl
      have := length_le_of_skipRest h
      omega
    · cases h
    · cases h
  · split at h
    · rename_i t ht
      have htl := congrArg List.length ht
      rw [List.length_cons] at htl
      split at h
      · cases h
      · rename_i v hv
        have := length_lt_of_skipKey hv
        have := length_lt_of_skipValue h
        omega
    · rename_i t ht
      have htl := congrArg List.length ht
      rw [List.length_cons] at htl
      have := length_le_of_skipRest h
      omega
    · cases h
    · cases h
termination_by s.length
decreasing_by all_goals (try simp only [List.length_cons] at *); omega

end

end TypeCatalog.Json
