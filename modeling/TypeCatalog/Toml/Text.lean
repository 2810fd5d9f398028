import TypeCatalog.Text.Quoted
import TypeCatalog.Toml.Scan

/-! Strings: in double quotes with escapes or in single quotes without, each on one line or,
in three quotes, on several. Line ends are kept as they are written. -/
namespace TypeCatalog.Toml

open Text (hexDigit?)

def readHex (acc : Nat) : Nat → List Char → Option (Nat × List Char)
  | 0, s => some (acc, s)
  | _ + 1, [] => none
  | n + 1, c :: r => (hexDigit? c).bind fun d => readHex (16 * acc + d) n r

/-- The character with the given code point, which must not be half of a surrogate pair. -/
def scalar? (n : Nat) : Option Char := if n.isValidChar then some (Char.ofNat n) else none

def readEscape (s : List Char) : Option (Char × List Char) :=
  match s with
  | 'b' :: r => some ('\x08', r)
  | 't' :: r => some ('\t', r)
  | 'n' :: r => some ('\n', r)
  | 'f' :: r => some ('\x0c', r)
  | 'r' :: r => some ('\r', r)
  | 'e' :: r => some ('\x1b', r)
  | '"' :: r => some ('"', r)
  | '\\' :: r => some ('\\', r)
  | 'x' :: r => coded 2 r
  | 'u' :: r => coded 4 r
  | 'U' :: r => coded 8 r
  | _ => none
where
  coded (digits : Nat) (s : List Char) : Option (Char × List Char) :=
    (readHex 0 digits s).bind fun (n, r) => (scalar? n).map (·, r)

theorem length_of_readHex {acc n m : Nat} {s r : List Char} (h : readHex acc n s = some (m, r)) :
    s.length = r.length + n := by
  induction n generalizing acc s with
  | zero => simp [readHex] at h; simp [h.2]
  | succ n ih =>
    cases s with
    | nil => simp [readHex] at h
    | cons c t =>
      obtain ⟨d, _, h⟩ := Option.bind_eq_some_iff.1 h
      have := ih h
      simp; omega

theorem length_lt_of_readEscape {s r : List Char} {c : Char} (h : readEscape s = some (c, r)) :
    r.length < s.length := by
  have coded (n : Nat) (t : List Char) (h : readEscape.coded n t = some (c, r)) :
      r.length ≤ t.length := by
    obtain ⟨⟨m, u⟩, hu, h⟩ := Option.bind_eq_some_iff.1 h
    obtain ⟨d, _, h⟩ := Option.map_eq_some_iff.1 h
    have := length_of_readHex hu
    simp at h
    rw [← h.2]; omega
  unfold readEscape at h
  split at h <;> try simp at h
  all_goals try simp [h]
  all_goals
    have := coded _ _ h
    omega

def readQuoted (s : List Char) : Option (List Char × List Char) :=
  match s with
  | [] => none
  | '"' :: r => some ([], r)
  | '\\' :: r =>
    match _h : readEscape r with
    | none => none
    | some (c, r) => (readQuoted r).map fun (cs, r) => (c :: cs, r)
  | c :: r => if isPlain c then (readQuoted r).map fun (cs, r) => (c :: cs, r) else none
termination_by s.length
decreasing_by
  · have := length_lt_of_readEscape _h
    simp; omega
  · simp

def readLiteral : List Char → Option (List Char × List Char)
  | [] => none
  | '\'' :: r => some ([], r)
  | c :: r => if isPlain c then (readLiteral r).map fun (cs, r) => (c :: cs, r) else none

/-- Passes over blanks and line ends after a backslash at the end of a line. -/
def skipBreak : List Char → List Char
  | ' ' :: r => skipBreak r
  | '\t' :: r => skipBreak r
  | '\n' :: r => skipBreak r
  | '\r' :: '\n' :: r => skipBreak r
  | s => s

def startsLine : List Char → Bool
  | '\n' :: _ => true
  | '\r' :: '\n' :: _ => true
  | _ => false

theorem length_skipBreak_le (s : List Char) : (skipBreak s).length ≤ s.length := by
  fun_induction skipBreak s <;> simp_all <;> omega

/-- The text after three opening double quotes. One or two quotes may stand before the closing
ones. -/
def readQuotedLines (s : List Char) : Option (List Char × List Char) :=
  match s with
  | [] => none
  | '"' :: '"' :: '"' :: '"' :: '"' :: r => some (['"', '"'], r)
  | '"' :: '"' :: '"' :: '"' :: r => some (['"'], r)
  | '"' :: '"' :: '"' :: r => some ([], r)
  | '\\' :: r =>
    if startsLine (skipBlank r) then readQuotedLines (skipBreak r)
    else
      match _h : readEscape r with
      | none => none
      | some (c, r) => (readQuotedLines r).map fun (cs, r) => (c :: cs, r)
  | c :: r =>
    if isPlain c || startsLine s then (readQuotedLines r).map fun (cs, r) => (c :: cs, r)
    else none
termination_by s.length
decreasing_by
  · have := length_skipBreak_le r
    simp; omega
  · have := length_lt_of_readEscape _h
    simp; omega
  · simp

def readLiteralLines : List Char → Option (List Char × List Char)
  | [] => none
  | '\'' :: '\'' :: '\'' :: '\'' :: '\'' :: r => some (['\'', '\''], r)
  | '\'' :: '\'' :: '\'' :: '\'' :: r => some (['\''], r)
  | '\'' :: '\'' :: '\'' :: r => some ([], r)
  | c :: r =>
    if isPlain c || startsLine (c :: r) then (readLiteralLines r).map fun (cs, r) => (c :: cs, r)
    else none

/-- A line end right after the opening quotes is no part of the string. -/
def dropLineEnd (s : List Char) : List Char :=
  if startsLine s then (nextLine s).getD s else s

theorem length_dropLineEnd_le (s : List Char) : (dropLineEnd s).length ≤ s.length := by
  unfold dropLineEnd
  split
  · cases h : nextLine s with
    | none => simp
    | some r => simpa using length_le_of_nextLine h
  · simp

theorem length_lt_of_readQuoted {s r cs : List Char} (h : readQuoted s = some (cs, r)) :
    r.length < s.length := by
  fun_induction readQuoted s generalizing cs r with
  | case1 => simp at h
  | case2 => simp_all
  | case3 => simp at h
  | case4 _ _ _ hu ih =>
    obtain ⟨p, hp, h⟩ := Option.map_eq_some_iff.1 h
    have := ih hp
    have := length_lt_of_readEscape hu
    simp at h
    simp [← h.2]; omega
  | case5 _ _ _ _ _ ih =>
    obtain ⟨p, hp, h⟩ := Option.map_eq_some_iff.1 h
    have := ih hp
    simp at h
    simp [← h.2]; omega
  | case6 => simp at h

theorem length_lt_of_readLiteral {s r cs : List Char} (h : readLiteral s = some (cs, r)) :
    r.length < s.length := by
  fun_induction readLiteral s generalizing cs r with
  | case1 => simp at h
  | case2 => simp_all
  | case3 _ _ _ _ ih =>
    obtain ⟨p, hp, h⟩ := Option.map_eq_some_iff.1 h
    have := ih hp
    simp at h
    simp [← h.2]; omega
  | case4 => simp at h

theorem length_lt_of_readQuotedLines {s r cs : List Char}
    (h : readQuotedLines s = some (cs, r)) : r.length < s.length := by
  fun_induction readQuotedLines s generalizing cs r with
  | case1 => simp at h
  | case2 => simp at h; simp [← h.2]; omega
  | case3 => simp at h; simp [← h.2]; omega
  | case4 => simp at h; simp [← h.2]; omega
  | case5 t _ ih =>
    have := ih h
    have := length_skipBreak_le t
    simp; omega
  | case6 => simp at h
  | case7 _ _ _ _ hu ih =>
    obtain ⟨p, hp, h⟩ := Option.map_eq_some_iff.1 h
    have := ih hp
    have := length_lt_of_readEscape hu
    simp at h
    simp [← h.2]; omega
  | case8 _ _ _ _ _ _ plain ih =>
    rw [if_pos plain] at h
    obtain ⟨p, hp, h⟩ := Option.map_eq_some_iff.1 h
    have := ih hp
    simp at h
    simp [← h.2]; omega
  | case9 _ _ _ _ _ _ strange =>
    rw [if_neg strange] at h
    simp at h

theorem length_lt_of_readLiteralLines {s r cs : List Char}
    (h : readLiteralLines s = some (cs, r)) : r.length < s.length := by
  fun_induction readLiteralLines s generalizing cs r with
  | case1 => simp at h
  | case2 => simp at h; simp [← h.2]; omega
  | case3 => simp at h; simp [← h.2]; omega
  | case4 => simp at h; simp [← h.2]; omega
  | case5 _ _ _ _ _ _ ih =>
    obtain ⟨p, hp, h⟩ := Option.map_eq_some_iff.1 h
    have := ih hp
    simp at h
    simp [← h.2]; omega
  | case6 => simp at h

def lineString : Scan String where
  read
    | '"' :: r => (readQuoted r).map fun (cs, r) => (String.ofList cs, r)
    | '\'' :: r => (readLiteral r).map fun (cs, r) => (String.ofList cs, r)
    | _ => none
  shrinks {s _ r} h := by
    split at h
    · obtain ⟨p, hp, h⟩ := Option.map_eq_some_iff.1 h
      have := length_lt_of_readQuoted hp
      simp at h
      simp [← h.2]; omega
    · obtain ⟨p, hp, h⟩ := Option.map_eq_some_iff.1 h
      have := length_lt_of_readLiteral hp
      simp at h
      simp [← h.2]; omega
    · simp at h

def linesString : Scan String where
  read
    | '"' :: '"' :: '"' :: r =>
      (readQuotedLines (dropLineEnd r)).map fun (cs, r) => (String.ofList cs, r)
    | '\'' :: '\'' :: '\'' :: r =>
      (readLiteralLines (dropLineEnd r)).map fun (cs, r) => (String.ofList cs, r)
    | _ => none
  shrinks {s _ r} h := by
    split at h
    · rename_i t
      obtain ⟨p, hp, h⟩ := Option.map_eq_some_iff.1 h
      have := length_lt_of_readQuotedLines hp
      have := length_dropLineEnd_le t
      simp at h
      simp [← h.2]; omega
    · rename_i t
      obtain ⟨p, hp, h⟩ := Option.map_eq_some_iff.1 h
      have := length_lt_of_readLiteralLines hp
      have := length_dropLineEnd_le t
      simp at h
      simp [← h.2]; omega
    · simp at h

end TypeCatalog.Toml
