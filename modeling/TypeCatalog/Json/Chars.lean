import TypeCatalog.Json.Fault
import TypeCatalog.Text.Quoted

/-! Strings. `readString` decodes the text after an opening quote up to the closing one,
`skipString` only finds the closing one: it lets unpaired surrogates pass. -/
namespace TypeCatalog.Json

open Text (byteCount hexDigit?)

/-- The number written by four hexadecimal digits. A fault lies after the four bytes that
should have held them. -/
def readHex (s : List Char) : Except Fault (Nat × List Char) :=
  match s with
  | a :: b :: c :: d :: r =>
    match hexDigit? a, hexDigit? b, hexDigit? c, hexDigit? d with
    | some w, some x, some y, some z => .ok (4096 * w + 256 * x + 16 * y + z, r)
    | _, _, _, _ => .error fault
  | _ => .error fault
where
  fault : Fault := if byteCount s < 4 then .before .endInString [] else ⟨.invalidEscape, s, 4⟩

def isLeading (n : Nat) : Bool := 0xD800 ≤ n && n ≤ 0xDBFF

def isTrailing (n : Nat) : Bool := 0xDC00 ≤ n && n ≤ 0xDFFF

def pairChar (leading trailing : Nat) : Char :=
  Char.ofNat (0x10000 + 0x400 * (leading - 0xD800) + (trailing - 0xDC00))

/-- The second half of a pair, which must come as an escape of its own. -/
def readTrailing (leading : Nat) (s : List Char) : Except Fault (Char × List Char) :=
  match s with
  | [] => .error (.before .endInString [])
  | ['\\'] => .error (.before .endInString [])
  | '\\' :: 'u' :: r =>
    match readHex r with
    | .error f => .error f
    | .ok (n, r) =>
      if isTrailing n then .ok (pairChar leading n, r) else .error (.before .loneSurrogate r)
  | '\\' :: r => .error (.next .unfinishedPair r)
  | s => .error (.next .unfinishedPair s)

def escaped? (letter : Char) : Option Char :=
  match letter with
  | '"' => some '"'
  | '\\' => some '\\'
  | '/' => some '/'
  | 'b' => some '\x08'
  | 'f' => some '\x0c'
  | 'n' => some '\n'
  | 'r' => some '\r'
  | 't' => some '\t'
  | _ => none

def readEscape (s : List Char) : Except Fault (Char × List Char) :=
  match s with
  | [] => .error (.before .endInString [])
  | 'u' :: r =>
    match readHex r with
    | .error f => .error f
    | .ok (n, r) =>
      if isTrailing n then .error (.before .loneSurrogate r)
      else if isLeading n then readTrailing n r
      else .ok (Char.ofNat n, r)
  | letter :: r =>
    match escaped? letter with
    | some c => .ok (c, r)
    | none => .error (.next .invalidEscape s)

theorem length_of_readHex {s r : List Char} {n : Nat} (h : readHex s = .ok (n, r)) :
    s.length = r.length + 4 := by
  unfold readHex at h
  split at h
  · split at h <;> simp_all
  · simp at h

theorem length_lt_of_readTrailing {n : Nat} {s r : List Char} {c : Char}
    (h : readTrailing n s = .ok (c, r)) : r.length < s.length := by
  unfold readTrailing at h
  split at h <;> try simp at h
  rename_i t
  split at h
  · simp at h
  · rename_i m u hu
    have := length_of_readHex hu
    split at h <;> simp_all
    omega

theorem length_lt_of_readEscape {s r : List Char} {c : Char} (h : readEscape s = .ok (c, r)) :
    r.length < s.length := by
  unfold readEscape at h
  split at h
  · simp at h
  · rename_i t
    split at h
    · simp at h
    · rename_i m u hu
      have := length_of_readHex hu
      split at h
      · simp at h
      · split at h
        · have := length_lt_of_readTrailing h
          simp; omega
        · cases h
          simp only [List.length_cons]
          omega
  · split at h <;> simp_all

def readString (s : List Char) : Except Fault (List Char × List Char) :=
  match s with
  | [] => .error (.before .endInString [])
  | '"' :: r => .ok ([], r)
  | '\\' :: r =>
    match _h : readEscape r with
    | .error f => .error f
    | .ok (c, r) => (readString r).map fun (cs, r) => (c :: cs, r)
  | c :: r =>
    if c.toNat < 0x20 then .error (.next .controlCharacter s)
    else (readString r).map fun (cs, r) => (c :: cs, r)
termination_by s.length
decreasing_by
  · have := length_lt_of_readEscape _h
    simp; omega
  · simp

theorem length_lt_of_readString {s r cs : List Char} (h : readString s = .ok (cs, r)) :
    r.length < s.length := by
  fun_induction readString s generalizing cs r with
  | case1 => simp at h
  | case2 => simp_all
  | case3 => simp at h
  | case4 t c u hu ih =>
    have := length_lt_of_readEscape hu
    cases hr : readString u with
    | error f => simp [hr, Except.map] at h
    | ok p =>
      simp [hr, Except.map] at h
      have := ih hr
      simp [← h.2]; omega
  | case5 => simp at h
  | case6 c t _ _ _ ih =>
    cases hr : readString t with
    | error f => simp [hr, Except.map] at h
    | ok p =>
      simp [hr, Except.map] at h
      have := ih hr
      simp [← h.2]; omega

/-- An escape after its backslash, in a string whose value does not matter. -/
def skipEscape (s : List Char) : Except Fault (List Char) :=
  match s with
  | [] => .error (.before .endInString [])
  | 'u' :: r => (readHex r).map (·.2)
  | letter :: r => if (escaped? letter).isSome then .ok r else .error (.next .invalidEscape s)

theorem length_lt_of_skipEscape {s r : List Char} (h : skipEscape s = .ok r) :
    r.length < s.length := by
  unfold skipEscape at h
  split at h
  · simp at h
  · rename_i t
    cases hr : readHex t with
    | error f => simp [hr, Except.map] at h
    | ok p =>
      have := length_of_readHex hr
      simp [hr, Except.map] at h
      simp [← h]; omega
  · split at h <;> simp_all

def skipString (s : List Char) : Except Fault (List Char) :=
  match s with
  | [] => .error (.before .endInString [])
  | '"' :: r => .ok r
  | '\\' :: r =>
    match _h : skipEscape r with
    | .error f => .error f
    | .ok r => skipString r
  | c :: r => if c.toNat < 0x20 then .error (.before .controlCharacter s) else skipString r
termination_by s.length
decreasing_by
  · have := length_lt_of_skipEscape _h
    simp; omega
  · simp

theorem length_lt_of_skipString {s r : List Char} (h : skipString s = .ok r) :
    r.length < s.length := by
  fun_induction skipString s with
  | case1 => simp at h
  | case2 => simp_all
  | case3 => simp at h
  | case4 t u hu ih =>
    have := length_lt_of_skipEscape hu
    have := ih h
    simp; omega
  | case5 => simp at h
  | case6 c t _ _ _ ih =>
    have := ih h
    simp; omega

end TypeCatalog.Json
