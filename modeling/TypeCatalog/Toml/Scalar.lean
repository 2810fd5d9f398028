import TypeCatalog.Toml.Item
import TypeCatalog.Toml.Scan

/-! Values without quotes: truth values, numbers, dates and times. They are read from a word,
which ends before a mark that divides values; blanks in it stand between two of its characters.
A word that is written like a number need not have a value, because the number is too large or a
character in it is no digit. -/
namespace TypeCatalog.Toml

/-- Digits, with single underscores allowed between two of them. -/
def digitGroup (isDigit : Char → Bool) : List Char → Option (List Char)
  | [] => none
  | c :: r => if isDigit c then (rest r).map (c :: ·) else none
where
  rest : List Char → Option (List Char)
    | [] => some []
    | '_' :: c :: r => if isDigit c then (rest r).map (c :: ·) else none
    | c :: r => if isDigit c then (rest r).map (c :: ·) else none

def digitValue (c : Char) : Nat :=
  if c.isDigit then c.toNat - '0'.toNat else c.toLower.toNat - 'a'.toNat + 10

def digitsValue (base : Nat) (digits : List Char) : Nat :=
  digits.foldl (fun n c => base * n + digitValue c) 0

def isHexDigit (c : Char) : Bool := c.isDigit || ('a' ≤ c.toLower && c.toLower ≤ 'f')

def wholeDigits (s : List Char) : Option (List Char) :=
  if s.head? = some '0' ∧ s ≠ ['0'] then none else digitGroup Char.isDigit s

def splitSign : List Char → Bool × List Char
  | '-' :: r => (true, r)
  | '+' :: r => (false, r)
  | s => (false, s)

/-- A signed word of 64 bits holds integers from minus this number up to one less than it. -/
def int64Bound : Int := 0x8000000000000000

def fitsInt64 (n : Int) : Bool := -int64Bound ≤ n ∧ n < int64Bound

/-- The integer that a word writes, of any size; only decimal ones may have a sign. -/
def integer? (word : List Char) : Option Int :=
  match word with
  | '0' :: 'x' :: r => (digitGroup isHexDigit r).map fun ds => (digitsValue 16 ds : Int)
  | '0' :: 'o' :: r =>
    (digitGroup (fun c => '0' ≤ c && c ≤ '7') r).map fun ds => (digitsValue 8 ds : Int)
  | '0' :: 'b' :: r =>
    (digitGroup (fun c => c == '0' || c == '1') r).map fun ds => (digitsValue 2 ds : Int)
  | _ =>
    let (negative, r) := splitSign word
    (wholeDigits r).map fun ds =>
      if negative then -(digitsValue 10 ds : Int) else digitsValue 10 ds

def infinity : Float := 1.0 / 0.0

/-- The double nearest to `n * 10 ^ e`; infinite if that is beyond the largest one. -/
def nearest (n : Nat) (e : Int) : Float :=
  let size := (Nat.toDigits 10 n).length + e
  if n = 0 ∨ size < -400 then 0.0
  else if 400 < size then infinity
  else OfScientific.ofScientific n (e < 0) e.natAbs

def isDigitOrMark (c : Char) : Bool := c.isDigit || c == '_'

def splitFraction (s : List Char) : Option (List Char × List Char) :=
  match s with
  | '.' :: r =>
    (digitGroup Char.isDigit (r.takeWhile isDigitOrMark)).map (·, r.dropWhile isDigitOrMark)
  | s => some ([], s)

/-- The exponent at the end of a number, zero where none is written. -/
def exponent? (s : List Char) : Option Int :=
  match s with
  | [] => some 0
  | c :: r =>
    if c = 'e' ∨ c = 'E' then
      let (negative, r) := splitSign r
      (digitGroup Char.isDigit r).map fun ds =>
        if negative then -(digitsValue 10 ds : Int) else digitsValue 10 ds
    else none

def withSign (negative : Bool) (magnitude : Float) : Float :=
  if negative then -magnitude else magnitude

/-- The double nearest to the number that a word writes. A number without a fraction and an
exponent is no float, however large it is. -/
def float? (word : List Char) : Option Float := do
  let (negative, r) := splitSign word
  let whole ← wholeDigits (r.takeWhile isDigitOrMark)
  let tail := r.dropWhile isDigitOrMark
  if tail.isEmpty then none
  let (fraction, r) ← splitFraction tail
  let e ← exponent? r
  return withSign negative (nearest (digitsValue 10 (whole ++ fraction)) (e - fraction.length))

def namedFloat? (word : List Char) : Option Float :=
  let (negative, r) := splitSign word
  if r = ['i', 'n', 'f'] then some (withSign negative infinity)
  else if r = ['n', 'a', 'n'] then some (withSign negative (0.0 / 0.0))
  else none

/-- Each underscore stands between two characters that are hexadecimal digits. -/
def joinsDigits : List Char → Bool
  | [] => true
  | '_' :: _ => false
  | [_] => true
  | c :: '_' :: d :: r => isHexDigit c && isHexDigit d && joinsDigits (d :: r)
  | [_, '_'] => false
  | _ :: d :: r => joinsDigits (d :: r)

/-- Words that are taken for an integer though not all of their characters need be digits. They
are a base without digits, and digits that do not begin with zero, an underscore and
characters that belong to neither a float nor a date. -/
def isLooseInteger (word : List Char) : Bool :=
  match word with
  | ['0', 'x'] | ['0', 'o'] | ['0', 'b'] => true
  | _ =>
    let r := (splitSign word).2
    let tail := r.dropWhile Char.isDigit
    r.head?.any (fun c => c.isDigit && c != '0') && tail.head? == some '_' && joinsDigits word &&
      !tail.any fun c => c == '.' || c == 'e' || c == 'E' || c == ' '

def fixedDigits (n : Nat) (s : List Char) : Option (Nat × List Char) :=
  let digits := s.take n
  if digits.length = n ∧ digits.all Char.isDigit then some (digitsValue 10 digits, s.drop n)
  else none

def dropChar (c : Char) : List Char → Option (List Char)
  | d :: r => if d = c then some r else none
  | [] => none

def daysIn (year month : Nat) : Nat :=
  if month = 2 then
    if year % 4 = 0 ∧ (year % 100 ≠ 0 ∨ year % 400 = 0) then 29 else 28
  else if month = 4 ∨ month = 6 ∨ month = 9 ∨ month = 11 then 30
  else 31

def dropDate (s : List Char) : Option (List Char) := do
  let (year, s) ← fixedDigits 4 s
  let (month, s) ← fixedDigits 2 (← dropChar '-' s)
  let (day, s) ← fixedDigits 2 (← dropChar '-' s)
  if 1 ≤ month ∧ month ≤ 12 ∧ 1 ≤ day ∧ day ≤ daysIn year month then some s else none

def dropHourMinute (s : List Char) : Option (List Char) := do
  let (hour, s) ← fixedDigits 2 s
  let (minute, s) ← fixedDigits 2 (← dropChar ':' s)
  if hour ≤ 23 ∧ minute ≤ 59 then some s else none

/-- Seconds may be left out, and second 60 is a leap second. -/
def dropTime (s : List Char) : Option (List Char) := do
  match ← dropHourMinute s with
  | ':' :: r =>
    let (second, r) ← fixedDigits 2 r
    if 60 < second then none
    match r with
    | '.' :: t => if (t.head?.any Char.isDigit) then some (t.dropWhile Char.isDigit) else none
    | r => some r
  | r => some r

def isOffset : List Char → Bool
  | [] => true
  | ['Z'] => true
  | ['z'] => true
  | '+' :: r => dropHourMinute r == some []
  | '-' :: r => dropHourMinute r == some []
  | _ => false

def isDateTimeMark (c : Char) : Bool := c == 'T' || c == 't' || c == ' '

/-- A date, a time, or a date and a time with or without an offset. -/
def isMoment (word : List Char) : Bool :=
  match dropDate word with
  | some [] => true
  | some (c :: r) => isDateTimeMark c && (dropTime r).any isOffset
  | none => dropTime word == some []

/-- All but blanks, line ends, brackets, braces, commas, equals signs and the mark of a comment. -/
def isWordChar (c : Char) : Bool :=
  !(c == ' ' || c == '\t' || c == '\n' || c == '\r' || c == '[' || c == ']' || c == '\x7b' ||
    c == '\x7d' || c == ',' || c == '=' || c == '#')

/-- A character after blanks with which the word goes on; a quote begins a string there. -/
def continuesWord : List Char → Bool
  | c :: _ => isWordChar c && c != '"' && c != '\''
  | [] => false

def splitWord (s : List Char) : List Char × List Char :=
  match _h : s.dropWhile isWordChar with
  | [] => (s, [])
  | c :: r =>
    if isBlank c && continuesWord (skipBlank r) then
      let (more, t) := splitWord (skipBlank r)
      (s.takeWhile isWordChar ++ c :: r.takeWhile isBlank ++ more, t)
    else (s.takeWhile isWordChar, c :: r)
termination_by s.length
decreasing_by
  have := (List.dropWhile_sublist isWordChar (l := s)).length_le
  have := length_skipBlank_le r
  rw [_h, List.length_cons] at *
  omega

namespace Item

/-- Integers are those of a signed word of 64 bits, and no float is infinite unless by name. -/
def ofNumber? (span : Span) (word : List Char) : Option Item :=
  match integer? word, float? word, namedFloat? word with
  | some n, _, _ => some (if fitsInt64 n then .integer span n else .badNumber span)
  | none, some f, _ => some (if f.isInf then .badNumber span else .float span f)
  | none, none, some f => some (.float span f)
  | none, none, none => if isLooseInteger word then some (.badNumber span) else none

def ofWord? (span : Span) (word : List Char) : Option Item :=
  if word = ['t', 'r', 'u', 'e'] then some (.boolean span true)
  else if word = ['f', 'a', 'l', 's', 'e'] then some (.boolean span false)
  else if isMoment word then some (.moment span)
  else ofNumber? span word

end Item

theorem length_splitWord_le (s : List Char) : (splitWord s).2.length ≤ s.length := by
  fun_induction splitWord s with
  | case1 => exact Nat.zero_le _
  | case2 s c r h _ more t ht ih =>
    have := (List.dropWhile_sublist isWordChar (l := s)).length_le
    have := length_skipBlank_le r
    rw [ht] at ih
    rw [h, List.length_cons] at *
    dsimp only at ih ⊢
    omega
  | case3 s c r h =>
    have := (List.dropWhile_sublist isWordChar (l := s)).length_le
    rw [h] at this
    exact this

theorem length_lt_of_splitWord_ne {s : List Char} (h : (splitWord s).1 ≠ []) :
    (splitWord s).2.length < s.length := by
  have hs := (List.dropWhile_sublist isWordChar (l := s)).length_le
  rw [splitWord] at h ⊢
  split at h
  · rename_i hd
    cases s with
    | nil => exact absurd rfl h
    | cons => exact Nat.zero_lt_succ _
  · rename_i c r hd
    split at h
    · rename_i hc
      have := length_splitWord_le (skipBlank r)
      have := length_skipBlank_le r
      rw [if_pos hc]
      rw [hd, List.length_cons] at hs
      dsimp only
      omega
    · rename_i hc
      rw [if_neg hc]
      cases s with
      | nil => exact absurd rfl h
      | cons d t =>
        by_cases hw : isWordChar d
        · have := (List.dropWhile_sublist isWordChar (l := t)).length_le
          rw [List.dropWhile_cons_of_pos hw] at hd
          rw [hd] at this
          exact Nat.lt_succ_of_le this
        · rw [List.takeWhile_cons_of_neg hw] at h
          exact absurd rfl h

end TypeCatalog.Toml
