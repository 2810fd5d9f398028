import TypeCatalog.Json.Fault

/-! Numbers. `scanNumeral` finds the digits, `Numeral.number` says what they stand for: an
integer if one word can hold it, otherwise a double made of a significand of one word and a
power of ten. -/
namespace TypeCatalog.Json

inductive Number where
  | integer (n : Int)
  | float (f : Float)

/-- The parts of a number after its sign. A fraction or an exponent that is written has digits. -/
structure Numeral where
  whole : List Char
  fraction : List Char
  exponent? : Option (Bool × List Char)
deriving DecidableEq, Repr

/-- The digits before the point; no other digit follows a leading zero. `atEnd` is the cause to
give where the text ends too early. -/
def scanWhole (atEnd : Cause) : List Char → Except Fault (List Char × List Char)
  | [] => .error (.before atEnd [])
  | c :: r =>
    if c = '0' then
      if (r.head?.any Char.isDigit) then .error (.next .invalidNumber r) else .ok (['0'], r)
    else if c.isDigit then .ok (c :: r.takeWhile Char.isDigit, r.dropWhile Char.isDigit)
    else .error (.next .invalidNumber (c :: r))

def scanFraction (atEnd : Cause) : List Char → Except Fault (List Char × List Char)
  | '.' :: r =>
    match r with
    | [] => .error (.before atEnd [])
    | c :: t =>
      if c.isDigit then .ok (c :: t.takeWhile Char.isDigit, t.dropWhile Char.isDigit)
      else .error (.next .invalidNumber r)
  | s => .ok ([], s)

def dropSign : List Char → Bool × List Char
  | '-' :: r => (true, r)
  | '+' :: r => (false, r)
  | s => (false, s)

def scanExponent (atEnd : Cause) : List Char → Except Fault (Option (Bool × List Char) × List Char)
  | [] => .ok (none, [])
  | e :: r =>
    if e = 'e' ∨ e = 'E' then
      match dropSign r with
      | (_, []) => .error (.before atEnd [])
      | (negative, c :: t) =>
        if c.isDigit then
          .ok (some (negative, c :: t.takeWhile Char.isDigit), t.dropWhile Char.isDigit)
        else .error (.next .invalidNumber (c :: t))
    else .ok (none, e :: r)

def scanNumeral (atEnd : Cause) (s : List Char) : Except Fault (Numeral × List Char) := do
  let (whole, s) ← scanWhole atEnd s
  let (fraction, s) ← scanFraction atEnd s
  let (exponent?, s) ← scanExponent atEnd s
  return (⟨whole, fraction, exponent?⟩, s)

theorem length_dropWhile_le (p : Char → Bool) (s : List Char) :
    (s.dropWhile p).length ≤ s.length := (List.dropWhile_sublist p).length_le

theorem length_lt_of_scanWhole {e : Cause} {s ds r : List Char}
    (h : scanWhole e s = .ok (ds, r)) : r.length < s.length := by
  unfold scanWhole at h
  split at h
  · simp at h
  · rename_i c t
    have := length_dropWhile_le Char.isDigit t
    split at h
    · split at h <;> simp_all
    · split at h
      · cases h
        simp only [List.length_cons]
        omega
      · cases h

theorem length_le_of_scanFraction {e : Cause} {s ds r : List Char}
    (h : scanFraction e s = .ok (ds, r)) : r.length ≤ s.length := by
  unfold scanFraction at h
  split at h
  · split at h
    · simp at h
    · rename_i c t
      have := length_dropWhile_le Char.isDigit t
      split at h <;> simp_all
      omega
  · simp_all

theorem length_dropSign_le (s : List Char) : (dropSign s).2.length ≤ s.length := by
  unfold dropSign
  split <;> simp

theorem length_le_of_scanExponent {e : Cause} {s r : List Char} {x : Option (Bool × List Char)}
    (h : scanExponent e s = .ok (x, r)) : r.length ≤ s.length := by
  unfold scanExponent at h
  split at h
  · simp_all
  · rename_i c t
    split at h
    · have := length_dropSign_le t
      split at h
      · simp at h
      · rename_i negative d u hd
        have := length_dropWhile_le Char.isDigit u
        simp [hd] at *
        split at h <;> simp_all
        omega
    · simp_all

theorem length_lt_of_scanNumeral {e : Cause} {s r : List Char} {n : Numeral}
    (h : scanNumeral e s = .ok (n, r)) : r.length < s.length := by
  simp only [scanNumeral, bind, Except.bind, pure, Except.pure] at h
  split at h
  · simp at h
  · rename_i p₁ h₁
    split at h
    · simp at h
    · rename_i p₂ h₂
      split at h
      · simp at h
      · rename_i p₃ h₃
        have := length_lt_of_scanWhole h₁
        have := length_le_of_scanFraction h₂
        have := length_le_of_scanExponent h₃
        simp at h
        rw [← h.2]; omega

/-- Appends decimal digits to `n` as long as the number stays within `limit`, and returns the
digits left over. -/
def absorb (limit n : Nat) : List Char → Nat × List Char
  | [] => (n, [])
  | d :: ds =>
    let m := 10 * n + (d.toNat - '0'.toNat)
    if m ≤ limit then absorb limit m ds else (n, d :: ds)

def powerOfTen (n : Nat) : Float := OfScientific.ofScientific 1 false n

/-- `f * 10 ^ e` in one rounding step for every 308 powers; `none` beyond the largest double. -/
def scaled? (f : Float) (e : Int) : Option Float :=
  if f == 0 then some f
  else if 308 < e then none
  else if 0 ≤ e then
    let product := f * powerOfTen e.toNat
    if product.isInf then none else some product
  else if -308 ≤ e then some (f / powerOfTen (-e).toNat)
  else scaled? (f / powerOfTen 308) (e + 308)
termination_by (-e).toNat

def compose (negative : Bool) (significand : Nat) (e : Int) (rest : List Char) :
    Except Fault Number :=
  match scaled? significand.toUInt64.toFloat e with
  | none => .error (.before .outOfRange rest)
  | some f => .ok (.float (if negative then -f else f))

def greatestWord : Nat := 0xFFFFFFFFFFFFFFFF

def greatestNegated : Nat := 0x8000000000000000

def greatestExponent : Nat := 0x7FFFFFFF

/-- The value of a number whose text is followed by `rest`. Digits beyond the range of one word
only count as powers of ten. -/
def Numeral.number (negative : Bool) (n : Numeral) (rest : List Char) : Except Fault Number :=
  let (integral, surplus) := absorb greatestWord 0 n.whole
  let (significand, ignored) := absorb greatestWord integral n.fraction
  let shift : Int := surplus.length - (n.fraction.length - ignored.length : Nat)
  match n.exponent? with
  | some (down, digits) =>
    match absorb greatestExponent 0 digits with
    | (e, []) => compose negative significand (if down then shift - e else shift + e) rest
    | (_, _ :: digits) =>
      -- the exponent itself is too large, which only a zero survives on the way up
      if significand ≠ 0 ∧ !down then .error (.before .outOfRange (digits ++ rest))
      else .ok (.float (if negative then -0.0 else 0.0))
  | none =>
    if !n.fraction.isEmpty ∨ !surplus.isEmpty then compose negative significand shift rest
    else if !negative then .ok (.integer significand)
    else if 0 < significand ∧ significand ≤ greatestNegated then .ok (.integer (-significand))
    else compose negative significand 0 rest

def readNumber (negative : Bool) (s : List Char) : Except Fault (Number × List Char) := do
  let (n, r) ← scanNumeral .endInValue s
  return (← n.number negative r, r)

/-- What follows a number after its sign; its size does not matter. -/
def skipNumber (s : List Char) : Except Fault (List Char) :=
  (scanNumeral .invalidNumber s).map (·.2)

theorem length_lt_of_skipNumber {s r : List Char} (h : skipNumber s = .ok r) :
    r.length < s.length := by
  unfold skipNumber at h
  cases hn : scanNumeral .invalidNumber s with
  | error f => simp [hn, Except.map] at h
  | ok p =>
    have := length_lt_of_scanNumeral hn
    simp [hn, Except.map] at h
    rw [← h]; exact this

end TypeCatalog.Json
