import TypeCatalog.Json.Shape
import TypeCatalog.Json.Value

/-! Quoted text is read back as it was: every escape that `Text.encode` writes stands for the one
character that it was written for, and the quote that ends the text is the first bare one. -/
namespace TypeCatalog.Json

open Text (encode encodeChar shortEscape? hexDigit hexDigit? hexDigit?_hexDigit)

theorem readString_quote (r : List Char) : readString ('"' :: r) = .ok ([], r) := by
  rw [readString]

theorem readString_escape {r t : List Char} {c : Char} (escape : readEscape r = .ok (c, t)) :
    readString ('\\' :: r) = (readString t).map fun p => (c :: p.1, p.2) := by
  rw [readString]
  split
  · simp_all
  · rename_i taken
    rw [escape] at taken
    cases taken
    rfl

theorem readString_plain {c : Char} (r : List Char) (quote : c ≠ '"') (backslash : c ≠ '\\')
    (printable : 0x20 ≤ c.toNat) :
    readString (c :: r) = (readString r).map fun p => (c :: p.1, p.2) := by
  rw [readString]
  · rw [if_neg (by omega)]
  · exact quote
  · exact backslash

/-- The two tables of short escapes are inverse to each other. -/
theorem escaped?_of_shortEscape? {c letter : Char} (short : shortEscape? c = some letter) :
    escaped? letter = some c ∧ letter ≠ 'u' := by
  unfold shortEscape? at short
  split at short <;> cases short <;> decide

theorem ne_of_shortEscape?_eq_none {c : Char} (long : shortEscape? c = none) :
    c ≠ '"' ∧ c ≠ '\\' := by
  constructor <;> rintro rfl <;> cases long

theorem readEscape_letter {letter c : Char} (r : List Char) (known : escaped? letter = some c)
    (notHex : letter ≠ 'u') : readEscape (letter :: r) = .ok (c, r) := by
  rw [readEscape]
  · rw [known]
  · exact notHex

theorem readHex_byte {high low : Nat} (hh : high < 16) (hl : low < 16) (r : List Char) :
    readHex ('0' :: '0' :: hexDigit high :: hexDigit low :: r) = .ok (16 * high + low, r) := by
  have zero : hexDigit? '0' = some 0 := by decide
  simp [readHex, zero, hexDigit?_hexDigit hh, hexDigit?_hexDigit hl]

theorem readEscape_control {c : Char} (control : c.toNat < 0x20) (r : List Char) :
    readEscape ('u' :: '0' :: '0' :: hexDigit (c.toNat / 16) :: hexDigit (c.toNat % 16) :: r) =
      .ok (c, r) := by
  have value : 16 * (c.toNat / 16) + c.toNat % 16 = c.toNat := Nat.div_add_mod ..
  have trailing : isTrailing c.toNat = false := by simp [isTrailing]; omega
  have leading : isLeading c.toNat = false := by simp [isLeading]; omega
  rw [readEscape, readHex_byte (by omega) (by omega)]
  simp [value, trailing, leading]

/-- Each character is read back from what stands for it between quotes. -/
theorem readString_encodeChar (c : Char) (r : List Char) :
    readString (encodeChar c ++ r) = (readString r).map fun p => (c :: p.1, p.2) := by
  unfold encodeChar
  cases short : shortEscape? c with
  | some letter =>
    obtain ⟨known, notHex⟩ := escaped?_of_shortEscape? short
    exact readString_escape (readEscape_letter r known notHex)
  | none =>
    obtain ⟨quote, backslash⟩ := ne_of_shortEscape?_eq_none short
    by_cases control : c.toNat < 0x20
    · simp only [if_pos control]
      exact readString_escape (readEscape_control control r)
    · simp only [if_neg control]
      exact readString_plain r quote backslash (by omega)

theorem readString_encode (s r : List Char) :
    readString (encode s ++ '"' :: r) = .ok (s, r) := by
  induction s with
  | nil => exact readString_quote r
  | cons c s ih =>
    rw [Text.encode_cons, List.append_assoc, readString_encodeChar, ih]
    rfl

theorem skipBlank_cons_of_not {c : Char} (r : List Char) (solid : isBlank c = false) :
    skipBlank (c :: r) = c :: r := by
  simp [skipBlank, solid]

theorem skipBlank_append {gap : List Char} (blank : ∀ c ∈ gap, isBlank c = true) (r : List Char) :
    skipBlank (gap ++ r) = skipBlank r := by
  induction gap with
  | nil => rfl
  | cons c gap ih =>
    have head := blank c List.mem_cons_self
    have tail := ih fun x member => blank x (List.mem_cons_of_mem _ member)
    simpa [skipBlank, head] using tail

/-- A line end and its indentation are passed over as a whole. -/
theorem skipBlank_lineBreak (depth : Nat) (r : List Char) :
    skipBlank (Value.lineBreak depth ++ r) = skipBlank r := by
  apply skipBlank_append
  intro c member
  rcases List.mem_cons.mp member with rfl | member
  · decide
  · obtain rfl := List.eq_of_mem_replicate member
    decide

end TypeCatalog.Json
