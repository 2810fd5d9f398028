import TypeCatalog.Proofs.Json.Tokens

/-! Numbers of the grammar. A number is taken as far as it goes, so it is taken as a whole only
where the text behind it could not be more of it. -/
namespace TypeCatalog.Json

open Grammar

namespace Grammar

structure EndsNumber (r : List Char) : Prop where
  digit : ∀ c ∈ r.head?, c.isDigit = false
  point : ∀ c ∈ r.head?, c ≠ '.'
  mark : ∀ c ∈ r.head?, c ≠ 'e' ∧ c ≠ 'E'

variable {s t u r : List Char}

theorem digits_dropWhile {d : Char} (digit : d.isDigit = true) (s : List Char) :
    Digits (d :: s) (s.dropWhile Char.isDigit) := by
  refine ⟨d :: s.takeWhile Char.isDigit, by simp, ?_, by simp⟩
  intro c member
  rcases List.mem_cons.mp member with rfl | member
  · exact digit
  · exact List.mem_takeWhile_imp member

theorem Digits.cases {d : Char} (digits : Digits (d :: s) r)
    (ends : ∀ c ∈ r.head?, c.isDigit = false) :
    d.isDigit = true ∧ s.dropWhile Char.isDigit = r := by
  obtain ⟨ds, some_digit, all_digits, whole⟩ := digits
  cases ds with
  | nil => exact absurd rfl some_digit
  | cons d' ds =>
    rw [List.cons_append] at whole
    obtain ⟨rfl, rfl⟩ := List.cons.inj whole
    refine ⟨all_digits d List.mem_cons_self, ?_⟩
    have inside : ∀ c ∈ ds, c.isDigit = true :=
      fun c member => all_digits c (List.mem_cons_of_mem _ member)
    rw [List.dropWhile_append_of_pos inside]
    cases r with
    | nil => rfl
    | cons c r => simp [ends c rfl]

theorem Digits.exists_cons (digits : Digits s r) : ∃ d t, s = d :: t ∧ d.isDigit = true := by
  obtain ⟨ds, some_digit, all_digits, rfl⟩ := digits
  cases ds with
  | nil => exact absurd rfl some_digit
  | cons d ds => exact ⟨d, ds ++ r, rfl, all_digits d List.mem_cons_self⟩

/-- What follows the whole part, be it a fraction, an exponent or neither, is no digit. -/
theorem Fraction.no_digit (fraction : Fraction s t) (ends : ∀ c ∈ t.head?, c.isDigit = false) :
    ∀ c ∈ s.head?, c.isDigit = false := by
  cases fraction with
  | none => exact ends
  | some digits => simp

theorem Exponent.no_digit (exponent : Exponent s r) (ends : EndsNumber r) :
    ∀ c ∈ s.head?, c.isDigit = false ∧ c ≠ '.' := by
  cases exponent with
  | none => exact fun c member => ⟨ends.digit c member, ends.point c member⟩
  | some mark sign digits =>
    simp only [List.mem_cons, List.not_mem_nil, or_false] at mark
    rcases mark with rfl | rfl <;> simp

end Grammar

section Parts

variable {cause : Cause} {s t r ds : List Char}

theorem whole_of_scanWhole (scans : scanWhole cause s = .ok (ds, r)) : Whole s r := by
  unfold scanWhole at scans
  split at scans
  · cases scans
  · split at scans
    · rename_i zero
      subst zero
      split at scans
      · cases scans
      · cases scans
        exact .zero
    · rename_i nonzero
      split at scans
      · rename_i digit
        cases scans
        exact .other nonzero (digits_dropWhile digit _)
      · cases scans

theorem scanWhole_of_whole (cause : Cause) (whole : Whole s r)
    (ends : ∀ c ∈ r.head?, c.isDigit = false) :
    ∃ ds, scanWhole cause s = .ok (ds, r) := by
  cases whole with
  | zero =>
    have none_follows : r.head?.any Char.isDigit = false := by
      cases r with
      | nil => rfl
      | cons c r => exact ends c rfl
    exact ⟨['0'], by simp [scanWhole, none_follows]⟩
  | @other d s _ nonzero digits =>
    obtain ⟨digit, drops⟩ := digits.cases ends
    refine ⟨d :: s.takeWhile Char.isDigit, ?_⟩
    simp [scanWhole, nonzero, digit, drops]

theorem fraction_of_scanFraction (scans : scanFraction cause s = .ok (ds, r)) : Fraction s r := by
  unfold scanFraction at scans
  split at scans
  · split at scans
    · cases scans
    · split at scans
      · rename_i digit
        cases scans
        exact .some (digits_dropWhile digit _)
      · cases scans
  · cases scans
    exact .none

theorem scanFraction_of_fraction (cause : Cause) (fraction : Fraction s r)
    (ends : ∀ c ∈ r.head?, c.isDigit = false ∧ c ≠ '.') :
    ∃ ds, scanFraction cause s = .ok (ds, r) := by
  cases fraction with
  | none =>
    refine ⟨[], ?_⟩
    unfold scanFraction
    split
    · simp at ends
    · rfl
  | some digits =>
    obtain ⟨d, t, rfl, -⟩ := digits.exists_cons
    obtain ⟨digit, drops⟩ := digits.cases fun c member => (ends c member).1
    refine ⟨d :: t.takeWhile Char.isDigit, ?_⟩
    simp [scanFraction, digit, drops]

theorem sign_of_dropSign {negative : Bool} (dropped : dropSign s = (negative, t)) :
    ∃ sign, sign ∈ [[], ['+'], ['-']] ∧ s = sign ++ t := by
  unfold dropSign at dropped
  split at dropped
  · cases dropped
    exact ⟨['-'], by simp, rfl⟩
  · cases dropped
    exact ⟨['+'], by simp, rfl⟩
  · cases dropped
    exact ⟨[], by simp, rfl⟩

theorem dropSign_of_sign {sign : List Char} (known : sign ∈ [[], ['+'], ['-']]) {d : Char}
    (digit : d.isDigit = true) (t : List Char) :
    ∃ negative, dropSign (sign ++ d :: t) = (negative, d :: t) := by
  simp only [List.mem_cons, List.not_mem_nil, or_false] at known
  rcases known with rfl | rfl | rfl
  · refine ⟨false, ?_⟩
    unfold dropSign
    split
    · rename_i same
      cases same
      cases digit
    · rename_i same
      cases same
      cases digit
    · rfl
  · exact ⟨false, rfl⟩
  · exact ⟨true, rfl⟩

theorem exponent_of_scanExponent {x : Option (Bool × List Char)}
    (scans : scanExponent cause s = .ok (x, r)) : Exponent s r := by
  unfold scanExponent at scans
  split at scans
  · cases scans
    exact .none
  · rename_i e t
    split at scans
    · rename_i mark
      split at scans
      · cases scans
      · rename_i negative c u signed
        split at scans
        · rename_i digit
          cases scans
          obtain ⟨sign, known, rfl⟩ := sign_of_dropSign signed
          exact .some (by simpa using mark) known (digits_dropWhile digit u)
        · cases scans
    · cases scans
      exact .none

theorem scanExponent_of_exponent (cause : Cause) (exponent : Exponent s r) (ends : EndsNumber r) :
    ∃ x, scanExponent cause s = .ok (x, r) := by
  cases exponent with
  | none =>
    refine ⟨none, ?_⟩
    cases s with
    | nil => rfl
    | cons c s =>
      have other := ends.mark c rfl
      simp [scanExponent, other]
  | @some e sign t r mark known digits =>
    obtain ⟨d, u, rfl, -⟩ := digits.exists_cons
    obtain ⟨digit, drops⟩ := digits.cases ends.digit
    have marks : e = 'e' ∨ e = 'E' := by simpa using mark
    obtain ⟨negative, dropped⟩ := dropSign_of_sign known digit u
    refine ⟨some (negative, d :: u.takeWhile Char.isDigit), ?_⟩
    simp [scanExponent, marks, dropped, digit, drops]

end Parts

theorem skipNumber_of_magnitude {s r : List Char} (magnitude : Magnitude s r)
    (ends : EndsNumber r) : skipNumber s = .ok r := by
  cases magnitude with
  | intro whole fraction exponent =>
    have noDigit := exponent.no_digit ends
    obtain ⟨x, third⟩ := scanExponent_of_exponent .invalidNumber exponent ends
    obtain ⟨es, second⟩ := scanFraction_of_fraction .invalidNumber fraction noDigit
    obtain ⟨ds, first⟩ := scanWhole_of_whole .invalidNumber whole
      (fraction.no_digit fun c member => (noDigit c member).1)
    simp [skipNumber, scanNumeral, first, second, third, bind, Except.bind, pure, Except.pure,
      Except.map]

theorem magnitude_of_skipNumber {s r : List Char} (skips : skipNumber s = .ok r) :
    Magnitude s r := by
  simp only [skipNumber, scanNumeral, bind, Except.bind, pure, Except.pure, Except.map] at skips
  split at skips
  · cases skips
  · rename_i scanned
    cases skips
    split at scanned
    · cases scanned
    · rename_i first
      split at scanned
      · cases scanned
      · rename_i second
        split at scanned
        · cases scanned
        · rename_i third
          cases scanned
          exact .intro (whole_of_scanWhole first) (fraction_of_scanFraction second)
            (exponent_of_scanExponent third)

end TypeCatalog.Json
