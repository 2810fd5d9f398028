import TypeCatalog.Json.Reader
import TypeCatalog.Proofs.Json.Tokens

/-! Steps through lists and objects. What is read in front of the next item, or of the next key, is
the gap that the grammar has there. -/
namespace TypeCatalog.Json

open Grammar

section Steps

variable {first : Bool} {s t r : List Char}

theorem nextItem_eq_end_iff (first : Bool) {s t : List Char} :
    nextItem first s = .ok (false, t) ↔ ∃ r, t = ']' :: r ∧ Blanks s (']' :: r) := by
  constructor
  · intro ends
    unfold nextItem at ends
    split at ends
    · cases ends
    · rename_i r skips
      cases ends
      exact ⟨r, rfl, (skipBlank_eq_cons_iff rfl).mp skips⟩
    · split at ends
      · cases ends
      · split at ends
        · split at ends <;> cases ends
        · cases ends
  · rintro ⟨r, rfl, ends⟩
    rw [nextItem, (skipBlank_eq_cons_iff rfl).mpr ends]
    rfl

theorem gap_of_nextItem (next : nextItem first s = .ok (true, t)) : Gap first s t := by
  unfold nextItem at next
  split at next
  · cases next
  · cases next
  · rename_i c r _ skips
    split at next
    · rename_i isFirst
      cases next
      subst isFirst
      exact skips ▸ Blanks.skipped s
    · rename_i further
      obtain rfl : first = false := by simpa using further
      split at next
      · rename_i comma
        subst comma
        split at next
        · cases next
        · cases next
        · cases next
          exact ⟨r, (skipBlank_eq_cons_iff rfl).mp skips, .skipped r⟩
      · cases next

theorem nextItem_of_gap {c : Char} (gap : Gap first s (c :: r)) (solid : isBlank c = false)
    (goesOn : c ≠ ']') : nextItem first s = .ok (true, c :: r) := by
  cases first with
  | true =>
    rw [nextItem, (skipBlank_eq_cons_iff solid).mpr gap]
    split <;> simp_all
  | false =>
    obtain ⟨t, comma, blanks⟩ := gap
    have skips := (skipBlank_eq_cons_iff solid).mpr blanks
    rw [nextItem, (skipBlank_eq_cons_iff rfl).mpr comma]
    simp [skips, goesOn]

theorem nextQuote_eq_end_iff (first : Bool) {s t : List Char} :
    nextQuote first s = .ok (false, t) ↔ ∃ r, t = '\x7d' :: r ∧ Blanks s ('\x7d' :: r) := by
  constructor
  · intro ends
    unfold nextQuote at ends
    split at ends
    · cases ends
    · rename_i r skips
      cases ends
      exact ⟨r, rfl, (skipBlank_eq_cons_iff rfl).mp skips⟩
    · split at ends
      · split at ends <;> cases ends
      · split at ends
        · split at ends <;> cases ends
        · cases ends
  · rintro ⟨r, rfl, ends⟩
    rw [nextQuote, (skipBlank_eq_cons_iff rfl).mpr ends]
    rfl

theorem nextQuote_eq_next_iff :
    nextQuote first s = .ok (true, t) ↔ Gap first s ('"' :: t) := by
  constructor
  · intro next
    unfold nextQuote at next
    split at next
    · cases next
    · cases next
    · rename_i c r _ skips
      split at next
      · rename_i isFirst
        subst isFirst
        split at next
        · rename_i quote
          cases next
          subst quote
          exact (skipBlank_eq_cons_iff rfl).mp skips
        · cases next
      · rename_i further
        obtain rfl : first = false := by simpa using further
        split at next
        · rename_i comma
          subst comma
          split at next
          · cases next
          · rename_i u quote
            cases next
            exact ⟨r, (skipBlank_eq_cons_iff rfl).mp skips, (skipBlank_eq_cons_iff rfl).mp quote⟩
          · cases next
          · cases next
        · cases next
  · intro gap
    cases first with
    | true =>
      rw [nextQuote, (skipBlank_eq_cons_iff rfl).mpr gap]
      simp
    | false =>
      obtain ⟨u, comma, quote⟩ := gap
      rw [nextQuote, (skipBlank_eq_cons_iff rfl).mpr comma]
      simp [(skipBlank_eq_cons_iff rfl).mpr quote]

theorem nextKey_eq_end_iff :
    nextKey first s = .ok (none, t) ↔ ∃ r, t = '\x7d' :: r ∧ Blanks s ('\x7d' :: r) := by
  rw [← nextQuote_eq_end_iff first, nextKey]
  split
  · simp_all
  · simp_all
  · split <;> simp_all

theorem nextKey_eq_next_iff {name : String} :
    nextKey first s = .ok (some name, t) ↔ ∃ u key, Gap first s ('"' :: u) ∧
      Pieces u key ('"' :: t) ∧ Denotes key name.toList := by
  constructor
  · intro next
    unfold nextKey at next
    split at next
    · cases next
    · cases next
    · rename_i u quote
      split at next
      · cases next
      · rename_i chars v reads
        cases next
        obtain ⟨key, between, denotes⟩ := readString_eq_ok_iff.mp reads
        exact ⟨u, key, nextQuote_eq_next_iff.mp quote, between, by simpa using denotes⟩
  · rintro ⟨u, key, quote, between, denotes⟩
    simp [nextKey, nextQuote_eq_next_iff.mpr quote,
      readString_eq_ok_iff.mpr ⟨key, between, denotes⟩]

end Steps

end TypeCatalog.Json
