import TypeCatalog.Proofs.Json.Numbers

/-! Values that are passed over. Going by the list of open containers, `skipValue` takes exactly
one phrase of the grammar, at any depth, and then what the open containers still need. -/
namespace TypeCatalog.Json

open Grammar

namespace Grammar

theorem Magnitude.head {s r : List Char} (magnitude : Magnitude s r) :
    ∃ d t, s = d :: t ∧ d.isDigit = true := by
  cases magnitude with
  | intro whole _ _ =>
    cases whole with
    | zero => exact ⟨'0', _, rfl, by decide⟩
    | other _ digits => exact digits.exists_cons

theorem solid_of_digit {d : Char} (digit : d.isDigit = true) : isBlank d = false ∧ d ≠ ']' := by
  constructor
  · rw [← Bool.not_eq_true, isBlank_iff]
    intro blank
    simp only [List.mem_cons, List.not_mem_nil, or_false] at blank
    rcases blank with rfl | rfl | rfl | rfl <;> cases digit
  · rintro rfl
    cases digit

/-- A phrase begins with what is neither white space nor the end of a list. -/
theorem Begins.head {s r : List Char} {p : Phrase} (begins : Begins s p r) :
    ∃ c t, s = c :: t ∧ isBlank c = false ∧ c ≠ ']' := by
  cases begins with
  | number magnitude =>
    obtain ⟨d, t, rfl, digit⟩ := magnitude.head
    exact ⟨d, t, rfl, solid_of_digit digit⟩
  | _ => exact ⟨_, _, rfl, by decide, by decide⟩

theorem Begins.skipBlank_eq {s t r : List Char} {p : Phrase} (begins : Begins t p r)
    (blanks : Blanks s t) : skipBlank s = t := by
  obtain ⟨c, u, rfl, solid, -⟩ := begins.head
  exact (skipBlank_eq_cons_iff solid).mpr blanks

/-- Numbers are the phrases that more text could make longer. -/
def Parted (p : Phrase) (r : List Char) : Prop := p = .number → EndsNumber r

theorem EndsNumber.of_blanks {s r : List Char} (blanks : Blanks s r) (ends : EndsNumber r) :
    EndsNumber s := by
  obtain ⟨gap, blank, rfl⟩ := blanks
  cases gap with
  | nil => exact ends
  | cons c gap =>
    have known := blank c List.mem_cons_self
    simp only [List.mem_cons, List.not_mem_nil, or_false] at known
    rcases known with rfl | rfl | rfl | rfl <;> exact ⟨by simp, by simp, by simp⟩

theorem EndsNumber.nil : EndsNumber [] := ⟨by simp, by simp, by simp⟩

theorem Items.endsNumber {s r : List Char} {items : List Phrase}
    (rest : Items false s items r) : EndsNumber s := by
  cases rest with
  | done ends => exact .of_blanks ends ⟨by simp, by simp, by simp⟩
  | item gap _ _ =>
    obtain ⟨t, before, -⟩ := gap
    exact .of_blanks before ⟨by simp, by simp, by simp⟩

theorem Members.endsNumber {s r : List Char} {members : List (List Piece × Phrase)}
    (rest : Members false s members r) : EndsNumber s := by
  cases rest with
  | done ends => exact .of_blanks ends ⟨by simp, by simp, by simp⟩
  | member gap _ _ _ _ _ =>
    obtain ⟨t, before, -⟩ := gap
    exact .of_blanks before ⟨by simp, by simp, by simp⟩

end Grammar

section Steps

variable {around : List Container} {s t u r : List Char}

theorem skipKey_eq_ok_iff : skipKey s = .ok r ↔
    ∃ t key u, Blanks s ('"' :: t) ∧ Pieces t key ('"' :: u) ∧ Blanks u (':' :: r) := by
  constructor
  · intro skips
    unfold skipKey at skips
    split at skips
    · rename_i t quote
      split at skips
      · cases skips
      · rename_i u skipped
        obtain ⟨key, between⟩ := skipString_eq_ok_iff.mp skipped
        exact ⟨t, key, u, (skipBlank_eq_cons_iff rfl).mp quote, between,
          readColon_eq_ok_iff.mp skips⟩
    · cases skips
    · cases skips
  · rintro ⟨t, key, u, quote, between, colon⟩
    rw [skipKey, (skipBlank_eq_cons_iff rfl).mpr quote]
    simp only [skipString_eq_ok_iff.mpr ⟨key, between⟩, readColon_eq_ok_iff.mpr colon]

theorem skipValue_scalar {c : Char} (skips : skipBlank s = c :: t) (noList : c ≠ '[')
    (noObject : c ≠ '\x7b') (scalar : skipScalar (c :: t) = .ok r) :
    skipValue around s = skipRest around r := by
  rw [skipValue]
  split
  · rename_i found
    rw [skips] at found
    exact absurd (List.cons.inj found).1 noList
  · rename_i found
    rw [skips] at found
    exact absurd (List.cons.inj found).1 noObject
  · split <;> simp_all

theorem skipValue_noItems (skips : skipBlank s = '[' :: t) (ends : skipBlank t = ']' :: r) :
    skipValue around s = skipRest around r := by
  rw [skipValue]
  split
  · split <;> simp_all
  · simp_all
  · simp_all

theorem skipValue_items {c : Char} (skips : skipBlank s = '[' :: t) (next : skipBlank t = c :: u)
    (goesOn : c ≠ ']') : skipValue around s = skipValue (.list :: around) (c :: u) := by
  rw [skipValue]
  split
  · split <;> simp_all
  · simp_all
  · simp_all

theorem skipValue_noMembers (skips : skipBlank s = '\x7b' :: t)
    (ends : skipBlank t = '\x7d' :: r) : skipValue around s = skipRest around r := by
  rw [skipValue]
  split
  · simp_all
  · split <;> simp_all
  · simp_all

theorem skipValue_members (skips : skipBlank s = '\x7b' :: t) (next : skipBlank t = '"' :: u)
    (key : skipKey ('"' :: u) = .ok r) :
    skipValue around s = skipValue (.object :: around) r := by
  rw [skipValue]
  split
  · simp_all
  · split
    · simp_all
    · split <;> simp_all
  · simp_all

theorem skipRest_item (skips : skipBlank s = ',' :: t) :
    skipRest (.list :: around) s = skipValue (.list :: around) t := by
  rw [skipRest]
  split <;> simp_all

theorem skipRest_endList (skips : skipBlank s = ']' :: t) :
    skipRest (.list :: around) s = skipRest around t := by
  rw [skipRest]
  split <;> simp_all

theorem skipRest_member (skips : skipBlank s = ',' :: t) (key : skipKey t = .ok r) :
    skipRest (.object :: around) s = skipValue (.object :: around) r := by
  rw [skipRest]
  split
  · split <;> simp_all
  all_goals simp_all

theorem skipRest_endObject (skips : skipBlank s = '\x7d' :: t) :
    skipRest (.object :: around) s = skipRest around t := by
  rw [skipRest]
  split <;> simp_all

theorem skipScalar_digit {d : Char} (digit : d.isDigit = true) (t : List Char) :
    skipScalar (d :: t) = skipNumber (d :: t) := by
  unfold skipScalar
  split
  any_goals
    rename_i same
    cases same
  any_goals cases digit
  exact if_pos digit

end Steps

mutual

theorem skipValue_of_begins {s t r : List Char} {p : Phrase} (begins : Begins t p r)
    (blanks : Blanks s t) (parted : Parted p r) (around : List Container) :
    skipValue around s = skipRest around r := by
  have skips := begins.skipBlank_eq blanks
  cases begins with
  | null => exact skipValue_scalar skips (by decide) (by decide) (readLetters_eq_ok_iff.mpr rfl)
  | isTrue => exact skipValue_scalar skips (by decide) (by decide) (readLetters_eq_ok_iff.mpr rfl)
  | isFalse => exact skipValue_scalar skips (by decide) (by decide) (readLetters_eq_ok_iff.mpr rfl)
  | number magnitude =>
    obtain ⟨d, u, rfl, digit⟩ := magnitude.head
    have taken := skipNumber_of_magnitude magnitude (parted rfl)
    rw [← skipScalar_digit digit] at taken
    refine skipValue_scalar skips ?_ ?_ taken <;> (rintro rfl; cases digit)
  | negative magnitude =>
    exact skipValue_scalar skips (by decide) (by decide)
      (skipNumber_of_magnitude magnitude (parted rfl))
  | string between =>
    exact skipValue_scalar skips (by decide) (by decide) (skipString_eq_ok_iff.mpr ⟨_, between⟩)
  | list items =>
    cases items with
    | done ends => exact skipValue_noItems skips ((skipBlank_eq_cons_iff rfl).mpr ends)
    | item gap begins others =>
      have next := begins.skipBlank_eq gap
      obtain ⟨c, u, rfl, -, goesOn⟩ := begins.head
      rw [skipValue_items skips next goesOn,
        skipValue_of_begins begins (.refl _) (fun _ => others.endsNumber) _,
        skipRest_of_items others around]
  | object members =>
    cases members with
    | done ends => exact skipValue_noMembers skips ((skipBlank_eq_cons_iff rfl).mpr ends)
    | member gap between colon blanks begins others =>
      have key := skipKey_eq_ok_iff.mpr ⟨_, _, _, .refl _, between, colon⟩
      rw [skipValue_members skips ((skipBlank_eq_cons_iff rfl).mpr gap) key,
        skipValue_of_begins begins blanks (fun _ => others.endsNumber) _,
        skipRest_of_members others around]

theorem skipRest_of_items {s r : List Char} {items : List Phrase}
    (rest : Items false s items r) (around : List Container) :
    skipRest (.list :: around) s = skipRest around r := by
  cases rest with
  | done ends => exact skipRest_endList ((skipBlank_eq_cons_iff rfl).mpr ends)
  | item gap begins others =>
    obtain ⟨t, comma, blanks⟩ := gap
    rw [skipRest_item ((skipBlank_eq_cons_iff rfl).mpr comma),
      skipValue_of_begins begins blanks (fun _ => others.endsNumber) _,
      skipRest_of_items others around]

theorem skipRest_of_members {s r : List Char} {members : List (List Piece × Phrase)}
    (rest : Members false s members r) (around : List Container) :
    skipRest (.object :: around) s = skipRest around r := by
  cases rest with
  | done ends => exact skipRest_endObject ((skipBlank_eq_cons_iff rfl).mpr ends)
  | member gap between colon blanks begins others =>
    obtain ⟨t, comma, quote⟩ := gap
    have key := skipKey_eq_ok_iff.mpr ⟨_, _, _, quote, between, colon⟩
    rw [skipRest_member ((skipBlank_eq_cons_iff rfl).mpr comma) key,
      skipValue_of_begins begins blanks (fun _ => others.endsNumber) _,
      skipRest_of_members others around]

end

theorem length_lt_of_skipBlank {s t : List Char} {c : Char} (skips : skipBlank s = c :: t) :
    t.length < s.length := by
  have shorter := length_skipBlank_le s
  rw [skips, List.length_cons] at shorter
  exact shorter

/-- What the open containers need, innermost first. -/
def Closes : List Container → List Char → List Char → Prop
  | [], s, r => s = r
  | .list :: outer, s, r => ∃ items t, Items false s items t ∧ Closes outer t r
  | .object :: outer, s, r => ∃ members t, Members false s members t ∧ Closes outer t r

theorem begins_of_skipScalar {s r : List Char} (skips : skipScalar s = .ok r) :
    ∃ p, Begins s p r := by
  unfold skipScalar at skips
  split at skips
  · cases skips
  · obtain ⟨pieces, between⟩ := skipString_eq_ok_iff.mp skips
    exact ⟨_, .string between⟩
  · obtain rfl := readLetters_eq_ok_iff.mp skips
    exact ⟨_, .null⟩
  · obtain rfl := readLetters_eq_ok_iff.mp skips
    exact ⟨_, .isTrue⟩
  · obtain rfl := readLetters_eq_ok_iff.mp skips
    exact ⟨_, .isFalse⟩
  · exact ⟨_, .negative (magnitude_of_skipNumber skips)⟩
  · split at skips
    · exact ⟨_, .number (magnitude_of_skipNumber skips)⟩
    · cases skips

mutual

theorem begins_of_skipValue {around : List Container} {s r : List Char}
    (skips : skipValue around s = .ok r) :
    ∃ t p u, Blanks s t ∧ Begins t p u ∧ Closes around u r := by
  have shorter := length_skipBlank_le s
  unfold skipValue at skips
  split at skips
  · -- a list
    rename_i t opened
    have openedLength := length_lt_of_skipBlank opened
    have innerLength := length_skipBlank_le t
    have blanks := opened ▸ Blanks.skipped s
    split at skips
    · rename_i u ended
      have endedLength := length_lt_of_skipBlank ended
      have ends := ended ▸ Blanks.skipped t
      exact ⟨_, _, u, blanks, .list (.done ends), closes_of_skipRest skips⟩
    · cases skips
    · obtain ⟨v, p, w, gap, begins, items, x, others, closes⟩ := begins_of_skipValue skips
      exact ⟨_, _, x, blanks, .list (.item ((Blanks.skipped t).trans gap) begins others), closes⟩
  · -- an object
    rename_i t opened
    have openedLength := length_lt_of_skipBlank opened
    have innerLength := length_skipBlank_le t
    have blanks := opened ▸ Blanks.skipped s
    split at skips
    · rename_i u ended
      have endedLength := length_lt_of_skipBlank ended
      have ends := ended ▸ Blanks.skipped t
      exact ⟨_, _, u, blanks, .object (.done ends), closes_of_skipRest skips⟩
    · split at skips
      · cases skips
      · rename_i v keyed
        have keyLength := length_lt_of_skipKey keyed
        obtain ⟨w, key, x, quote, between, colon⟩ := skipKey_eq_ok_iff.mp keyed
        obtain ⟨y, p, z, gap, begins, members, q, others, closes⟩ := begins_of_skipValue skips
        have first : Gap true t ('"' :: w) := (Blanks.skipped t).trans quote
        exact ⟨_, _, q, blanks, .object (.member first between colon gap begins others), closes⟩
  · -- a value that holds no others
    split at skips
    · cases skips
    · rename_i u scalar
      have scalarLength := length_lt_of_skipScalar scalar
      obtain ⟨p, begins⟩ := begins_of_skipScalar scalar
      exact ⟨_, p, u, .skipped s, begins, closes_of_skipRest skips⟩
termination_by s.length
decreasing_by all_goals omega

theorem closes_of_skipRest {around : List Container} {s r : List Char}
    (skips : skipRest around s = .ok r) : Closes around s r := by
  have shorter := length_skipBlank_le s
  unfold skipRest at skips
  split at skips
  · cases skips
    rfl
  · -- inside of a list
    split at skips
    · rename_i t comma
      have commaLength := length_lt_of_skipBlank comma
      obtain ⟨v, p, w, gap, begins, items, x, others, closes⟩ := begins_of_skipValue skips
      exact ⟨_, x, .item ⟨t, comma ▸ Blanks.skipped s, gap⟩ begins others, closes⟩
    · rename_i t ended
      have endedLength := length_lt_of_skipBlank ended
      exact ⟨[], t, .done (ended ▸ Blanks.skipped s), closes_of_skipRest skips⟩
    · cases skips
    · cases skips
  · -- inside of an object
    split at skips
    · rename_i t comma
      have commaLength := length_lt_of_skipBlank comma
      split at skips
      · cases skips
      · rename_i v keyed
        have keyLength := length_lt_of_skipKey keyed
        obtain ⟨w, key, x, quote, between, colon⟩ := skipKey_eq_ok_iff.mp keyed
        obtain ⟨y, p, z, gap, begins, members, q, others, closes⟩ := begins_of_skipValue skips
        have further : Gap false s ('"' :: w) := ⟨t, comma ▸ Blanks.skipped s, quote⟩
        exact ⟨_, q, .member further between colon gap begins others, closes⟩
    · rename_i t ended
      have endedLength := length_lt_of_skipBlank ended
      exact ⟨[], t, .done (ended ▸ Blanks.skipped s), closes_of_skipRest skips⟩
    · cases skips
    · cases skips
termination_by s.length
decreasing_by all_goals omega

end

end TypeCatalog.Json
