import TypeCatalog.Json.Shape
import TypeCatalog.Proofs.Json.Skipping
import TypeCatalog.Proofs.Json.Steps

/-! Readers against the grammar. A reader takes the phrases that have a meaning, each with its
meaning, and no others. -/
namespace TypeCatalog.Json

open Grammar

variable {α β : Type}

/-- The reader takes exactly the phrases to which `means` gives a value, as that value. -/
structure Reader.Decodes (reader : Reader α) (means : Phrase → α → Prop) : Prop where
  sound : ∀ {s r a}, reader.read s = .ok (a, r) → ∃ t p, Blanks s t ∧ Begins t p r ∧ means p a
  complete : ∀ {s t r p a}, Blanks s t → Begins t p r → Parted p r → means p a →
    reader.read s = .ok (a, r)

inductive Phrase.Spells : Phrase → String → Prop where
  | string {pieces : List Piece} {name : String} :
      Denotes pieces name.toList → Phrase.Spells (.string pieces) name

inductive Phrase.Holds : Phrase → Bool → Prop where
  | boolean {b : Bool} : Phrase.Holds (.boolean b) b

namespace Reader

theorem decodes_string : string.Decodes Phrase.Spells where
  sound {s r a} reads := by
    simp only [string] at reads
    split at reads
    · rename_i t quote
      obtain ⟨_, inner, ⟨⟩⟩ := map_eq_ok_iff.mp reads
      obtain ⟨pieces, between, denotes⟩ := readString_eq_ok_iff.mp inner
      exact ⟨_, _, (skipBlank_eq_cons_iff rfl).mp quote, .string between,
        .string (by simpa using denotes)⟩
    · cases reads
  complete {s t r p a} blanks begins _ spells := by
    cases spells with
    | string denotes =>
      cases begins with
      | string between =>
        simp only [string, (skipBlank_eq_cons_iff rfl).mpr blanks]
        simp [readString_eq_ok_iff.mpr ⟨_, between, denotes⟩, Except.map]

theorem map_readLetters_eq_ok_iff {w s r : List Char} {a b : α} :
    (readLetters w s).map (a, ·) = .ok (b, r) ↔ s = w ++ r ∧ a = b := by
  rw [map_eq_ok_iff]
  constructor
  · rintro ⟨t, reads, ⟨⟩⟩
    exact ⟨readLetters_eq_ok_iff.mp reads, rfl⟩
  · rintro ⟨spelt, rfl⟩
    exact ⟨r, readLetters_eq_ok_iff.mpr spelt, rfl⟩

theorem decodes_boolean : boolean.Decodes Phrase.Holds where
  sound {s r a} reads := by
    simp only [boolean] at reads
    split at reads
    · rename_i t word
      obtain ⟨rfl, rfl⟩ := map_readLetters_eq_ok_iff.mp reads
      exact ⟨_, _, (skipBlank_eq_cons_iff rfl).mp word, .isTrue, .boolean⟩
    · rename_i t word
      obtain ⟨rfl, rfl⟩ := map_readLetters_eq_ok_iff.mp reads
      exact ⟨_, _, (skipBlank_eq_cons_iff rfl).mp word, .isFalse, .boolean⟩
    · cases reads
  complete {s t r p a} blanks begins _ holds := by
    cases holds with
    | boolean =>
      cases begins with
      | isTrue =>
        simp only [boolean, (skipBlank_eq_cons_iff rfl).mpr blanks]
        exact map_readLetters_eq_ok_iff.mpr ⟨rfl, rfl⟩
      | isFalse =>
        simp only [boolean, (skipBlank_eq_cons_iff rfl).mpr blanks]
        exact map_readLetters_eq_ok_iff.mpr ⟨rfl, rfl⟩

/-- Values that do not matter may be anything. -/
theorem decodes_ignored : ignored.Decodes fun _ _ => True where
  sound {s r a} reads := by
    obtain ⟨_, skips, ⟨⟩⟩ := map_eq_ok_iff.mp reads
    obtain ⟨t, p, _, blanks, begins, rfl⟩ := begins_of_skipValue skips
    exact ⟨t, p, blanks, begins, trivial⟩
  complete {s t r p a} blanks begins parted _ := by
    have skips := skipValue_of_begins begins blanks parted []
    rw [skipRest] at skips
    simp [ignored, skips, Except.map]

theorem Decodes.congr {reader : Reader α} {means means' : Phrase → α → Prop}
    (decodes : reader.Decodes means) (same : ∀ p a, means p a ↔ means' p a) :
    reader.Decodes means' := by
  obtain rfl : means = means' := funext fun p => funext fun a => propext (same p a)
  exact decodes

theorem Decodes.map {reader : Reader α} {means : Phrase → α → Prop} (decodes : reader.Decodes means)
    (f : α → β) : (reader.map f).Decodes fun p b => ∃ a, means p a ∧ f a = b where
  sound {s r b} reads := by
    obtain ⟨_, inner, ⟨⟩⟩ := map_eq_ok_iff.mp reads
    obtain ⟨t, p, blanks, begins, meant⟩ := decodes.sound inner
    exact ⟨t, p, blanks, begins, _, meant, rfl⟩
  complete {s t r p b} blanks begins parted := by
    rintro ⟨a, meant, rfl⟩
    simp [Reader.map, decodes.complete blanks begins parted meant, Except.map]

/-- What `null` means here it may not mean to the reader of the other values. -/
theorem Decodes.orNull {reader : Reader α} {means : Phrase → α → Prop}
    (decodes : reader.Decodes means) (other : ∀ a, ¬means .null a) :
    reader.orNull.Decodes fun p a? => match a? with
      | none => p = .null
      | some a => means p a where
  sound {s r a?} reads := by
    simp only [Reader.orNull] at reads
    split at reads
    · rename_i t word
      obtain ⟨rfl, rfl⟩ := map_readLetters_eq_ok_iff.mp reads
      exact ⟨_, _, (skipBlank_eq_cons_iff rfl).mp word, .null, rfl⟩
    · obtain ⟨_, inner, ⟨⟩⟩ := map_eq_ok_iff.mp reads
      obtain ⟨t, p, blanks, begins, meant⟩ := decodes.sound inner
      exact ⟨t, p, (Blanks.skipped s).trans blanks, begins, meant⟩
  complete {s t r p a?} blanks begins parted meant := by
    have skips := begins.skipBlank_eq blanks
    cases a? with
    | none =>
      subst meant
      cases begins with
      | null =>
        simp only [Reader.orNull, skips]
        exact map_readLetters_eq_ok_iff.mpr ⟨rfl, rfl⟩
    | some a =>
      have reads := decodes.complete (.refl t) begins parted meant
      simp only [Reader.orNull, skips]
      split
      · rename_i u
        -- only `null` begins like this
        cases begins with
        | null => exact absurd meant (other a)
        | number magnitude =>
          obtain ⟨d, v, same, digit⟩ := magnitude.head
          obtain ⟨rfl, -⟩ := List.cons.inj same
          cases digit
      · simp [reads, Except.map]

end Reader

end TypeCatalog.Json
