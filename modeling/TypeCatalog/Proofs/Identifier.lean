import TypeCatalog.Node
import TypeCatalog.Proofs.Json.Strings

/-! Names in the printed declarations. Whatever the key, an identifier is one word and a property
name stays on its line, and the key is read back from the property name. -/
namespace TypeCatalog.Text

/-- Between quotes no control character stands for itself. -/
theorem printable_of_mem_encodeChar {c x : Char} (member : x ∈ encodeChar c) : 0x20 ≤ x.toNat := by
  have digit : ∀ n : Fin 16, 0x20 ≤ (hexDigit n).toNat := by decide
  unfold encodeChar at member
  cases short : shortEscape? c with
  | some letter =>
    have visible : 0x20 ≤ letter.toNat := by
      unfold shortEscape? at short
      split at short <;> cases short <;> decide
    simp only [short, List.mem_cons, List.not_mem_nil, or_false] at member
    rcases member with rfl | rfl
    · decide
    · exact visible
  | none =>
    simp only [short] at member
    split at member
    · rename_i control
      have high := digit ⟨c.toNat / 16, by omega⟩
      have low := digit ⟨c.toNat % 16, by omega⟩
      simp only [List.mem_cons, List.not_mem_nil, or_false] at member
      rcases member with rfl | rfl | rfl | rfl | rfl | rfl
      all_goals first | decide | assumption
    · rename_i plain
      obtain rfl := List.mem_singleton.mp member
      omega

theorem printable_of_mem_quote {s : String} {x : Char} (member : x ∈ (quote s).toList) :
    0x20 ≤ x.toNat := by
  simp only [toList_quote, List.cons_append, List.mem_cons, List.mem_append, List.not_mem_nil,
    or_false] at member
  rcases member with rfl | inside | rfl
  · decide
  · obtain ⟨c, -, inside⟩ := List.mem_flatMap.mp inside
    exact printable_of_mem_encodeChar inside
  · decide

theorem unbroken_of_printable {s : String} (printable : ∀ c ∈ s.toList, 0x20 ≤ c.toNat) :
    '\n' ∉ s.toList :=
  fun member => absurd (printable '\n' member) (by decide)

end TypeCatalog.Text

namespace TypeCatalog.Identifier

theorem printable_of_isWord {c : Char} (word : isWord c = true) : 0x20 ≤ c.toNat := by
  rcases Nat.lt_or_ge c.toNat 0x20 with control | printable
  · have none_is : ∀ n : Fin 0x20, isWord (Char.ofNat n) = false := by decide
    have other := none_is ⟨c.toNat, control⟩
    rw [Char.ofNat_toNat, word] at other
    cases other
  · exact printable

theorem isWord_of_mem_ofKey {key : String} {c : Char} (member : c ∈ (ofKey key).toList) :
    isWord c = true := by
  unfold ofKey at member
  split at member
  · obtain rfl : c = '_' := by simpa using member
    decide
  · rw [String.toList_map] at member
    obtain ⟨d, -, rfl⟩ := List.mem_map.mp member
    split
    · assumption
    · decide

theorem unbroken_ofKey (key : String) : '\n' ∉ (ofKey key).toList :=
  Text.unbroken_of_printable fun _ member => printable_of_isWord (isWord_of_mem_ofKey member)

theorem ofKey_ne_empty (key : String) : ofKey key ≠ "" := by
  unfold ofKey
  split
  · decide
  · rename_i filled
    simpa [String.isEmpty_iff, ← String.toList_eq_nil_iff] using filled

/-- A key that needs no quotes is one word. -/
theorem property_cases (key : String) :
    property key = Text.quote key ∨
      property key = key ∧ key ≠ "" ∧ ∀ c ∈ key.toList, isWord c = true := by
  unfold property
  split
  · exact .inl rfl
  · rename_i bare
    have word : key ≠ "" ∧ ∀ c ∈ key.toList, isWord c = true := by
      simpa [needsQuotes, String.isEmpty_iff] using bare
    exact .inr ⟨rfl, word⟩

theorem printable_of_mem_property {key : String} {c : Char} (member : c ∈ (property key).toList) :
    0x20 ≤ c.toNat := by
  rcases property_cases key with quoted | ⟨bare, -, word⟩
  · rw [quoted] at member
    exact Text.printable_of_mem_quote member
  · rw [bare] at member
    exact printable_of_isWord (word c member)

theorem unbroken_property (key : String) : '\n' ∉ (property key).toList :=
  Text.unbroken_of_printable fun _ member => printable_of_mem_property member

/-- The key at the start of a text, and what comes after its property name. -/
def readProperty : List Char → Option (String × List Char)
  | '"' :: rest =>
    (Json.readString rest).toOption.map fun (name, after) => (String.ofList name, after)
  | text => some (String.ofList (text.takeWhile isWord), text.dropWhile isWord)

theorem readProperty_quote (key : String) (rest : List Char) :
    readProperty ((Text.quote key).toList ++ rest) = some (key, rest) := by
  have read := Json.readString_encode key.toList rest
  simp [readProperty, read, Except.toOption]

theorem readProperty_word {key : String} (filled : key ≠ "")
    (word : ∀ c ∈ key.toList, isWord c = true) {mark : Char} (stop : isWord mark = false)
    (rest : List Char) : readProperty (key.toList ++ mark :: rest) = some (key, mark :: rest) := by
  have head : ∀ r, key.toList ++ mark :: rest ≠ '"' :: r := by
    intro r same
    cases letters : key.toList with
    | nil => exact filled (String.toList_eq_nil_iff.mp letters)
    | cons c cs =>
      rw [letters] at same word
      obtain ⟨rfl, -⟩ := List.cons.inj same
      exact absurd (word '"' List.mem_cons_self) (by decide)
  rw [readProperty]
  · simp [List.takeWhile_append_of_pos word, List.dropWhile_append_of_pos word, stop]
  · exact head

/-- No word goes on past a colon, so there is no telling the two spellings apart but by the first
character. -/
theorem readProperty_property (key : String) (rest : List Char) :
    readProperty ((property key).toList ++ ':' :: rest) = some (key, ':' :: rest) := by
  rcases property_cases key with quoted | ⟨bare, filled, word⟩
  · rw [quoted]
    exact readProperty_quote key _
  · rw [bare]
    exact readProperty_word filled word (by decide) rest

/-- In front of a colon, a property name can be told from all that comes after it. -/
theorem property_append_inj {key key' : String} {rest rest' : List Char}
    (same : (property key).toList ++ ':' :: rest = (property key').toList ++ ':' :: rest') :
    key = key' ∧ rest = rest' := by
  have read := readProperty_property key rest
  rw [same, readProperty_property] at read
  obtain ⟨rfl, after⟩ := Prod.mk.inj (Option.some.inj read)
  exact ⟨rfl, (List.cons.inj after).2.symm⟩

end TypeCatalog.Identifier
