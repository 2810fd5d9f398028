import TypeCatalog.Proofs.Catalog.Declarations
import TypeCatalog.Proofs.Json.Compact

/-! The names that are made of keys. Every one of them is a word or a quoted literal, but a word may
begin with a digit: the first character of a key is treated like all others. A property name says
which key is meant, so no two keys have one, and in the lookup interface each key has a line of its
own. -/
namespace TypeCatalog

namespace Identifier

/-- A word that does not begin with a digit, so that it can be told from a number. -/
structure IsName (text : String) : Prop where
  filled : text ≠ ""
  word : ∀ c ∈ text.toList, isWord c = true
  start : ∀ c ∈ text.toList.head?, c.isDigit = false

/-- A string of the JSON grammar and nothing else, with its quotes. -/
def IsLiteral (text : String) : Prop :=
  ∃ pieces, Json.Grammar.Begins text.toList (.string pieces) []

theorem isName_iff {text : String} : IsName text ↔ text ≠ "" ∧ text.toList.all isWord = true ∧
    text.toList.head?.all (fun c => !c.isDigit) = true := by
  simp only [List.all_eq_true, Option.all_eq_true, Bool.not_eq_true']
  constructor
  · rintro ⟨filled, word, start⟩
    exact ⟨filled, word, start⟩
  · rintro ⟨filled, word, start⟩
    exact ⟨filled, word, start⟩

instance (text : String) : Decidable (IsName text) := decidable_of_iff _ isName_iff.symm

theorem head?_ofKey {key : String} (filled : key ≠ "") :
    (ofKey key).toList.head? = key.toList.head?.map fun c => if isWord c then c else '_' := by
  rw [ofKey, if_neg (by simpa [String.isEmpty_iff] using filled), String.toList_map, List.head?_map]

theorem isDigit_replaced (c : Char) :
    Char.isDigit (if isWord c then c else '_') = c.isDigit := by
  split
  · rfl
  · rename_i other
    have plain : c.isDigit = false := by
      cases digit : c.isDigit with
      | false => rfl
      | true => simp [isWord, Char.isAlphanum, digit] at other
    rw [plain]
    decide

/-- No character but the first is looked at, and it is a digit only if the key's is. -/
theorem isName_ofKey_iff {key : String} :
    IsName (ofKey key) ↔ ∀ c ∈ key.toList.head?, c.isDigit = false := by
  have start : (∀ c ∈ (ofKey key).toList.head?, c.isDigit = false) ↔
      ∀ c ∈ key.toList.head?, c.isDigit = false := by
    by_cases filled : key = ""
    · subst filled
      have start : (ofKey "").toList.head? = some '_' := by decide
      simp [start, Char.isDigit]
    · rw [head?_ofKey filled]
      cases key.toList.head? <;> simp [isDigit_replaced]
  rw [← start]
  exact ⟨IsName.start, fun start => ⟨ofKey_ne_empty key, fun _ => isWord_of_mem_ofKey, start⟩⟩

theorem isLiteral_quote (key : String) : IsLiteral (Text.quote key) := by
  have reads := Json.Value.reads_string key []
  rw [List.append_nil] at reads
  exact ⟨_, reads⟩

theorem not_isLiteral_of_word {text : String} (word : ∀ c ∈ text.toList, isWord c = true) :
    ¬IsLiteral text := by
  rintro ⟨pieces, begins⟩
  cases spelt : text.toList with
  | nil =>
    rw [spelt] at begins
    cases begins
  | cons c rest =>
    rw [spelt] at begins word
    cases begins
    exact absurd (word '"' List.mem_cons_self) (by decide)

/-- What the key is when it is no word makes a literal of it, so only a word can be at fault. -/
theorem isName_or_isLiteral_iff {key : String} :
    property key = key ∧ IsName key ∨ IsLiteral (property key) ↔
      (∀ c ∈ key.toList.head?, c.isDigit = false) ∨ ∃ c ∈ key.toList, isWord c = false := by
  by_cases quotes : needsQuotes key = true
  · have literal : IsLiteral (property key) := by
      rw [property, if_pos quotes]
      exact isLiteral_quote key
    have known : key = "" ∨ ∃ c ∈ key.toList, isWord c = false := by
      simpa [needsQuotes, String.isEmpty_iff] using quotes
    refine iff_of_true (.inr literal) (known.imp_left ?_)
    rintro rfl
    simp
  · have bare : property key = key := by rw [property, if_neg quotes]
    obtain ⟨filled, word⟩ : key ≠ "" ∧ ∀ c ∈ key.toList, isWord c = true := by
      simpa [needsQuotes, String.isEmpty_iff] using quotes
    have named : IsName key ↔ ∀ c ∈ key.toList.head?, c.isDigit = false :=
      ⟨IsName.start, fun start => ⟨filled, word, start⟩⟩
    have nothing_else : ¬∃ c ∈ key.toList, isWord c = false := by simpa using word
    simp only [bare, not_isLiteral_of_word word, nothing_else, or_false, true_and, named]

end Identifier

open Identifier (IsName IsLiteral ofKey property isWord)

/-- A key gives its interface and its reference one name, and this is a word of ASCII letters,
digits and underscores. As a token it is a name exactly if the key does not begin with a digit. In
front of the reference stands the key itself or a literal. The key may stand there if it is a name,
so what stands there is no token exactly if the key is a word that begins with a digit. -/
theorem names_valid_iff (key : String) :
    (∀ fields, (Text.lines (Interface.source ⟨key, fields⟩)).head? =
      some ("interface " ++ ofKey key ++ " \x7b")) ∧
    (∀ c : Catalog, key ∈ c.keys →
      "  " ++ property key ++ ": " ++ ofKey key ∈ Text.lines c.lookup.source) ∧
    ofKey key ≠ "" ∧ (∀ letter ∈ (ofKey key).toList, isWord letter = true) ∧
    (IsName (ofKey key) ↔ ∀ first ∈ key.toList.head?, first.isDigit = false) ∧
    (property key = key ∧ IsName key ∨ IsLiteral (property key) ↔
      (∀ first ∈ key.toList.head?, first.isDigit = false) ∨
        ∃ letter ∈ key.toList, isWord letter = false) := by
  refine ⟨fun fields => ?_, fun c listed => ?_, Identifier.ofKey_ne_empty key,
    fun _ => Identifier.isWord_of_mem_ofKey, Identifier.isName_ofKey_iff,
    Identifier.isName_or_isLiteral_iff⟩
  · rw [Interface.lines_source]
    rfl
  · rw [Catalog.lines_lookup]
    apply List.mem_append_left
    exact List.mem_cons_of_mem _ (List.mem_map_of_mem listed)

/-- The key is a path that begins with a digit, and so only its property name is well spelt. -/
theorem names_of_numbered_path :
    let c := (Catalog.attach ∅ ⟨"1/é.env", []⟩).2
    "1/é.env" ∈ c.keys ∧ "  \"1/é.env\": 1___env" ∈ Text.lines c.lookup.source ∧
      ¬IsName (ofKey "1/é.env") ∧ IsLiteral (property "1/é.env") := by
  intro c
  have listed : "1/é.env" ∈ c.keys := by decide
  obtain ⟨-, references, -, -, name, literal⟩ := names_valid_iff "1/é.env"
  have digit : ¬∀ first ∈ "1/é.env".toList.head?, first.isDigit = false :=
    fun start => absurd (start '1' (by decide)) (by decide)
  have slash : ∃ letter ∈ "1/é.env".toList, isWord letter = false := ⟨'/', by decide, by decide⟩
  have line : "  \"1/é.env\": 1___env" =
      "  " ++ property "1/é.env" ++ ": " ++ ofKey "1/é.env" := by decide +kernel
  refine ⟨listed, line ▸ references c listed, mt name.mp digit, ?_⟩
  exact (literal.mpr (.inr slash)).resolve_left fun bare => absurd bare.2 (by decide +kernel)

/-- A key that is a word is left as it is, though it may begin with a digit: then the declarations
have neither a name nor a literal where one is wanted. -/
theorem names_begin_with_digit :
    Text.lines (Catalog.attach ∅ ⟨"1a", []⟩).2.declarations = ["interface 1a \x7b", "\x7d", "", "",
        "export interface MapParsers \x7b", "  1a: 1a", "\x7d"] ∧
      ¬IsName "1a" ∧ ¬IsLiteral "1a" ∧
      ¬∀ key, IsName (ofKey key) ∧
        (property key = key ∧ IsName key ∨ IsLiteral (property key)) := by
  refine ⟨by decide +kernel, by decide +kernel, ?_, fun valid => ?_⟩
  · exact Identifier.not_isLiteral_of_word (List.all_eq_true.mp (by decide))
  · exact absurd (valid "1a").1 (by decide +kernel)

namespace Identifier

/-- The keys that are spelt as they are. -/
def IsWord (key : String) : Prop := key ≠ "" ∧ ∀ c ∈ key.toList, isWord c = true

/-- A literal on one line that is read as the key. -/
structure StandsFor (text key : String) : Prop where
  literal : IsLiteral text
  printable : ∀ c ∈ text.toList, 0x20 ≤ c.toNat
  read : Json.Reader.string.parse text = .ok key

theorem needsQuotes_eq_false_iff {key : String} : needsQuotes key = false ↔ IsWord key := by
  simp [needsQuotes, IsWord]

theorem property_of_isWord {key : String} (word : IsWord key) : property key = key := by
  rw [property, needsQuotes_eq_false_iff.mpr word]
  rfl

theorem property_of_not_isWord {key : String} (other : ¬IsWord key) :
    property key = Text.quote key := by
  have quotes : needsQuotes key = true := by
    rw [← Bool.not_eq_false, needsQuotes_eq_false_iff]
    exact other
  rw [property, if_pos quotes]

/-- The literal is what the printer of values makes of the key, and this can be read back. -/
theorem parse_quote (key : String) : Json.Reader.string.parse (Text.quote key) = .ok key := by
  have printed : (Json.Value.string key).pretty 0 = (Text.quote key).toList := by
    simp [Json.Value.pretty, Json.Value.compact, Json.Value.quoted]
  have takes := Json.Reader.takes_string 0 key
  rw [printed] at takes
  exact takes.parse

theorem standsFor_quote (key : String) : StandsFor (Text.quote key) key where
  literal := isLiteral_quote key
  printable _ := Text.printable_of_mem_quote
  read := parse_quote key

theorem isWord_or_standsFor (key : String) :
    IsWord key ∧ property key = key ∨ ¬IsWord key ∧ StandsFor (property key) key := by
  by_cases word : IsWord key
  · exact .inl ⟨word, property_of_isWord word⟩
  · have literal := standsFor_quote key
    rw [← property_of_not_isWord word] at literal
    exact .inr ⟨word, literal⟩

/-- A literal begins with a quotation mark and a word does not, so a property name can be read
without knowing which of the two it is. -/
theorem property_injective : Function.Injective property := by
  intro key key' same
  have colon : (property key).toList ++ ':' :: [] = (property key').toList ++ ':' :: [] := by
    rw [same]
  exact (property_append_inj colon).1

end Identifier

open Identifier (IsWord StandsFor property ofKey)

/-- Whatever the keys are, they can be told apart by their property names: a word is its own, and
any other key is what a JSON reader makes of the literal that stands for it. So the lookup
interface has one line for each key, and no property is declared twice. -/
theorem property_names_faithful :
    (∀ key, IsWord key ∧ property key = key ∨ ¬IsWord key ∧ StandsFor (property key) key) ∧
    Function.Injective property ∧
    ∀ c : Catalog,
      Text.lines c.lookup.source = "export interface MapParsers \x7b" ::
        c.keys.map (fun key => "  " ++ property key ++ ": " ++ ofKey key) ++ ["\x7d"] ∧
      (c.keys.map property).Nodup := by
  refine ⟨Identifier.isWord_or_standsFor, Identifier.property_injective, fun c => ⟨?_, ?_⟩⟩
  · exact c.lines_lookup
  · exact c.nodup_keys.map Identifier.property_injective

end TypeCatalog
