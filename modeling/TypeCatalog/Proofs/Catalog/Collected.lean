import Mathlib.Data.Finset.Card
import TypeCatalog.Proofs.Catalog.Definition
import TypeCatalog.Proofs.Catalog.Upserts
import TypeCatalog.Proofs.Except

/-! Catalogs made of a list of pairs, in which keys may come again: collected at once, put in one
after the other, or read from a definition that spells the list. -/
namespace TypeCatalog

/-- Without repetitions a list is in the order of the places where its members came first. -/
theorem pairwise_idxOf_eraseDups {κ : Type} [DecidableEq κ] (keys : List κ) :
    keys.eraseDups.Pairwise fun first later => keys.idxOf first < keys.idxOf later := by
  induction keys using List.reverseRecOn with
  | nil => exact .nil
  | append_singleton keys key ih =>
    have earlier {other : κ} (listed : other ∈ keys) :
        (keys ++ [key]).idxOf other = keys.idxOf other := List.idxOf_append_of_mem listed
    have before : keys.eraseDups.Pairwise fun first later =>
        (keys ++ [key]).idxOf first < (keys ++ [key]).idxOf later := by
      refine ih.imp_of_mem fun first later => ?_
      rw [earlier (List.mem_eraseDups.mp first), earlier (List.mem_eraseDups.mp later)]
      exact id
    rw [OrderedMap.eraseDups_concat]
    split
    · exact before
    · rename_i new
      refine List.pairwise_append.mpr ⟨before, List.pairwise_singleton .., ?_⟩
      intro other listed last same
      rw [List.mem_eraseDups] at listed
      obtain rfl := List.mem_singleton.mp same
      rw [earlier listed, List.idxOf_append_of_notMem new]
      exact Nat.lt_add_right _ (List.idxOf_lt_length_of_mem listed)

namespace OrderedMap

variable {κ β : Type} [DecidableEq κ] {pairs : List (κ × β)}

theorem mem_keys_ofList {key : κ} : key ∈ (ofList pairs).keys ↔ key ∈ pairs.map Prod.fst := by
  rw [keys_ofList, List.mem_eraseDups]

theorem get?_ofList_eq_some_iff {key : κ} {value : β} :
    (ofList pairs).get? key = some value ↔
      ∃ before after, pairs = before ++ (key, value) :: after ∧ key ∉ after.map Prod.fst := by
  -- The first pair with the key from behind is the last one from the front.
  rw [get?_ofList, List.lookup_eq_some_iff]
  constructor
  · rintro ⟨after, before, reversed, none⟩
    refine ⟨before.reverse, after.reverse, ?_, ?_⟩
    · rw [← pairs.reverse_reverse, reversed]
      simp
    · intro again
      obtain ⟨pair, member, rfl⟩ := List.mem_map.mp again
      simpa using none pair (List.mem_reverse.mp member)
  · rintro ⟨before, after, rfl, none⟩
    refine ⟨after.reverse, before.reverse, by simp, fun pair member => ?_⟩
    have other : key ≠ pair.1 := by
      rintro rfl
      exact none (List.mem_map_of_mem (List.mem_reverse.mp member))
    simpa using other

theorem isEmpty_ofList_iff : (ofList pairs).isEmpty = true ↔ pairs = [] := by
  constructor
  · intro empty
    cases pairs with
    | nil => rfl
    | cons pair rest =>
      have listed : pair.1 ∈ (ofList (pair :: rest)).keys := mem_keys_ofList.mpr List.mem_cons_self
      rw [keys, List.isEmpty_iff.mp empty] at listed
      cases listed
  · rintro rfl
    rfl

theorem size_ofList : (ofList pairs).size = (pairs.map Prod.fst).toFinset.card := by
  have keys : (ofList pairs).keys.toFinset = (pairs.map Prod.fst).toFinset := by
    ext key
    rw [List.mem_toFinset, List.mem_toFinset, mem_keys_ofList]
  rw [← keys, List.toFinset_card_of_nodup (nodup_keys _)]
  exact (List.length_map _).symm

end OrderedMap

namespace Catalog

open Json (Value)
open Json.Grammar (IsText)

def Spells (text : String) (pairs : List (String × String)) : Prop :=
  ∃ p, IsText text.toList p ∧ IsPairs p pairs

theorem spells_iff {text : String} {pairs : List (String × String)} :
    Spells text pairs ↔ pairsReader.parse text = .ok pairs :=
  pairsReader_decodes.parse_eq_ok_iff.symm

theorem Spells.ofDefinition {text : String} {pairs : List (String × String)}
    (spells : Spells text pairs) : ofDefinition text = .ok (OrderedMap.ofList pairs) :=
  Json.map_eq_ok_iff.mpr ⟨pairs, spells_iff.mp spells, rfl⟩

/-- Any list can be spelt. -/
theorem spells_pretty (pairs : List (String × String)) :
    Spells (Value.list (pairs.map pairValue)).toPretty pairs :=
  spells_iff.mpr (pretty_takes pairs).parse

/-- The catalog that a list of pairs makes: the keys stand in the order in which they first came,
each with the last text under it. -/
structure Collects (pairs : List (String × String)) (c : Catalog) : Prop where
  distinct : c.keys.Nodup
  first : c.keys.Pairwise fun first later =>
    (pairs.map Prod.fst).idxOf first < (pairs.map Prod.fst).idxOf later
  last : ∀ key text, c.get? key = some text ↔
    ∃ before after, pairs = before ++ (key, text) :: after ∧ key ∉ after.map Prod.fst
  absent : ∀ key, c.get? key = none ↔ key ∉ pairs.map Prod.fst
  size : c.size = (pairs.map Prod.fst).toFinset.card
  keys : c.keys = c.entries.map Prod.fst
  entries : ∀ key text, (key, text) ∈ c.entries ↔ c.get? key = some text
  contains : ∀ key, c.contains key = true ↔ key ∈ pairs.map Prod.fst
  isEmpty : c.isEmpty = true ↔ pairs = []

theorem collects_ofList (pairs : List (String × String)) :
    Collects pairs (OrderedMap.ofList pairs) where
  distinct := OrderedMap.nodup_keys _
  first := by
    rw [OrderedMap.keys_ofList]
    exact pairwise_idxOf_eraseDups _
  last _ _ := OrderedMap.get?_ofList_eq_some_iff
  absent key := by rw [OrderedMap.get?_eq_none_iff, OrderedMap.mem_keys_ofList]
  size := OrderedMap.size_ofList
  keys := rfl
  entries _ _ := OrderedMap.get?_eq_some_iff.symm
  contains key := by rw [OrderedMap.contains_iff, OrderedMap.mem_keys_ofList]
  isEmpty := OrderedMap.isEmpty_ofList_iff

/-- A list of pairs makes one catalog, whether it is collected, put in pair by pair, or read from
any text that spells it; there is such a text. A pair that is put in replaces another exactly if its
key came before. Catalogs are the same but for the order exactly if their entries are a permutation
of each other. -/
theorem collected_alike (pairs : List (String × String)) :
    Collects pairs (OrderedMap.ofList pairs) ∧
    (putAll ∅ pairs).2.entries = (OrderedMap.ofList pairs).entries ∧
    (∃ text, Spells text pairs) ∧
    (∀ text, Spells text pairs →
      ∃ c, ofDefinition text = .ok c ∧ c.entries = (OrderedMap.ofList pairs).entries) ∧
    (∀ i, (putAll ∅ pairs).1[i]? = pairs[i]?.map fun pair =>
      (pair.1, if pair.1 ∈ (pairs.take i).map Prod.fst then .replaced else .inserted)) ∧
    ∀ c c' : Catalog, c.sameEntries c' = true ↔ c.entries.Perm c'.entries := by
  refine ⟨collects_ofList pairs, ?_, ⟨_, spells_pretty pairs⟩, fun text spells => ?_, fun i => ?_,
    fun _ _ => OrderedMap.sameEntries_iff_perm⟩
  · rw [putAll_catalog, ← OrderedMap.ofList_eq]
  · exact ⟨_, spells.ofDefinition, rfl⟩
  · have none (key : String) : key ∉ (∅ : Catalog).keys := List.not_mem_nil
    simp only [putAll_outcome, none, false_or]

/-- A key that comes again, and a spelling of its own. -/
theorem collected_with_repeated_key :
    let pairs := [("a", "1"), ("b", "2"), ("a", "3")]
    let text := "[[\"a\",\"1\"] ,\n[\"\\u0062\", \"2\"],[\"a\",\"\\u0033\"]]"
    Spells text pairs ∧
      ∃ c, ofDefinition text = .ok c ∧ c.entries = [("a", "3"), ("b", "2")] := by
  intro pairs text
  have spells : Spells text pairs := spells_iff.mpr (eq_ok_of_toOption (by decide +kernel))
  obtain ⟨-, -, -, decoded, -, -⟩ := collected_alike pairs
  obtain ⟨c, read, entries⟩ := decoded text spells
  exact ⟨spells, c, read, entries.trans (by decide)⟩

end Catalog

end TypeCatalog
