import TypeCatalog.Catalog
import TypeCatalog.Proofs.Json.Containers
import TypeCatalog.Proofs.Json.Lists
import TypeCatalog.Proofs.OrderedMap

/-! The definition of a catalog says all that is in it: the catalog is read back from the text entry
by entry, so the text and the ordered entries determine each other. The texts that are the
definition of some catalog are lists of pairs of strings, in any spelling that JSON allows and with
keys that may come again. -/
namespace TypeCatalog.Catalog

open Json (Reader Value)

def pairValue (e : String × String) : Value := .list [.string e.1, .string e.2]

theorem pairReader_takes (depth : Nat) (e : String × String) :
    pairReader.Takes ((pairValue e).pretty depth) e :=
  Reader.takes_pair _ _ (Reader.takes_string _ e.1) (Reader.takes_string _ e.2)

theorem pairsReader_takes (depth : Nat) (entries : List (String × String)) :
    pairsReader.Takes ((Value.list (entries.map pairValue)).pretty depth) entries := by
  apply Reader.takes_items
  induction entries with
  | nil => exact .nil
  | cons e entries ih => exact .cons (pairReader_takes _ e) ih

theorem pretty_takes (pairs : List (String × String)) :
    pairsReader.Takes (Value.list (pairs.map pairValue)).toPretty.toList pairs := by
  simpa [Value.toPretty] using pairsReader_takes 0 pairs

theorem definition_takes (c : Catalog) : pairsReader.Takes c.definition.toList c.entries :=
  pretty_takes c.entries

theorem ofDefinition_definition (c : Catalog) : ofDefinition c.definition = .ok c := by
  rw [ofDefinition, (definition_takes c).parse]
  exact congrArg Except.ok (OrderedMap.ofList_entries c)

theorem definition_injective {c c' : Catalog} (same : c.definition = c'.definition) : c = c' := by
  have read := ofDefinition_definition c
  rw [same, ofDefinition_definition] at read
  exact (Except.ok.inj read).symm

/-- Every catalog is read back from its definition, entry by entry and in order, and so two
catalogs have one definition exactly if their ordered entries are the same. That is finer than
`sameEntries`, which does not look at the order. -/
theorem definition_round_trip :
    (∀ c : Catalog, ∃ read, ofDefinition c.definition = .ok read ∧ read.entries = c.entries) ∧
    (∀ c c' : Catalog, c.definition = c'.definition ↔ c.entries = c'.entries) ∧
    (∀ c c' : Catalog, c.definition = c'.definition → c.sameEntries c' = true) ∧
    ∃ c c' : Catalog, c.sameEntries c' = true ∧ c.definition ≠ c'.definition := by
  refine ⟨fun c => ⟨c, ofDefinition_definition c, rfl⟩, fun c c' => ?_, fun c c' same => ?_, ?_⟩
  · rw [← OrderedMap.eq_iff_entries]
    exact ⟨definition_injective, congrArg definition⟩
  · obtain rfl := definition_injective same
    exact OrderedMap.sameEntries_refl c
  · refine ⟨⟨[("a", ""), ("b", "")], by decide⟩, ⟨[("b", ""), ("a", "")], by decide⟩,
      by decide, fun same => ?_⟩
    have order := definition_injective same
    revert order
    decide

open Json (Phrase Contents Reader)
open Json.Grammar (IsText)

inductive IsPair : Phrase → String × String → Prop where
  | list {p q : Phrase} {key text : String} :
      p.Spells key → q.Spells text → IsPair (.list [p, q]) (key, text)

abbrev IsPairs : Phrase → List (String × String) → Prop := Phrase.Lists (List.Forall₂ IsPair)

theorem pairReader_decodes : pairReader.Decodes IsPair := by
  apply (Reader.decodes_list _ (Contents.decodes_pair _ Reader.decodes_string
    Reader.decodes_string)).congr
  intro p pair
  constructor
  · rintro ⟨p, q, rfl, key, text⟩
    exact .list key text
  · rintro ⟨key, text⟩
    exact .list ⟨_, _, rfl, key, text⟩

theorem pairsReader_decodes : pairsReader.Decodes IsPairs :=
  Reader.decodes_list _ (Contents.decodes_items pairReader_decodes)

/-- A text is read as a catalog exactly if it is JSON for a list of pairs of strings. The catalog
is what comes of putting one pair after the other: its keys stand in the order in which they first
came, each with the last text under it. -/
theorem ofDefinition_eq_ok_iff (text : String) (c : Catalog) :
    ofDefinition text = .ok c ↔ ∃ p pairs, IsText text.toList p ∧ IsPairs p pairs ∧
      c = pairs.foldl (fun c pair => (c.put pair.1 pair.2).2) ∅ ∧
      c.keys = (pairs.map Prod.fst).eraseDups ∧
      ∀ key, c.get? key = pairs.reverse.lookup key := by
  constructor
  · intro accepted
    obtain ⟨pairs, parses, rfl⟩ := Json.map_eq_ok_iff.mp accepted
    obtain ⟨p, isText, arePairs⟩ := pairsReader_decodes.parse_eq_ok_iff.mp parses
    exact ⟨p, pairs, isText, arePairs, rfl, OrderedMap.keys_ofList pairs,
      OrderedMap.get?_ofList pairs⟩
  · rintro ⟨p, pairs, isText, arePairs, rfl, -, -⟩
    have parses := pairsReader_decodes.parse_eq_ok_iff.mpr ⟨p, isText, arePairs⟩
    exact Json.map_eq_ok_iff.mpr ⟨pairs, parses, rfl⟩

end TypeCatalog.Catalog
