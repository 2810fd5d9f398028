import TypeCatalog.Proofs.Command.Agreement
import TypeCatalog.Proofs.Identifier

/-! What a listing shows is what there is. The keys are printed as they are, so neither the line
ends nor the arrows of a listing can be trusted; but it can be read from the end, where an
identifier without a space says how long the key in front of it is. -/
namespace TypeCatalog

namespace Identifier

/-- Only the empty key and the keys of one character have identifiers of the same length. -/
theorem length_ofKey (key : String) :
    (ofKey key).toList.length = if key = "" then 1 else key.toList.length := by
  unfold ofKey
  by_cases empty : key = "" <;> simp [empty, String.isEmpty_iff]

theorem space_not_mem_ofKey (key : String) : ' ' ∉ (ofKey key).toList :=
  fun member => absurd (isWord_of_mem_ofKey member) (by decide)

end Identifier

namespace Command

open Identifier (ofKey length_ofKey space_not_mem_ofKey)

namespace Report

def item (key : String) : String := s!"  - {key} -> {ofKey key}" ++ "\n"

theorem listing_of_filled (definition : Path) {keys : List String} (filled : keys ≠ []) :
    listing definition keys = "Interfaces:\n" ++ String.join (keys.map item) := by
  rw [listing, if_neg filled, lines, List.map_cons, String.join_cons, List.map_map]
  rfl

/-- The last space is found again. -/
theorem last_space_unique {before before' word word' : List Char} (solid : ' ' ∉ word)
    (solid' : ' ' ∉ word') (same : before ++ ' ' :: word = before' ++ ' ' :: word') :
    before = before' ∧ word = word' := by
  rcases List.append_eq_append_iff.mp same with ⟨gap, rfl, rest⟩ | ⟨gap, rfl, rest⟩
  · cases gap with
    | nil => simpa using rest
    | cons c gap =>
      obtain ⟨-, rfl⟩ := List.cons.inj rest
      simp at solid
  · cases gap with
    | nil => simpa using rest.symm
    | cons c gap =>
      obtain ⟨-, rfl⟩ := List.cons.inj rest
      simp at solid'

/-- Behind a bullet no key is not taken for one character: the bullet ends in a space, and then that
character is one and the bullet in front of it ends in another. -/
theorem bullet_append_ne (before before' : List Char) (c : Char) :
    before ++ "  - ".toList ≠ before' ++ "  - ".toList ++ [c] := by
  intro same
  have ends := congrArg (fun text => text.reverse.take 2) same
  simp at ends

/-- The end of an entry tells the key, as the identifier is as long as the key or the key is one of
the few that the bullet tells apart. -/
theorem item_append_inj {before before' : List Char} {key key' : String}
    (same : before ++ (item key).toList = before' ++ (item key').toList) :
    before = before' ∧ key = key' := by
  have apart (front : List Char) (k : String) : front ++ (item k).toList =
      front ++ "  - ".toList ++ k.toList ++ " ->".toList ++
        ' ' :: ((ofKey k).toList ++ ['\n']) := by
    simp [item, toString]
  have solid (k : String) : ' ' ∉ (ofKey k).toList ++ ['\n'] := by
    simp [space_not_mem_ofKey]
  rw [apart, apart] at same
  obtain ⟨front, names⟩ := last_space_unique (solid key) (solid key') same
  replace front := List.append_cancel_right front
  have lengths := congrArg List.length (List.append_cancel_right names)
  rw [length_ofKey, length_ofKey] at lengths
  by_cases empty : key = "" <;> by_cases empty' : key' = ""
  · subst empty empty'
    exact ⟨by simpa using front, rfl⟩
  · rw [if_pos empty, if_neg empty'] at lengths
    obtain ⟨c, single⟩ := List.length_eq_one_iff.mp lengths.symm
    rw [empty, single, String.toList_empty, List.append_nil] at front
    exact absurd front (bullet_append_ne before before' c)
  · rw [if_neg empty, if_pos empty'] at lengths
    obtain ⟨c, single⟩ := List.length_eq_one_iff.mp lengths
    rw [empty', single, String.toList_empty, List.append_nil] at front
    exact absurd front.symm (bullet_append_ne before' before c)
  · rw [if_neg empty, if_neg empty'] at lengths
    obtain ⟨bullets, keys⟩ := List.append_inj' front lengths
    exact ⟨List.append_cancel_right bullets, String.toList_inj.mp keys⟩

/-- By induction from the last key, as a key may look like the beginning of the next line. -/
theorem items_injective {keys keys' : List String}
    (same : String.join (keys.map item) = String.join (keys'.map item)) : keys = keys' := by
  have visible (front : List String) (key : String) :
      String.join ((front ++ [key]).map item) ≠ "" := by
    simp [item, ← String.toList_eq_nil_iff]
  induction keys using List.reverseRecOn generalizing keys' with
  | nil =>
    rcases List.eq_nil_or_concat' keys' with rfl | ⟨front', key', rfl⟩
    · rfl
    · exact absurd same.symm (visible front' key')
  | append_singleton front key ih =>
    rcases List.eq_nil_or_concat' keys' with rfl | ⟨front', key', rfl⟩
    · exact absurd same (visible front key)
    · simp only [List.map_append, List.map_singleton, String.join_append, String.join_cons,
        String.join_nil, String.append_empty, ← String.toList_inj, String.toList_append] at same
      obtain ⟨fronts, rfl⟩ := item_append_inj same
      rw [ih (String.toList_inj.mp fronts)]

/-- Whatever path is named in it, the text for no keys begins in another way than a listing does. -/
theorem listing_injective (definition : Path) {keys keys' : List String}
    (same : listing definition keys = listing definition keys') : keys = keys' := by
  have told (keys : List String) (filled : keys ≠ []) :
      listing definition [] ≠ listing definition keys := by
    rw [listing_of_filled definition filled]
    intro equal
    have begins := congrArg (fun text => text.toList.head?) equal
    simp [listing, lines, toString] at begins
  by_cases empty : keys = [] <;> by_cases empty' : keys' = []
  · rw [empty, empty']
  · exact absurd (empty ▸ same) (told keys' empty')
  · exact absurd (empty' ▸ same.symm) (told keys empty)
  · rw [listing_of_filled definition empty, listing_of_filled definition empty',
      String.append_right_inj] at same
    exact items_injective same

end Report

section

variable {args args' : List String} {verbose verbose' : Bool} {options options' : StoreOptions}
variable {l l' : Locations} {t t' : Tree} {c c' : Catalog}

/-- Two listings of catalogs in the same place, in whatever files and by whatever options they were
found there, succeed, and print the same text exactly if the catalogs have the same keys in the same
order. -/
theorem listings_alike_iff (parsed : Request.parse args = .ok ⟨verbose, .list options⟩)
    (parsed' : Request.parse args' = .ok ⟨verbose', .list options'⟩)
    (located : options.located t = .ok l) (located' : options'.located t' = .ok l')
    (place : l.definition = l'.definition)
    (pulled : Store.pulled l t = .ok c) (pulled' : Store.pulled l' t' = .ok c') :
    ∃ printed printed', (session args).outcome t = (.ok printed, t) ∧
      (session args').outcome t' = (.ok printed', t') ∧
      (printed = printed' ↔ c.keys = c'.keys) := by
  refine ⟨Report.listing l.definition c.keys, Report.listing l'.definition c'.keys, ?_, ?_, ?_⟩
  · rw [outcome_of_parse parsed]
    exact outcome_list_of_pulled located pulled
  · rw [outcome_of_parse parsed']
    exact outcome_list_of_pulled located' pulled'
  · rw [place]
    exact ⟨Report.listing_injective l'.definition, congrArg (Report.listing l'.definition)⟩

end

/-- A key that looks like the end of its line and the beginning of the next is not taken for the two
keys. -/
theorem listings_differ_at_forged_line :
    let forged : Catalog := OrderedMap.insert ∅ "a -> a\n  - b" ""
    let two : Catalog := OrderedMap.insert (OrderedMap.insert ∅ "a" "") "b" ""
    let t := ((∅ : Tree).writeText ⟨"out/def.json"⟩ forged.definition).2
    let t' := ((∅ : Tree).writeText ⟨"out/def.json"⟩ two.definition).2
    let args := ["list", "--definition=out/def.json"]
    let args' := ["-v", "list", "--definition", "out/def.json"]
    ∃ printed printed', (session args).outcome t = (.ok printed, t) ∧
      (session args').outcome t' = (.ok printed', t') ∧ printed ≠ printed' := by
  intro forged two t t' args args'
  let options : StoreOptions := ⟨standardSettings, some ⟨"out/def.json"⟩, none⟩
  let l : Locations := ⟨⟨"out/def.json"⟩, Locations.standard.declarations⟩
  have parsed : Request.parse args = .ok ⟨false, .list options⟩ :=
    eq_ok_of_toOption (by decide +kernel)
  have parsed' : Request.parse args' = .ok ⟨true, .list options⟩ :=
    eq_ok_of_toOption (by decide +kernel)
  have located : options.located t = .ok l := eq_ok_of_toOption (by decide +kernel)
  have located' : options.located t' = .ok l := eq_ok_of_toOption (by decide +kernel)
  have read : t.read l.definition = .ok forged.definition :=
    eq_ok_of_toOption (by decide +kernel)
  have read' : t'.read l.definition = .ok two.definition := eq_ok_of_toOption (by decide +kernel)
  have holds (c : Catalog) := Catalog.ofDefinition_definition c
  obtain ⟨printed, printed', first, second, alike⟩ := listings_alike_iff parsed parsed' located
    located' rfl (Store.pulled_eq_ok_iff.mpr (.inr ⟨_, read, holds forged⟩))
    (Store.pulled_eq_ok_iff.mpr (.inr ⟨_, read', holds two⟩))
  refine ⟨printed, printed', first, second, ?_⟩
  rw [ne_eq, alike]
  decide

end Command

end TypeCatalog
