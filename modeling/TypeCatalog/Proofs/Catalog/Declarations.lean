import Mathlib.Data.List.Basic
import Mathlib.Data.Option.Basic
import Mathlib.Data.Set.List
import TypeCatalog.Catalog
import TypeCatalog.Proofs.Node.Rows
import TypeCatalog.Proofs.OrderedMap

/-! The declarations of a catalog can be taken apart again. No interface has an empty line, so the
empty lines are those that were put between the entries, and the lookup interface gives back the
keys line by line. -/
namespace TypeCatalog

namespace Identifier

def keyOfLine (line : String) : Option String :=
  (readProperty (line.toList.drop 2)).map Prod.fst

def lookupLine (key : String) : String := "  " ++ property key ++ ": " ++ ofKey key

theorem keyOfLine_lookupLine (key : String) : keyOfLine (lookupLine key) = some key := by
  have line : (lookupLine key).toList.drop 2 =
      (property key).toList ++ ':' :: ' ' :: (ofKey key).toList := by
    simp [lookupLine]
  rw [keyOfLine, line, readProperty_property]
  rfl

end Identifier

namespace Catalog

theorem rowsOfFields_keys (keys : List String) :
    (TypeNode.rowsOfFields (keys.map fun key => (key, .keyword key))).map (Row.written 1) =
      keys.map Identifier.lookupLine := by
  induction keys with
  | nil => rfl
  | cons key keys ih =>
    simp only [List.map_cons, TypeNode.rowsOfFields, List.map_append, ih]
    simp [TypeNode.rows, Row.lead, Row.written, Identifier.lookupLine, ← String.toList_inj]

theorem lines_lookup (c : Catalog) :
    Text.lines c.lookup.source =
      "export interface MapParsers \x7b" :: c.keys.map Identifier.lookupLine ++ ["\x7d"] := by
  rw [TypeNode.lines_source, ← rowsOfFields_keys]
  simp [lookup, TypeNode.rows, Row.lead, Row.written_eq_text, Row.written_deeper,
    Function.comp_def]
  decide +kernel

/-- The lines between the first and the last are the keys. -/
theorem keys_of_lookup (c : Catalog) :
    (Text.lines c.lookup.source).tail.dropLast.map Identifier.keyOfLine = c.keys.map some := by
  simp [lines_lookup, Function.comp_def, Identifier.keyOfLine_lookupLine]

theorem keys_of_lookup_source {c c' : Catalog} (same : c.lookup.source = c'.lookup.source) :
    c.keys = c'.keys := by
  have keys := c.keys_of_lookup
  rw [same, keys_of_lookup] at keys
  exact List.map_injective_iff.mpr (Option.some_injective _) keys.symm

/-- Every entry was put there by `attach`. -/
def OfInterfaces (c : Catalog) : Prop :=
  ∀ e ∈ c.entries, ∃ i : Interface, e = (i.name, i.source)

def attachAll (is : List Interface) : Catalog := is.foldl (fun c i => (c.attach i).2) ∅

theorem OfInterfaces.attach {c : Catalog} (given : c.OfInterfaces) (i : Interface) :
    (c.attach i).2.OfInterfaces := by
  intro e member
  rcases OrderedMap.mem_upsert member with rfl | earlier
  · exact ⟨i, rfl⟩
  · exact given e earlier

theorem ofInterfaces_attachAll (is : List Interface) : (attachAll is).OfInterfaces := by
  have any (c : Catalog) (given : c.OfInterfaces) :
      (is.foldl (fun c i => (c.attach i).2) c).OfInterfaces := by
    induction is generalizing c with
    | nil => exact given
    | cons i is ih => exact ih _ (given.attach i)
  exact any ∅ nofun

theorem ofInterfaces_iff (c : Catalog) : c.OfInterfaces ↔ ∃ is, attachAll is = c := by
  constructor
  · intro given
    have listed : c.entries ∈ Set.range (List.map fun i : Interface => (i.name, i.source)) := by
      rw [Set.range_list_map]
      intro e member
      obtain ⟨i, rfl⟩ := given e member
      exact ⟨i, rfl⟩
    obtain ⟨is, entries⟩ := listed
    refine ⟨is, ?_⟩
    rw [← OrderedMap.ofList_entries c, ← entries, OrderedMap.ofList, List.foldl_map]
    rfl
  · rintro ⟨is, rfl⟩
    exact ofInterfaces_attachAll is

def body (c : Catalog) : String := textSeparator.intercalate (c.entries.map Prod.snd)

theorem declarations_eq (c : Catalog) :
    c.declarations = c.body ++ lookupSeparator ++ c.lookup.source := rfl

theorem OfInterfaces.solid {c : Catalog} (given : c.OfInterfaces) :
    ∀ e ∈ c.entries, "" ∉ Text.lines e.2 := by
  intro e member
  obtain ⟨i, rfl⟩ := given e member
  exact (TypeNode.ofInterface i).solid_lines_source

theorem OfInterfaces.blocks_body {c : Catalog} (given : c.OfInterfaces) (filled : c.entries ≠ []) :
    Text.blocks c.body = c.entries.map fun e => Text.lines e.2 := by
  rw [body, textSeparator, Text.blocks_intercalate (by simpa using filled), List.map_map]
  · rfl
  · intro text member
    obtain ⟨e, listed, rfl⟩ := List.mem_map.mp member
    exact given.solid e listed

theorem blocks_declarations (c : Catalog) :
    Text.blocks c.declarations = Text.blocks c.body ++ [] :: [Text.lines c.lookup.source] := by
  rw [declarations_eq, lookupSeparator, Text.blocks_append_twice,
    Text.blocks_eq_singleton c.lookup.solid_lines_source]

theorem body_of_empty {c : Catalog} (empty : c.entries = []) : c.body = "" := by
  simp [body, empty]

/-- The lookup separator is found only where it was put. -/
theorem OfInterfaces.body_unique {c : Catalog} (given : c.OfInterfaces) {before after : String}
    (found : c.declarations = before ++ lookupSeparator ++ after) : before = c.body := by
  have same := congrArg Text.blocks found
  rw [lookupSeparator, Text.blocks_append_twice, blocks_declarations] at same
  have filled : [] ∉ [Text.lines c.lookup.source] := by
    simpa using (Text.lines_ne_nil _).symm
  apply Text.blocks_injective
  by_cases empty : c.entries = []
  · -- Three empty blocks stand in front of the lookup interface, and the first two make `before`.
    rw [body_of_empty empty] at same ⊢
    have two : Text.blocks "" = [[], []] := rfl
    rw [two] at same ⊢
    match blocks : Text.blocks before with
    | [] => exact absurd blocks (List.splitOn_ne_nil _ _)
    | [first] =>
      rw [blocks] at same
      obtain ⟨rfl, -⟩ := List.cons.inj same
      exact absurd blocks (Text.blocks_ne_nil_nil before)
    | first :: second :: more =>
      rw [blocks] at same
      simp only [List.cons_append, List.nil_append, List.cons.injEq] at same
      obtain ⟨rfl, rfl, rest⟩ := same
      rw [← List.nil_append [[], Text.lines c.lookup.source]] at rest
      rw [← ((List.append_cons_inj_of_notMem List.not_mem_nil filled).mp rest).1]
  · have solid : [] ∉ Text.blocks c.body := by
      rw [given.blocks_body empty, List.mem_map]
      rintro ⟨e, -, nothing⟩
      exact Text.lines_ne_nil _ nothing
    exact ((List.append_cons_inj_of_notMem solid filled).mp same).1.symm

theorem OfInterfaces.texts_of_body {c c' : Catalog} (given : c.OfInterfaces)
    (given' : c'.OfInterfaces) (keys : c.keys = c'.keys) (same : c.body = c'.body) :
    c.entries.map Prod.snd = c'.entries.map Prod.snd := by
  by_cases empty : c.entries = []
  · have empty' : c'.entries = [] := by
      simpa [OrderedMap.keys, empty] using keys.symm
    rw [empty, empty']
  · have filled' : c'.entries ≠ [] := by
      intro empty'
      simp [OrderedMap.keys, empty', empty] at keys
    have texts := given.blocks_body empty
    rw [same, given'.blocks_body filled'] at texts
    apply List.map_injective_iff.mpr fun _ _ => Text.lines_injective
    simpa [Function.comp_def] using texts.symm

theorem OfInterfaces.entries_eq {c c' : Catalog} (given : c.OfInterfaces)
    (given' : c'.OfInterfaces) (same : c.declarations = c'.declarations) :
    c.entries = c'.entries := by
  have body : c.body = c'.body := given'.body_unique (same.symm.trans c.declarations_eq)
  have lookup : c.lookup.source = c'.lookup.source := by
    rw [declarations_eq, declarations_eq, body] at same
    exact (String.append_right_inj _).mp same
  have keys := keys_of_lookup_source lookup
  rw [List.zip_of_prod keys (given.texts_of_body given' keys body)]
  exact (List.zip_of_prod rfl rfl).symm

/-- Where all entries are interfaces, the separator of the texts is in none of them, the one before
the lookup interface is where it was put and nowhere else, and the lines of the lookup interface
give back the keys. So the declarations tell what the entries are and in which order they stand. -/
theorem declarations_uniquely_decodable {c : Catalog} (given : c.OfInterfaces) :
    (∀ e ∈ c.entries, ¬textSeparator.toList <:+: e.2.toList) ∧
    (∃! before, ∃ after, c.declarations = before ++ lookupSeparator ++ after) ∧
    (Text.lines c.lookup.source).tail.dropLast.map Identifier.keyOfLine = c.keys.map some ∧
    ∀ c' : Catalog, c'.OfInterfaces → c.declarations = c'.declarations →
      c.entries = c'.entries := by
  refine ⟨fun e member => ?_, ⟨c.body, ⟨_, c.declarations_eq⟩, ?_⟩, c.keys_of_lookup,
    fun c' given' => given.entries_eq given'⟩
  · exact Text.not_infix_of_solid (given.solid e member)
  · rintro before ⟨after, found⟩
    exact given.body_unique found

/-- An entry that is replaced keeps its place, so both ways lead to one catalog. There are line
ends in the keys and in the fields. -/
theorem declarations_tell_replaced_entry :
    let old : Interface := ⟨"a", []⟩
    let new : Interface := ⟨"a", [("x", .nullable (.ofInterface ⟨"", [("y\n\n", .any)]⟩))]⟩
    let other : Interface := ⟨"b: c\n\n", [("z", .literal "\n\n\n")]⟩
    (attachAll [old, other, new]).OfInterfaces ∧ (attachAll [new, other]).OfInterfaces ∧
      (attachAll [old, other, new]).declarations = (attachAll [new, other]).declarations ∧
      (attachAll [old, other, new]).entries = (attachAll [new, other]).entries := by
  intro old new other
  have given := (ofInterfaces_iff _).mpr ⟨[old, other, new], rfl⟩
  have given' := (ofInterfaces_iff _).mpr ⟨[new, other], rfl⟩
  have same : (attachAll [old, other, new]).declarations =
      (attachAll [new, other]).declarations := by
    decide +kernel
  have decodable := declarations_uniquely_decodable given
  exact ⟨given, given', same, decodable.2.2.2 _ given' same⟩

end Catalog

end TypeCatalog
