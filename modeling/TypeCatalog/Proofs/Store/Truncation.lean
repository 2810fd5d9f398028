import TypeCatalog.Proofs.Catalog.Definition
import TypeCatalog.Proofs.Store.Artifacts
import TypeCatalog.Store.Steps

/-! Definitions that were cut short. A reader that has come to the end of a definition leaves
nothing of it, so no front part of a definition is one. A pull that finds such a part says so and
takes nothing from it. -/
namespace TypeCatalog

/-- What is read of a definition as a definition is all of it. -/
theorem Catalog.definition_front {c read : Catalog} {front back : String}
    (whole : front ++ back = c.definition) (accepted : ofDefinition front = .ok read) :
    back = "" := by
  obtain ⟨pairs, parses, -⟩ := Json.map_eq_ok_iff.mp accepted
  -- A list ends at its mark, so the whole text is read as far as the front alone.
  have noNumber : ∀ pairs, ¬IsPairs .number pairs := by rintro _ ⟨⟩
  obtain ⟨rest, reads⟩ := pairsReader_decodes.read_append noNumber parses back.toList
  have all : pairsReader.read (c.definition.toList ++ []) = .ok (c.entries, []) :=
    (definition_takes c).reads []
  rw [List.append_nil, ← whole, String.toList_append, reads] at all
  have nothing : rest ++ back.toList = [] := (Prod.mk.inj (Except.ok.inj all)).2
  simpa using (List.append_eq_nil_iff.mp nothing).2

namespace Store

variable {s : Store} {t : Tree} {text : String} {e : Json.Error}

theorem pulled_of_refused {l : Locations} (refused : Catalog.ofDefinition text = .error e)
    (read : t.read l.definition = .ok text) :
    pulled l t = .error (.malformed l.definition e) := by
  simp only [pulled, Tree.readOptional, read, FileError.orMissing, received, refused,
    Except.mapError]

theorem pull_malformed (read : t.read s.locations.definition = .ok text)
    (refused : Catalog.ofDefinition text = .error e) :
    s.pull t = (.error (.malformed s.locations.definition e), s) := by
  rw [pull_eq, pulled_of_refused refused read]

theorem pulling_malformed (read : t.read s.locations.definition = .ok text)
    (refused : Catalog.ofDefinition text = .error e) :
    s.pulling.run t = ⟨(.error (.malformed s.locations.definition e), s), [], t⟩ := by
  simp only [pulling, Session.readText, Session.run, Session.bind, bind, pure,
    FileError.orMissing, read, refused]

end Store

/-- No definition that lacks its end is taken for one, wherever it was cut. A pull that comes upon
it fails at it, in one go or in steps, and the store and the tree are as they were. -/
theorem truncated_definition_refused {c : Catalog} {front back : String}
    (whole : front ++ back = c.definition) (cut : back ≠ "") :
    ∃ e, Catalog.ofDefinition front = .error e ∧
      ∀ (s : Store) (t : Tree), t.read s.locations.definition = .ok front →
        s.pull t = (.error (.malformed s.locations.definition e), s) ∧
        s.pulling.run t = ⟨(.error (.malformed s.locations.definition e), s), [], t⟩ := by
  cases decoded : Catalog.ofDefinition front with
  | ok read => exact absurd (Catalog.definition_front whole decoded) cut
  | error e =>
    refine ⟨e, rfl, fun s t read => ?_⟩
    exact ⟨Store.pull_malformed read decoded, Store.pulling_malformed read decoded⟩

/-- A cut inside a text that is a definition itself, right after the end of that definition. -/
theorem nested_definition_refused :
    let c : Catalog := ⟨[("a", "[[\"b\", \"c\"]]"), ("b", "c")], by decide⟩
    let front := "[\n  [\n    \"a\",\n    \"[[\\\"b\\\", \\\"c\\\"]]"
    let back := "\"\n  ],\n  [\n    \"b\",\n    \"c\"\n  ]\n]"
    let s : Store := ⟨.standard, OrderedMap.insert ∅ "d" ""⟩
    let t := ((∅ : Tree).writeText s.locations.definition front).2
    front ++ back = c.definition ∧ back ≠ "" ∧ t.read s.locations.definition = .ok front ∧
      ∃ e, s.pull t = (.error (.malformed s.locations.definition e), s) := by
  intro c front back s t
  have whole : front ++ back = c.definition := by decide +kernel
  have cut : back ≠ "" := by decide
  have read : t.read s.locations.definition = .ok front := by decide +kernel
  obtain ⟨e, -, pulls⟩ := truncated_definition_refused whole cut
  exact ⟨whole, cut, read, e, (pulls s t read).1⟩

end TypeCatalog
