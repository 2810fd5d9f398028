import TypeCatalog.Proofs.Catalog.Declarations
import TypeCatalog.Proofs.Store.Memory

/-! The references of the lookup interface. Its fields are made of the keys, the declared names
stand in texts that were rendered when their interfaces were attached, maybe by other stores whose
definitions have been pulled since. They meet in every catalog that came about in this way. -/
namespace TypeCatalog

namespace World

/-- A store that began empty, at any point of its work. Every definition that it has pulled from
the files is the one that another such store writes when it syncs; pulls may also find none, or
fail. -/
inductive Reachable : World → Prop where
  | new (l : Locations) (t : Tree) : Reachable ⟨.new l, t⟩
  | other {w : World} {m : Move} : Reachable w → ¬m.IsPull → Reachable (w.step m).2
  | pull {w writer : World} {m : Move} : Reachable w → m.IsPull → Reachable writer →
      w.tree.read w.store.locations.definition = .ok writer.store.catalog.definition →
        Reachable (w.step m).2
  | pullNothing {w : World} {m : Move} : Reachable w → m.IsPull →
      (∀ text c, w.tree.read w.store.locations.definition = .ok text →
        Catalog.ofDefinition text ≠ .ok c) → Reachable (w.step m).2

theorem Reachable.ofInterfaces {w : World} (reachable : w.Reachable) :
    w.store.catalog.OfInterfaces := by
  induction reachable with
  | new l t => exact nofun
  | @other w m _ notPull given =>
    cases m with
    | attach i => exact given.attach i
    | pull mode => exact absurd ⟨mode, rfl⟩ notPull
    | sync mode => exact given
    | change t => exact given
  | @pull w writer m _ isPull _ read _ written =>
    have takes : w.Takes m writer.store.catalog :=
      ⟨isPull, .inr ⟨_, read, Catalog.ofDefinition_definition _⟩⟩
    rw [step_of_takes takes]
    exact written
  | @pullNothing w m _ isPull undefined given =>
    rcases step_of_pull isPull with ⟨c, takes, step⟩ | ⟨-, e, step⟩
    · rcases takes.2 with ⟨-, rfl⟩ | ⟨text, read, decoded⟩
      · rw [step]
        exact nofun
      · exact absurd decoded (undefined text c read)
    · rw [step]
      exact given

end World

structure Text.Declares (text x : String) : Prop where
  first : (lines text).head? = some ("interface " ++ x ++ " \x7b")
  last : (lines text).getLast? = some "\x7d"

theorem Interface.declares (i : Interface) : Text.Declares i.source i.identifier := by
  have lines := i.lines_source
  exact ⟨by simp [lines], by simp [lines, List.getLast?_cons]⟩

namespace Catalog

variable {c : Catalog}

/-- An entry stands in the declarations line by line. -/
theorem lines_infix_declarations {key text : String} (member : (key, text) ∈ c.entries) :
    Text.lines text <:+: Text.lines c.declarations := by
  have apart : c.declarations = c.body ++ "\n\n" ++ ("\n" ++ c.lookup.source) := by
    simp [declarations_eq, lookupSeparator, ← String.toList_inj]
  rw [apart, Text.lines_append_blank]
  have listed : text ∈ c.entries.map Prod.snd := List.mem_map_of_mem member
  have inBody : Text.lines text <:+: Text.lines c.body := Text.lines_infix_intercalate listed
  exact inBody.trans (List.prefix_append _ _).isInfix

theorem OfInterfaces.declares (given : c.OfInterfaces) {key text : String}
    (member : (key, text) ∈ c.entries) : Text.Declares text (Identifier.ofKey key) := by
  obtain ⟨i, same⟩ := given _ member
  cases same
  exact i.declares

end Catalog

/-- The lookup interface of a store that began empty has one field for each entry. It is called
like the key, and its value is one word, which the text of the entry declares: the text is an
interface of that name from its first line to its last, and as such it stands in the same
declarations. -/
theorem references_resolve {w : World} (reachable : w.Reachable) :
    let c := w.store.catalog
    ∃ fields, c.lookup = .exported (.interface "MapParsers" fields) ∧
      fields.length = c.entries.length ∧
      ∀ (n : Nat) (key text : String), c.entries[n]? = some (key, text) →
        ∃ value x, fields[n]? = some (key, value) ∧ value.render = [⟨0, x⟩] ∧
          (x ≠ "" ∧ ∀ letter ∈ x.toList, Identifier.isWord letter = true) ∧
          Text.Declares text x ∧ Text.lines text <:+: Text.lines c.declarations := by
  intro c
  refine ⟨c.keys.map fun key => (key, .keyword key), rfl, by simp [OrderedMap.keys], ?_⟩
  intro n key text entry
  have member : (key, text) ∈ c.entries := List.mem_of_getElem? entry
  refine ⟨.keyword key, Identifier.ofKey key, by simp [OrderedMap.keys, entry], rfl, ?_, ?_, ?_⟩
  · exact ⟨Identifier.ofKey_ne_empty key, fun _ => Identifier.isWord_of_mem_ofKey⟩
  · exact reachable.ofInterfaces.declares member
  · exact Catalog.lines_infix_declarations member

/-- One of two entries was written by another store and read back over another path; then it was
replaced. -/
theorem references_resolve_after_reload :
    let first : World := ⟨.new ⟨⟨"def.json"⟩, ⟨"types.d.ts"⟩⟩, ∅⟩
    let writer := first.run
      [.attach ⟨".env", []⟩, .attach ⟨"b\n", [("x", .nullable .any)]⟩, .sync .blocking]
    let second : World := ⟨.new ⟨⟨"./def.json"⟩, ⟨"out/types.d.ts"⟩⟩, writer.tree⟩
    let w := second.run [.pull .stepwise, .attach ⟨".env", [("PORT", .number)]⟩]
    let text := "interface _env \x7b\n  PORT: number\n\x7d"
    w.Reachable ∧ w.store.catalog.entries[0]? = some (".env", text) ∧ ∃ fields value x,
      w.store.catalog.lookup = .exported (.interface "MapParsers" fields) ∧
        fields[0]? = some (".env", value) ∧ value.render = [⟨0, x⟩] ∧ Text.Declares text x := by
  intro first writer second w text
  have wrote : writer.Reachable :=
    .other (.other (.other (.new _ _) nofun) nofun) nofun
  have read : second.tree.read second.store.locations.definition =
      .ok writer.store.catalog.definition := eq_ok_of_toOption (by decide +kernel)
  have reachable : w.Reachable := .other (.pull (.new _ _) ⟨_, rfl⟩ wrote read) nofun
  have entry : w.store.catalog.entries[0]? = some (".env", text) := by decide +kernel
  obtain ⟨fields, lookup, -, resolves⟩ := references_resolve reachable
  obtain ⟨value, x, field, rendered, -, declares, -⟩ := resolves 0 ".env" text entry
  exact ⟨reachable, entry, fields, value, x, lookup, field, rendered, declares⟩

end TypeCatalog
