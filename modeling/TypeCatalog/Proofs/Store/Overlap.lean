import TypeCatalog.Proofs.Catalog.Declarations
import TypeCatalog.Proofs.Store.Modes
import TypeCatalog.Proofs.Store.Sync
import TypeCatalog.Proofs.Store.Truncation

/-! One file for both artifacts. A sync leaves the declarations in it, and whatever texts are among
them they are no definition: a definition ends in the mark of a list, and the lookup interface ends
in a brace. So the next pull fails, and with it every registration that would write the file. -/
namespace TypeCatalog

namespace Catalog

theorem definition_ends {text : String} {c : Catalog} (accepted : ofDefinition text = .ok c) :
    ∃ front gap, text.toList = front ++ ']' :: gap ∧ ∀ x ∈ gap, x ∈ [' ', '\t', '\n', '\r'] := by
  obtain ⟨p, pairs, isText, arePairs, -⟩ := (ofDefinition_eq_ok_iff text c).mp accepted
  cases arePairs with
  | list => exact isText.ends

theorem declarations_end (c : Catalog) : ∃ front, c.declarations.toList = front ++ ['\x7d'] := by
  obtain ⟨front, source⟩ := Text.suffix_of_lines c.lines_lookup
  refine ⟨(c.body ++ lookupSeparator).toList ++ front, ?_⟩
  rw [declarations_eq, String.toList_append, ← source, List.append_assoc]
  rfl

/-- The entries may say what they like. -/
theorem ofDefinition_declarations_ne (c read : Catalog) :
    ofDefinition c.declarations ≠ .ok read := by
  intro accepted
  obtain ⟨front, gap, whole, blank⟩ := definition_ends accepted
  obtain ⟨front', whole'⟩ := c.declarations_end
  rw [whole'] at whole
  rcases gap.eq_nil_or_concat with rfl | ⟨gap, x, rfl⟩
  · have last := congrArg List.getLast? whole
    simp at last
  · have last := congrArg List.getLast? whole
    have brace : x = '\x7d' := by simpa [List.getLast?_cons] using last.symm
    have blank := blank x (by simp)
    simp [brace] at blank

end Catalog

/-- By any path that leads to it a file of text is found; only a slash at the end asks for more. -/
theorem Tree.read_of_textAt? {t : Tree} {p : Path} {place : Place} {text : String}
    (resolved : t.resolve p = .ok place) (file : t.textAt? place = some text) :
    t.read p = if p.endsInSlash then .error .notADirectory else .ok text := by
  cases slash : p.endsInSlash with
  | false => exact read_eq_ok_iff.mpr ⟨place, resolved, file, slash⟩
  | true =>
    obtain ⟨content, there, -⟩ := textAt?_eq_some_iff.mp file
    simp [read, resolved, there, slash, bind, Except.bind, throw, throwThe, MonadExceptOf.throw]

namespace Store

/-- A sync to one file writes the definition, and the declarations over it. -/
theorem read_of_overlapping_sync {s : Store} {t t' : Tree} (synced : s.sync t = (.ok (), t'))
    (shared : ¬t'.Apart s.locations.definition s.locations.declarations) :
    t'.read s.locations.definition = .ok s.catalog.declarations := by
  obtain ⟨u, first, second⟩ := sync_eq_ok synced
  obtain ⟨_, defined⟩ := Tree.writeText_written first
  obtain ⟨place, declared⟩ := Tree.writeText_written second
  simp only [Tree.Apart, not_forall, not_not] at shared
  obtain ⟨place', resolved, resolved'⟩ := shared
  rw [declared.resolved] at resolved'
  obtain rfl := Except.ok.inj resolved'
  exact Tree.read_eq_ok_iff.mpr ⟨_, resolved, Tree.textAt?_file declared.file, defined.noSlash⟩

variable {l : Locations} {t : Tree} {text : String} {e : Json.Error}

/-- A file that is no definition is in the way of every path that leads to it. -/
theorem exists_pulled_error {place : Place} (refused : Catalog.ofDefinition text = .error e)
    (resolved : t.resolve l.definition = .ok place) (file : t.textAt? place = some text) :
    ∃ e', pulled l t = .error e' := by
  have read := Tree.read_of_textAt? resolved file
  split at read
  · exact ⟨.io l.definition .notADirectory, by
      simp only [pulled, Tree.readOptional, read, FileError.orMissing, received]⟩
  · exact ⟨_, pulled_of_refused refused read⟩

end Store

namespace World

variable {w : World} {e : CatalogError}

/-- A pull that fails is all that comes of a pull or of a registration. -/
theorem perform_pull_error (failed : Store.pulled w.store.locations w.tree = .error e)
    (mode : Mode) : w.perform mode .pull = (.error e, w) := by
  simp only [perform, Store.pullBy_eq, Store.pull_eq, failed, Except.map]

theorem perform_register_error {call : Call} {l : Locations}
    (failed : Store.pulled l w.tree = .error e) (mode : Mode) :
    w.perform mode (.register call l) = (.error e, w) := by
  simp only [perform, Call.registerBy_eq, Call.register_eq, failed, Except.map]

/-- Operations each of which fails and changes nothing, one after another. -/
theorem transcript_of_refused {steps : List (Operation × Mode)}
    (refused : ∀ step ∈ steps, ∃ e, w.perform step.2 step.1 = (.error e, w)) :
    ∀ seen ∈ w.transcript steps, (∃ e, seen.1 = .error e) ∧ seen.2 = w := by
  induction steps with
  | nil => exact nofun
  | cons step rest ih =>
    obtain ⟨operation, mode⟩ := step
    obtain ⟨e, failed⟩ := refused _ List.mem_cons_self
    have others := ih fun step member => refused step (List.mem_cons_of_mem _ member)
    rw [transcript, failed]
    rintro seen (_ | ⟨_, later⟩)
    · exact ⟨⟨e, rfl⟩, rfl⟩
    · exact others seen later

end World

/-- No declarations are taken for a definition, whatever the keys and the texts of their catalog.
After a sync to two paths that lead to one file every pull fails at the text in it, and the store
stays as it is. No registration whose definition would be this file succeeds any more, over
whatever path, and none of them changes any file. -/
theorem declarations_never_pulled (c : Catalog) :
    ∃ e, Catalog.ofDefinition c.declarations = .error e ∧
      ∀ (l : Locations) (t t' : Tree), Store.sync ⟨l, c⟩ t = (.ok (), t') →
        ¬t'.Apart l.definition l.declarations → ∀ memory : Catalog,
          let w : World := ⟨⟨l, memory⟩, t'⟩
          (∀ mode, w.perform mode .pull = (.error (.malformed l.definition e), w)) ∧
          ∀ steps : List (Operation × Mode),
            (∀ step ∈ steps, ∃ call l', step.1 = .register call l' ∧
              t'.resolve l'.definition = t'.resolve l.definition) →
            ∀ seen ∈ w.transcript steps, (∃ e', seen.1 = .error e') ∧ seen.2 = w := by
  cases decoded : Catalog.ofDefinition c.declarations with
  | ok read => exact absurd decoded (c.ofDefinition_declarations_ne read)
  | error e =>
    refine ⟨e, rfl, fun l t t' synced shared memory => ?_⟩
    have read : t'.read l.definition = .ok c.declarations :=
      Store.read_of_overlapping_sync (s := ⟨l, c⟩) synced shared
    obtain ⟨place, resolved, file, -⟩ := Tree.read_eq_ok_iff.mp read
    have pulls : Store.pulled l t' = .error (.malformed l.definition e) :=
      Store.pulled_of_refused decoded read
    intro w
    refine ⟨World.perform_pull_error (w := w) pulls, fun steps registers => ?_⟩
    apply World.transcript_of_refused
    rintro ⟨operation, mode⟩ member
    obtain ⟨call, l', rfl, same⟩ := registers _ member
    obtain ⟨e', fails⟩ := Store.exists_pulled_error decoded (same.trans resolved) file
    exact ⟨e', World.perform_register_error (w := w) fails mode⟩

/-- The first text in the file is a definition, and the other paths are other spellings. -/
theorem nested_definition_never_pulled :
    let c : Catalog := ⟨[("a", "[[\"b\", \"c\"]]")], by decide⟩
    let l : Locations := ⟨⟨"out/cat.json"⟩, ⟨"./out/cat.json"⟩⟩
    let t' := (Store.sync ⟨l, c⟩ ∅).2
    let w : World := ⟨⟨l, c⟩, t'⟩
    let again : Operation := .register ⟨⟨[]⟩, "b"⟩ ⟨⟨"out/../out/cat.json"⟩, ⟨"types.d.ts"⟩⟩
    Store.sync ⟨l, c⟩ ∅ = (.ok (), t') ∧ ¬t'.Apart l.definition l.declarations ∧
      (∃ e, w.perform .stepwise .pull = (.error (.malformed l.definition e), w)) ∧
      ∀ seen ∈ w.transcript [(again, .blocking), (again, .stepwise)],
        (∃ e, seen.1 = .error e) ∧ seen.2 = w := by
  intro c l t' w again
  have synced : Store.sync ⟨l, c⟩ ∅ = (.ok (), t') := Store.sync_of_toOption (by decide +kernel)
  have defined : t'.resolve l.definition = .ok ["out", "cat.json"] := by decide +kernel
  have declared : t'.resolve l.declarations = .ok ["out", "cat.json"] := by decide +kernel
  have shared : ¬t'.Apart l.definition l.declarations :=
    fun apart => apart _ defined declared
  have same : t'.resolve ⟨"out/../out/cat.json"⟩ = t'.resolve l.definition := by decide +kernel
  -- From here on the tree is known by these facts alone.
  clear_value t'
  obtain ⟨e, -, never⟩ := declarations_never_pulled c
  obtain ⟨pull, register⟩ := never l ∅ t' synced shared c
  have pulls := pull .stepwise
  have registers := register [(again, .blocking), (again, .stepwise)] (by
    intro step member
    have each : step.1 = again := by
      rcases List.mem_pair.mp member with rfl | rfl <;> rfl
    exact ⟨_, _, each, same⟩)
  exact ⟨synced, shared, ⟨e, pulls⟩, registers⟩

end TypeCatalog
