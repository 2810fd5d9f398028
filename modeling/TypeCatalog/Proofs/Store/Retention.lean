import TypeCatalog.Proofs.Command.Outcome

/-! What a registration keeps of a definition that was there. The pull reads through a path as
the tree is before the call, the sync writes through it with the missing directories made, and
the two look at the same file only if the path could be walked from the start. -/
namespace TypeCatalog

def Tree.DefinesAt (t : Tree) (place : Place) (c : Catalog) : Prop :=
  ∃ text, t.textAt? place = some text ∧ Catalog.ofDefinition text = .ok c

namespace Tree.DefinesAt

variable {t : Tree} {place : Place} {c c' : Catalog}

theorem unique (defines : t.DefinesAt place c) (defines' : t.DefinesAt place c') : c = c' := by
  obtain ⟨text, file, decoded⟩ := defines
  obtain ⟨text', file', decoded'⟩ := defines'
  rw [file] at file'
  obtain rfl := Option.some.inj file'
  rw [decoded] at decoded'
  exact Except.ok.inj decoded'

/-- Once one catalog is known to be there, it is the only one that can be. -/
theorem iff_eq (defines : t.DefinesAt place c) : t.DefinesAt place c' ↔ c' = c := by
  constructor
  · exact fun other => other.unique defines
  · rintro rfl
    exact defines

end Tree.DefinesAt

theorem Tree.Holds.definesAt {t : Tree} {l : Locations} {c : Catalog} {place : Place}
    (held : t.Holds l c) (resolved : t.resolve l.definition = .ok place) :
    t.DefinesAt place c := by
  obtain ⟨text, read, decoded⟩ := held.definition
  obtain ⟨place', resolved', file, -⟩ := Tree.read_eq_ok_iff.mp read
  rw [resolved] at resolved'
  obtain rfl := Except.ok.inj resolved'
  exact ⟨text, file, decoded⟩

namespace Call

variable {call : Call} {l : Locations} {t t' : Tree} {r : Registration} {place : Place}

/-- A path that leads somewhere before the call leads to the same file after it, and this is the
file that the pull has read. -/
theorem pulled_of_resolves {c c' : Catalog} {u : Tree} {content content' : String}
    {earlier : Place} (reached : t.resolve l.definition = .ok earlier)
    (resolved : t'.resolve l.definition = .ok place)
    (first : t.writeText l.definition content = (.ok (), u))
    (second : u.writeText l.declarations content' = (.ok (), t'))
    (defined : t.DefinesAt place c) (pulls : Store.pulled l t = .ok c') : c' = c := by
  obtain ⟨written, wrote⟩ := Tree.writeText_written first
  obtain ⟨_, declared⟩ := Tree.writeText_written second
  have kept := Tree.resolve_keeps declared.keepsDirectories wrote.resolved
  rw [resolved] at kept
  obtain rfl := Except.ok.inj kept
  obtain rfl := wrote.place_eq reached
  obtain ⟨text, file, decoded⟩ := defined
  have read : t.read l.definition = .ok text :=
    Tree.read_eq_ok_iff.mpr ⟨_, reached, file, wrote.noSlash⟩
  rcases Store.pulled_eq_ok_iff.mp pulls with ⟨missing, -⟩ | ⟨text', read', decoded'⟩
  · rw [read] at missing
    cases missing
  · rw [read] at read'
    obtain rfl := Except.ok.inj read'
    rw [decoded] at decoded'
    exact (Except.ok.inj decoded').symm

/-- A path that leads nowhere before the call has the pull start from nothing. -/
theorem pulled_of_not_resolves {c : Catalog}
    (unreached : ∀ earlier, t.resolve l.definition ≠ .ok earlier)
    (pulls : Store.pulled l t = .ok c) : c = ∅ := by
  apply Store.pulled_eq_empty _ pulls
  intro text read
  obtain ⟨earlier, reached, -⟩ := Tree.read_eq_ok_iff.mp read
  exact unreached earlier reached

end Call

/-- A registration that succeeds keeps the catalog in the file that it writes, if the path led
there from the start or the catalog had nothing else to lose. If the path led nowhere, because
directories on it had yet to be made, the new entry is all that is left. -/
theorem register_keeps_entries_iff {d : Document} {name : String} {l : Locations} {t t' : Tree}
    {r : Registration} {place : Place} {c : Catalog}
    (done : d.register name l t = (.ok r, t'))
    (resolved : t'.resolve l.definition = .ok place)
    (apart : t'.Apart l.definition l.declarations) (defined : t.DefinesAt place c) :
    (t'.DefinesAt place (c.insert name (d.interface name).source) ↔
      (∃ earlier, t.resolve l.definition = .ok earlier) ∨ ∀ key ∈ c.keys, key = name) ∧
    ((∀ earlier, t.resolve l.definition ≠ .ok earlier) →
      t'.DefinesAt place (OrderedMap.insert ∅ name (d.interface name).source)) := by
  let call : Call := ⟨d, name⟩
  obtain ⟨c', u, pulls, -, first, second⟩ := call.register_eq_ok done
  have after : t'.DefinesAt place (c'.insert name (d.interface name).source) :=
    (Store.holds_of_writes first second apart).definesAt resolved
  -- Either the pull has read the file that the sync writes, or it has read none.
  by_cases reached : ∃ earlier, t.resolve l.definition = .ok earlier
  · obtain ⟨earlier, reaches⟩ := reached
    obtain rfl := Call.pulled_of_resolves reaches resolved first second defined pulls
    exact ⟨⟨fun _ => .inl ⟨earlier, reaches⟩, fun _ => after⟩,
      fun unreached => absurd reaches (unreached earlier)⟩
  · obtain rfl := Call.pulled_of_not_resolves (not_exists.mp reached) pulls
    refine ⟨?_, fun _ => after⟩
    rw [after.iff_eq, eq_comm, OrderedMap.empty_insert_eq_iff]
    simp [reached]

/-- `missing` is made by the sync only, so the pull does not find the definition beside it. The
command that attaches a document goes the same way. -/
theorem register_loses_entries :
    let c : Catalog := OrderedMap.insert ∅ "keep" "interface keep \x7b\n\x7d"
    let document := "\x7b\"variables\":[]\x7d"
    let t := (((∅ : Tree).writeText ⟨"def.json"⟩ c.definition).2.writeText ⟨"doc.json"⟩ document).2
    let l : Locations := ⟨⟨"missing/../def.json"⟩, ⟨"types.d.ts"⟩⟩
    let d : Document := ⟨[]⟩
    let args := ["attach", "doc.json", "-n", "new", "--definition=missing/../def.json",
      "--declarations=types.d.ts"]
    t.DefinesAt ["def.json"] c ∧ ∃ r t', d.register "new" l t = (.ok r, t') ∧
      (Command.session args).outcome t = (.ok (Command.Report.attached r 0 l), t') ∧
      t'.resolve l.definition = .ok ["def.json"] ∧ t'.Apart l.definition l.declarations ∧
      ¬t'.DefinesAt ["def.json"] (c.insert "new" (d.interface "new").source) := by
  intro c document t l d args
  let options : Command.StoreOptions := ⟨⟨"envuse.toml"⟩, some l.definition, some l.declarations⟩
  have parsed : Command.Request.parse args =
      .ok ⟨false, .attach ⟨"doc.json"⟩ (some "new") options⟩ :=
    eq_ok_of_toOption (by decide +kernel)
  have loaded : Document.loaded ⟨"doc.json"⟩ t = .ok d :=
    eq_ok_of_toOption (by decide +kernel)
  have located : options.located t = .ok l := eq_ok_of_toOption (by decide +kernel)
  let r : Registration := ⟨"new", "interface new \x7b\n\x7d", .inserted, 1⟩
  let t' := (d.register "new" l t).2
  have before : t.textAt? ["def.json"] = some c.definition := by decide +kernel
  have done : d.register "new" l t = (.ok r, t') :=
    Document.register_of_toOption (by decide +kernel)
  have resolved : t'.resolve l.definition = .ok ["def.json"] := by decide +kernel
  have elsewhere : t'.resolve l.declarations = .ok ["types.d.ts"] := by decide +kernel
  have after : t'.textAt? ["def.json"] =
      some (Catalog.definition (OrderedMap.insert ∅ "new" (d.interface "new").source)) := by
    decide +kernel
  refine ⟨⟨_, before, Catalog.ofDefinition_definition c⟩, r, t', done, ?_, resolved, ?_, ?_⟩
  · rw [Command.outcome_of_parse parsed, Command.Invocation.work, Command.outcome_attach, loaded,
      located]
    simp only [Command.interfaceName, Option.getD_some, done]
    rfl
  · exact Tree.apart_of_ne (by simp [resolved, elsewhere])
  · rw [Tree.DefinesAt.iff_eq ⟨_, after, Catalog.ofDefinition_definition _⟩]
    decide +kernel

/-- With `sub` in its place before the call, the same spelling keeps what was there. -/
theorem register_keeps_entries_beside_sub :
    let c : Catalog := OrderedMap.insert ∅ "keep" "interface keep \x7b\n\x7d"
    let t := (((∅ : Tree).writeText ⟨"sub/notes"⟩ "").2.writeText ⟨"def.json"⟩ c.definition).2
    let l : Locations := ⟨⟨"sub/../def.json"⟩, ⟨"types.d.ts"⟩⟩
    let d : Document := ⟨[]⟩
    (d.register "new" l t).2.DefinesAt ["def.json"]
      (c.insert "new" (d.interface "new").source) := by
  intro c t l d
  have before : t.textAt? ["def.json"] = some c.definition := by decide +kernel
  have done : d.register "new" l t = (.ok _, _) :=
    Document.register_of_toOption (show _ = some ⟨"new", "interface new \x7b\n\x7d", .inserted, 2⟩
      by decide +kernel)
  have resolved : (d.register "new" l t).2.resolve l.definition = .ok ["def.json"] := by
    decide +kernel
  have elsewhere : (d.register "new" l t).2.resolve l.declarations = .ok ["types.d.ts"] := by
    decide +kernel
  have reached : t.resolve l.definition = .ok ["def.json"] := by decide +kernel
  have apart : (d.register "new" l t).2.Apart l.definition l.declarations :=
    Tree.apart_of_ne (by simp [resolved, elsewhere])
  have keeps := register_keeps_entries_iff done resolved apart
    ⟨_, before, Catalog.ofDefinition_definition c⟩
  exact keeps.1.mpr (.inl ⟨_, reached⟩)

end TypeCatalog
