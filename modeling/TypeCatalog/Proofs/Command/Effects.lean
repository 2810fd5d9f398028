import TypeCatalog.Proofs.Command.Outcome
import TypeCatalog.Proofs.Files.Changes

/-! What the commands do to the files. Only an attachment writes, after all that it reads has been
found good, and it writes nothing but its two artifacts and the directories they stand in. -/
namespace TypeCatalog

/-- What stays as it was while the artifacts are written, and what may be new beside them. -/
structure Locations.Spares (l : Locations) (t t' : Tree) : Prop where
  files : ∀ place content, t.at? place = some (.file content) →
    t'.resolve l.definition ≠ .ok place → t'.resolve l.declarations ≠ .ok place →
      t'.at? place = some (.file content)
  directories : ∀ place, t.at? place = some .directory → t'.at? place = some .directory
  present : ∀ place, (t.at? place).isSome → (t'.at? place).isSome
  made : ∀ place, t.at? place ≠ some .directory → t'.at? place = some .directory →
    ∃ q ∈ l.definition.ancestors ++ l.declarations.ancestors, t'.resolve q = .ok place

/-- No paths but those of the artifacts are written to. -/
abbrev Locations.Confines (l : Locations) (t t' : Tree) : Prop :=
  t.Confined t' [l.definition, l.declarations] (l.definition.ancestors ++ l.declarations.ancestors)

theorem Locations.Confines.spares {l : Locations} {t t' : Tree} (confined : l.Confines t t') :
    l.Spares t t' where
  files place content there other other' := by
    apply confined.file there
    simpa using ⟨other, other'⟩
  directories := confined.keepsDirectories
  present _ := confined.isSome
  made _ := confined.exists_directory

namespace Store

/-- However far a sync gets. -/
theorem sync_confines (s : Store) (t : Tree) : s.locations.Confines t (s.sync t).2 := by
  obtain ⟨⟨definition, declarations⟩, c⟩ := s
  have first := (t.writeText_confined definition c.definition).mono
    (show [definition] ⊆ [definition, declarations] by simp)
    (List.subset_append_left _ declarations.ancestors)
  have second (u : Tree) := (u.writeText_confined declarations c.declarations).mono
    (show [declarations] ⊆ [definition, declarations] by simp)
    (List.subset_append_right definition.ancestors _)
  rw [sync_eq]
  generalize t.writeText definition c.definition = defined at first ⊢
  rcases defined with ⟨_ | _, u⟩
  · exact first
  · exact first.trans (second u)

/-- Nothing but the files can keep a catalog from being written. -/
theorem sync_error {s : Store} {t : Tree} {e : CatalogError} (failed : (s.sync t).1 = .error e) :
    ∃ path cause, e = .io path cause := by
  rw [sync_eq] at failed
  split at failed
  · cases failed
    exact ⟨_, _, rfl⟩
  · rename_i u _
    cases declared : (u.writeText s.locations.declarations s.catalog.declarations).1 with
    | error cause =>
      simp only [declared, Except.mapError] at failed
      cases failed
      exact ⟨_, _, rfl⟩
    | ok _ => simp [declared, Except.mapError] at failed

end Store

/-- Once the definition has been pulled, a registration does what its sync does. -/
theorem Call.register_spares {call : Call} {l : Locations} {t t' : Tree} {c : Catalog}
    {result : Except CatalogError Registration} (pulls : Store.pulled l t = .ok c)
    (done : call.document.register call.name l t = (result, t')) :
    l.Spares t t' ∧ ∀ e, result = .error e → ∃ path cause, e = .io path cause := by
  have confined : l.Confines t (Store.sync ⟨l, call.enter c⟩ t).2 := Store.sync_confines _ t
  rw [register_eq, pulls] at done
  rcases synced : Store.sync ⟨l, call.enter c⟩ t with ⟨e' | _, u⟩
  · simp only [synced, Except.map] at done confined
    cases done
    refine ⟨confined.spares, ?_⟩
    rintro e ⟨⟩
    exact Store.sync_error (congrArg Prod.fst synced)
  · simp only [synced, Except.map] at done confined
    cases done
    exact ⟨confined.spares, nofun⟩

namespace Command

/-- Commands that attach nothing only read. -/
theorem Invocation.keeps_tree {invocation : Invocation}
    (other : ∀ document name? options, invocation ≠ .attach document name? options) (t : Tree) :
    (invocation.work.run.outcome t).2 = t := by
  cases invocation with
  | help => rfl
  | version => rfl
  | completions shell => rfl
  | render document name? => rw [work, outcome_render]
  | attach document name? options => exact absurd rfl (other document name? options)
  | list options => rw [work, outcome_list]

section Attach

variable {t t' : Tree} {document : Path} {name? : Option String} {options : StoreOptions}
variable {d : Document} {l : Locations}

theorem attach_unpulled {e : CatalogError} (loaded : Document.loaded document t = .ok d)
    (located : options.located t = .ok l) (unpulled : Store.pulled l t = .error e) :
    (attach document name? options).run.outcome t =
      (.error (.attach (interfaceName document name?) e), t) := by
  let call : Call := ⟨d, interfaceName document name?⟩
  have stopped : d.register (interfaceName document name?) l t = (.error e, t) :=
    (call.register_eq l t).trans (by rw [unpulled])
  simp only [outcome_attach, loaded, located, stopped]

theorem attach_spares {c : Catalog} {result : Except Failure String}
    (loaded : Document.loaded document t = .ok d) (located : options.located t = .ok l)
    (pulls : Store.pulled l t = .ok c)
    (outcome : (attach document name? options).run.outcome t = (result, t')) :
    l.Spares t t' ∧ ∀ failure, result = .error failure →
      ∃ path cause, failure = .attach (interfaceName document name?) (.io path cause) := by
  let call : Call := ⟨d, interfaceName document name?⟩
  simp only [outcome_attach, loaded, located] at outcome
  rcases done : d.register (interfaceName document name?) l t with ⟨e | r, u⟩
  · obtain ⟨spares, failed⟩ := call.register_spares pulls done
    obtain ⟨path, cause, rfl⟩ := failed e rfl
    rw [done] at outcome
    cases outcome
    refine ⟨spares, ?_⟩
    rintro failure ⟨⟩
    exact ⟨path, cause, rfl⟩
  · rw [done] at outcome
    cases outcome
    exact ⟨(call.register_spares pulls done).1, nofun⟩

end Attach

/-- A command line that cannot be understood does nothing. An attachment leaves the tree as it is
where the document, the settings or the definition cannot be read or are refused, and it ends with
that failure. Otherwise it spares all but its artifacts, and it can fail at the files only. All
other commands leave the tree as it is. -/
theorem session_effects (args : List String) (t : Tree) :
    let trace := (session args).run t
    match Request.parse args with
    | .error e => trace.result = .error (.usage e) ∧ trace.tree = t
    | .ok ⟨_, .attach document name? options⟩ =>
      match Document.loaded document t, options.located t with
      | .error e, _ => trace.result = .error (.document e) ∧ trace.tree = t
      | .ok _, .error e => trace.result = .error (.settings e) ∧ trace.tree = t
      | .ok _, .ok l =>
        let name := interfaceName document name?
        match Store.pulled l t with
        | .error e => trace.result = .error (.attach name e) ∧ trace.tree = t
        | .ok _ => l.Spares t trace.tree ∧ ∀ failure, trace.result = .error failure →
            ∃ path cause, failure = .attach name (.io path cause)
    | .ok _ => trace.tree = t := by
  intro trace
  have outcome : (session args).outcome t = (trace.result, trace.tree) := rfl
  rw [outcome_session] at outcome
  -- The cases are those of the statement: no command line, an attachment, any other command.
  split
  · rename_i e parsed
    rw [parsed] at outcome
    exact ⟨congrArg Prod.fst outcome.symm, congrArg Prod.snd outcome.symm⟩
  · rename_i verbose document name? options parsed
    simp only [parsed, Invocation.work] at outcome
    cases loaded : Document.loaded document t with
    | error e => simpa [outcome_attach, loaded, eq_comm] using outcome
    | ok d =>
      cases located : options.located t with
      | error e => simpa [outcome_attach, loaded, located, eq_comm] using outcome
      | ok l =>
        simp only
        cases pulls : Store.pulled l t with
        | error e =>
          rw [attach_unpulled loaded located pulls] at outcome
          exact ⟨congrArg Prod.fst outcome.symm, congrArg Prod.snd outcome.symm⟩
        | ok c => exact attach_spares loaded located pulls outcome
  · rename_i request other parsed
    obtain ⟨verbose, invocation⟩ := request
    rw [parsed] at outcome
    have kept : (invocation.work.run.outcome t).2 = t := by
      apply Invocation.keeps_tree
      rintro document name? options rfl
      exact other verbose document name? options rfl
    exact (congrArg Prod.snd outcome).symm.trans kept

end Command

end TypeCatalog
