import TypeCatalog.Proofs.Toml.Draft
import TypeCatalog.Toml.Document

/-! In a text that is read as TOML no table has two keys of one name, be it spelt with headers,
with dotted keys or inline. -/
namespace TypeCatalog.Toml

/-- Whatever a scan reads is of one kind. -/
def Scan.Yields {α : Type} (scan : Scan α) (P : α → Prop) : Prop :=
  ∀ s a r, scan.read s = some (a, r) → P a

theorem Scan.Yields.separated {α : Type} {scan : Scan α} {P : α → Prop} (yields : scan.Yields P)
    {endMark : Char} {s r : List Char} {as : List α}
    (done : scan.separated endMark s = some (as, r)) : ∀ a ∈ as, P a := by
  fun_induction Scan.separated scan endMark s generalizing as r with
  | case1 => cases done
  | case2 => cases done
  | case3 =>
    cases done
    exact List.forall_mem_nil P
  | case4 => cases done
  | case5 _ _ _ _ _ a _ read _ _ ih =>
    obtain ⟨⟨others, rest⟩, more, ⟨⟩⟩ := Option.map_eq_some_iff.mp done
    exact List.forall_mem_cons.mpr ⟨yields _ _ _ read, ih more⟩
  | case6 _ _ _ _ _ a _ read =>
    cases done
    exact List.forall_mem_singleton.mpr (yields _ _ _ read)
  | case7 => cases done
  | case8 => cases done

theorem Item.ofWord?_proper {span : Span} {word : List Char} {item : Item}
    (done : ofWord? span word = some item) : item.Proper := by
  simp only [ofWord?, ofNumber?] at done
  repeat' split at done
  all_goals cases done
  all_goals constructor

theorem scalar_yields (total : Nat) : (scalar total).Yields Item.Proper := by
  intro s item r done
  simp only [scalar] at done
  split at done
  · cases done
    exact .string _ _
  · split at done
    · cases done
    · obtain ⟨item, read, ⟨⟩⟩ := Option.map_eq_some_iff.mp done
      exact Item.ofWord?_proper read

theorem pair_yields {total : Nat} {multiline : Bool} {value : Scan Item}
    (yields : value.Yields Item.Proper) :
    (pair total multiline value).Yields fun p => p.2.Proper := by
  intro s p r done
  obtain ⟨⟨path, t⟩, -, done⟩ := Option.bind_eq_some_iff.mp done
  obtain ⟨⟨item, u⟩, assigned, ⟨⟩⟩ := Option.bind_eq_some_iff.mp done
  obtain ⟨v, -, assigned⟩ := Option.bind_eq_some_iff.mp assigned
  split at assigned
  · obtain ⟨_, -, read⟩ := Option.bind_eq_some_iff.mp assigned
    exact yields _ _ _ read
  · cases assigned

theorem foldlM_assign_proper {pairs : List (List Key × Item)} {entries entries' : Draft.Entries}
    (each : ∀ p ∈ pairs, p.2.Proper) (proper : entries.Proper)
    (done : pairs.foldlM (fun entries (path, item) =>
      Draft.Entries.assign item false path entries) entries = some entries') :
    entries'.Proper := by
  induction pairs generalizing entries with
  | nil =>
    cases done
    exact proper
  | cons p pairs ih =>
    obtain ⟨good, others⟩ := List.forall_mem_cons.mp each
    obtain ⟨next, assigned, rest⟩ := Option.bind_eq_some_iff.mp done
    exact ih others (Draft.Entries.assign_proper good proper assigned) rest

theorem inlineEntries_table {pairs : List (List Key × Item)} {entries : List (Key × Item)}
    (each : ∀ p ∈ pairs, p.2.Proper) (done : inlineEntries pairs = some entries) :
    Table Item.Proper entries := by
  obtain ⟨drafts, assigned, ⟨⟩⟩ := Option.bind_eq_some_iff.mp done
  exact (foldlM_assign_proper each .nil assigned).finishEntries

theorem container_yields {total : Nat} {inner : Scan Item} (yields : inner.Yields Item.Proper) :
    (container total inner).Yields Item.Proper := by
  intro s item r done
  simp only [container] at done
  split at done
  · obtain ⟨⟨items, t⟩, read, ⟨⟩⟩ := Option.bind_eq_some_iff.mp done
    exact .list _ (yields.separated read)
  · obtain ⟨⟨pairs, t⟩, read, done⟩ := Option.bind_eq_some_iff.mp done
    obtain ⟨entries, made, ⟨⟩⟩ := Option.bind_eq_some_iff.mp done
    have table := inlineEntries_table ((pair_yields yields).separated read) made
    exact .table _ table.distinct table.each
  · exact scalar_yields total _ _ _ done

theorem value_yields (total depth : Nat) : (value total depth).Yields Item.Proper := by
  induction depth with
  | zero => exact scalar_yields total
  | succ depth ih => exact container_yields ih

theorem Progress.enter_proper {p q : Progress} {path : List Key} {span : Span}
    {start : Key → Span → Draft.Entries → Option Draft.Entries}
    (keeps : ∀ {key inner inner'}, Table Draft.Proper inner →
      start key span inner = some inner' → Table Draft.Proper inner')
    (proper : p.entries.Proper) (done : p.enter start path span = some q) : q.entries.Proper := by
  obtain ⟨key, -, done⟩ := Option.bind_eq_some_iff.mp done
  obtain ⟨entries, changed, ⟨⟩⟩ := Option.bind_eq_some_iff.mp done
  exact Draft.Entries.modify_proper keeps proper changed

theorem Progress.assign_proper {p q : Progress} {path : List Key} {item : Item}
    (good : item.Proper) (proper : p.entries.Proper) (done : p.assign path item = some q) :
    q.entries.Proper := by
  obtain ⟨entries, changed, ⟨⟩⟩ := Option.bind_eq_some_iff.mp done
  exact Draft.Entries.modify_proper (Draft.Entries.assign_proper good) proper changed

theorem statement_proper {total : Nat} {p q : Progress} {s r : List Char}
    (proper : p.entries.Proper) (done : statement total p s = some (q, r)) : q.entries.Proper := by
  unfold statement at done
  split at done
  · obtain ⟨⟨path, t⟩, -, done⟩ := Option.bind_eq_some_iff.mp done
    obtain ⟨q, entered, ⟨⟩⟩ := Option.bind_eq_some_iff.mp done
    exact Progress.enter_proper Draft.Entries.startNextTable_proper proper entered
  · obtain ⟨⟨path, t⟩, -, done⟩ := Option.bind_eq_some_iff.mp done
    obtain ⟨q, entered, ⟨⟩⟩ := Option.bind_eq_some_iff.mp done
    exact Progress.enter_proper Draft.Entries.startTable_proper proper entered
  · obtain ⟨⟨⟨path, item⟩, t⟩, read, done⟩ := Option.bind_eq_some_iff.mp done
    obtain ⟨q, assigned, ⟨⟩⟩ := Option.bind_eq_some_iff.mp done
    have good := pair_yields (value_yields total depthLimit) _ _ _ read
    exact Progress.assign_proper good proper assigned

theorem statements_proper {total : Nat} {p q : Progress} {s : List Char}
    (proper : p.entries.Proper) (done : statements total p s = some q) : q.entries.Proper := by
  fun_induction statements total p s with
  | case1 => cases done
  | case2 =>
    cases done
    exact proper
  | case3 => cases done
  | case4 => cases done
  | case5 _ _ _ _ _ _ _ made _ _ ih => exact ih (statement_proper proper made) done

theorem parse_table {text : String} {entries : List (Key × Item)}
    (parsed : parse text = some entries) : Table Item.Proper entries := by
  obtain ⟨p, done, rfl⟩ := Option.map_eq_some_iff.mp parsed
  exact (statements_proper .nil done).finishEntries

end TypeCatalog.Toml
