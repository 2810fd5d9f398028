import Mathlib.Data.List.Nodup
import TypeCatalog.Toml.Draft

/-! A key is set once. However statements reach into the tables of a document, the keys of every
table differ in their names, and so they do when the document is finished. -/
namespace TypeCatalog.Toml

structure Table {α : Type} (P : α → Prop) (entries : List (Key × α)) : Prop where
  distinct : (entries.map (·.1.name)).Nodup
  each : ∀ e ∈ entries, P e.2

namespace Table

variable {α : Type} {P : α → Prop} {entries : List (Key × α)}

theorem nil : Table P ([] : List (Key × α)) := ⟨.nil, nofun⟩

theorem concat (table : Table P entries) {key : Key} {a : α} (good : P a)
    (fresh : ∀ e ∈ entries, e.1.name ≠ key.name) : Table P (entries ++ [(key, a)]) := by
  refine ⟨?_, fun e member => ?_⟩
  · rw [List.map_append, List.nodup_append]
    refine ⟨table.distinct, List.nodup_singleton _, fun name member name' last same => ?_⟩
    obtain ⟨e, there, rfl⟩ := List.mem_map.mp member
    obtain rfl := List.mem_singleton.mp last
    exact fresh e there same
  · rcases List.mem_append.mp member with there | last
    · exact table.each e there
    · obtain rfl := List.mem_singleton.mp last
      exact good

theorem filter (table : Table P entries) (keeps : Key × α → Bool) :
    Table P (entries.filter keeps) :=
  ⟨table.distinct.sublist (List.filter_sublist.map _),
    fun e member => table.each e (List.mem_of_mem_filter member)⟩

/-- A change to values that leaves the keys as they are. -/
theorem map {β : Type} {Q : β → Prop} (table : Table P entries) {f : Key × α → Key × β}
    (names : ∀ e, (f e).1.name = e.1.name) (good : ∀ e ∈ entries, P e.2 → Q (f e).2) :
    Table Q (entries.map f) := by
  refine ⟨?_, fun e member => ?_⟩
  · simpa [Function.comp_def, names] using table.distinct
  · obtain ⟨e', there, rfl⟩ := List.mem_map.mp member
    exact good e' there (table.each e' there)

end Table

inductive Item.Proper : Item → Prop where
  | string (span : Span) (s : String) : Proper (.string span s)
  | integer (span : Span) (n : Int) : Proper (.integer span n)
  | float (span : Span) (f : Float) : Proper (.float span f)
  | boolean (span : Span) (b : Bool) : Proper (.boolean span b)
  | moment (span : Span) : Proper (.moment span)
  | badNumber (span : Span) : Proper (.badNumber span)
  | list (span : Span) {items : List Item} (each : ∀ item ∈ items, Proper item) :
    Proper (.list span items)
  | table (span : Span) {entries : List (Key × Item)} (distinct : (entries.map (·.1.name)).Nodup)
    (each : ∀ e ∈ entries, Proper e.2) : Proper (.table span entries)

namespace Draft

inductive Proper : Draft → Prop where
  | value {item : Item} (proper : item.Proper) : Proper (.value item)
  | table (span : Span) (origin : Origin) {entries : Entries}
    (distinct : (entries.map (·.1.name)).Nodup) (each : ∀ e ∈ entries, Proper e.2) :
    Proper (.table span origin entries)
  | tables (span : Span) {latest : Span × Entries} {earlier : List (Span × Entries)}
    (distinct : ∀ t ∈ latest :: earlier, (t.2.map (·.1.name)).Nodup)
    (each : ∀ t ∈ latest :: earlier, ∀ e ∈ t.2, Proper e.2) : Proper (.tables span latest earlier)

abbrev Entries.Proper (entries : Entries) : Prop := Table Draft.Proper entries

theorem proper_table_iff {span : Span} {origin : Origin} {entries : Entries} :
    (table span origin entries).Proper ↔ entries.Proper := by
  constructor
  · rintro (_ | ⟨_, _, distinct, each⟩)
    exact ⟨distinct, each⟩
  · exact fun ⟨distinct, each⟩ => .table span origin distinct each

theorem proper_tables_iff {span : Span} {latest : Span × Entries}
    {earlier : List (Span × Entries)} :
    (tables span latest earlier).Proper ↔ ∀ t ∈ latest :: earlier, t.2.Proper := by
  constructor
  · rintro (_ | _ | ⟨_, distinct, each⟩)
    exact fun t member => ⟨distinct t member, each t member⟩
  · exact fun proper => .tables span (fun t member => (proper t member).distinct)
      fun t member => (proper t member).each

namespace Entries

variable {entries entries' : Entries} {name : String}

theorem fresh_of_find? (missing : entries.find? name = none) : ∀ e ∈ entries, e.1.name ≠ name := by
  intro e member same
  have none := List.find?_eq_none.mp (Option.map_eq_none_iff.mp missing) e member
  simp [same] at none

theorem Proper.find? {draft : Draft} (proper : entries.Proper)
    (found : entries.find? name = some draft) : draft.Proper := by
  obtain ⟨e, there, rfl⟩ := Option.map_eq_some_iff.mp found
  exact proper.each e (List.mem_of_find?_eq_some there)

theorem Proper.replace {draft : Draft} (proper : entries.Proper) (good : draft.Proper) :
    (entries.replace name draft).Proper := by
  refine proper.map (fun e => ?_) (fun e _ there => ?_)
  · split <;> rfl
  · split
    · exact good
    · exact there

/-- The latest of repeated tables changes. -/
theorem Proper.replace_latest {span at' : Span} {inner inner' : Entries}
    {earlier : List (Span × Entries)} (proper : entries.Proper)
    (found : entries.find? name = some (.tables span (at', inner) earlier))
    (good : inner'.Proper) :
    (entries.replace name (.tables span (at', inner') earlier)).Proper := by
  apply proper.replace
  have others := proper_tables_iff.mp (proper.find? found)
  exact proper_tables_iff.mpr (List.forall_mem_cons.mpr ⟨good, (List.forall_mem_cons.mp others).2⟩)

theorem Proper.latest {span at' : Span} {inner : Entries} {earlier : List (Span × Entries)}
    (proper : entries.Proper)
    (found : entries.find? name = some (.tables span (at', inner) earlier)) : inner.Proper :=
  proper_tables_iff.mp (proper.find? found) _ List.mem_cons_self

/-- What a change keeps is kept where it is made at the end of a path. -/
theorem modify_proper {f : Entries → Option Entries}
    (keeps : ∀ {inner inner' : Entries}, inner.Proper → f inner = some inner' → inner'.Proper)
    {path : List Key} (proper : entries.Proper) (done : modify f path entries = some entries') :
    entries'.Proper := by
  fun_induction modify f path entries generalizing entries' with
  | case1 entries => exact keeps proper done
  | case2 key path entries missing ih =>
    obtain ⟨inner, changed, ⟨⟩⟩ := Option.bind_eq_some_iff.mp done
    exact proper.concat (proper_table_iff.mpr (ih .nil changed)) (fresh_of_find? missing)
  | case3 key path entries span origin inner found ih =>
    obtain ⟨inner', changed, ⟨⟩⟩ := Option.bind_eq_some_iff.mp done
    have good := ih (proper_table_iff.mp (proper.find? found)) changed
    exact proper.replace (proper_table_iff.mpr good)
  | case4 key path entries span at' inner earlier found ih =>
    obtain ⟨inner', changed, ⟨⟩⟩ := Option.bind_eq_some_iff.mp done
    exact proper.replace_latest found (ih (proper.latest found) changed)
  | case5 => cases done

theorem startTable_proper {key : Key} {span : Span} (proper : entries.Proper)
    (done : startTable key span entries = some entries') : entries'.Proper := by
  rw [startTable] at done
  split at done
  case h_1 missing =>
    cases done
    exact proper.concat (proper_table_iff.mpr .nil) (fresh_of_find? missing)
  case h_2 inner found =>
    cases done
    have good := proper_table_iff.mp (proper.find? found)
    refine (proper.filter _).concat (proper_table_iff.mpr good) fun e member => ?_
    simpa using (List.mem_filter.mp member).2
  case h_3 => cases done

theorem startNextTable_proper {key : Key} {span : Span} (proper : entries.Proper)
    (done : startNextTable key span entries = some entries') : entries'.Proper := by
  rw [startNextTable] at done
  split at done
  case h_1 missing =>
    cases done
    have good : (tables span (span, []) []).Proper :=
      proper_tables_iff.mpr (List.forall_mem_singleton.mpr .nil)
    exact proper.concat good (fresh_of_find? missing)
  case h_2 first latest earlier found =>
    cases done
    have others := proper_tables_iff.mp (proper.find? found)
    exact proper.replace (proper_tables_iff.mpr (List.forall_mem_cons.mpr ⟨.nil, others⟩))
  case h_3 => cases done

theorem assign_proper {item : Item} (good : item.Proper) {closed : Bool} {path : List Key}
    (proper : entries.Proper) (done : assign item closed path entries = some entries') :
    entries'.Proper := by
  fun_induction assign item closed path entries generalizing entries' with
  | case1 => cases done
  | case2 => cases done
  | case3 closed key entries _ missing =>
    cases done
    exact proper.concat (.value good) (fresh_of_find? missing)
  | case4 => cases done
  | case5 closed key path entries _ missing ih =>
    obtain ⟨inner, changed, ⟨⟩⟩ := Option.bind_eq_some_iff.mp done
    exact proper.concat (proper_table_iff.mpr (ih .nil changed)) (fresh_of_find? missing)
  | case6 closed key path entries _ span inner found ih
  | case7 closed key path entries _ span inner found ih =>
    obtain ⟨inner', changed, ⟨⟩⟩ := Option.bind_eq_some_iff.mp done
    have inner_proper := ih (proper_table_iff.mp (proper.find? found)) changed
    exact proper.replace (proper_table_iff.mpr inner_proper)
  | case8 closed key path entries _ span at' inner earlier found ih =>
    obtain ⟨inner', changed, ⟨⟩⟩ := Option.bind_eq_some_iff.mp done
    exact proper.replace_latest found (ih (proper.latest found) changed)
  | case9 => cases done
  | case10 => cases done

end Entries

theorem finishEntries_eq_map (entries : Entries) :
    finishEntries entries = entries.map fun e => (e.1, e.2.finish) := by
  induction entries with
  | nil => rfl
  | cons e rest ih => rw [finishEntries, ih, List.map_cons]

theorem mem_finishTables {earlier : List (Span × Entries)} {later : List Item} {item : Item}
    (member : item ∈ finishTables earlier later) :
    item ∈ later ∨ ∃ t ∈ earlier, item = .table t.1 (finishEntries t.2) := by
  induction earlier generalizing later with
  | nil => exact .inl member
  | cons t earlier ih =>
    rcases ih member with there | ⟨t', there, rfl⟩
    · rcases List.mem_cons.mp there with rfl | there
      · exact .inr ⟨t, List.mem_cons_self, rfl⟩
      · exact .inl there
    · exact .inr ⟨t', List.mem_cons_of_mem _ there, rfl⟩

/-- A finished table has the names of the draft. -/
theorem finishEntries_table {entries : Entries} (distinct : (entries.map (·.1.name)).Nodup)
    (each : ∀ e ∈ entries, e.2.finish.Proper) : Table Item.Proper (finishEntries entries) := by
  have table : Table (fun draft : Draft => draft.finish.Proper) entries := ⟨distinct, each⟩
  rw [finishEntries_eq_map]
  exact table.map (fun _ => rfl) fun _ _ good => good

/-- By induction on what is proper, so that the tables inside are known to be finished. -/
theorem finish_proper {draft : Draft} (proper : draft.Proper) : draft.finish.Proper := by
  have finished {entries : Entries} (span : Span) (distinct : (entries.map (·.1.name)).Nodup)
      (each : ∀ e ∈ entries, e.2.finish.Proper) :
      (Item.table span (finishEntries entries)).Proper :=
    have table := finishEntries_table distinct each
    .table span table.distinct table.each
  induction proper with
  | value proper => exact proper
  | table span origin distinct _ ih => exact finished span distinct ih
  | @tables span latest earlier distinct _ ih =>
    refine .list span fun item member => ?_
    rcases mem_finishTables member with last | ⟨t, there, rfl⟩
    · obtain rfl := List.mem_singleton.mp last
      exact finished _ (distinct latest List.mem_cons_self) (ih latest List.mem_cons_self)
    · have there : t ∈ latest :: earlier := List.mem_cons_of_mem _ there
      exact finished _ (distinct t there) (ih t there)

theorem Entries.Proper.finishEntries {entries : Entries} (proper : entries.Proper) :
    Table Item.Proper (finishEntries entries) :=
  finishEntries_table proper.distinct fun e member => finish_proper (proper.each e member)

end Draft

end TypeCatalog.Toml
