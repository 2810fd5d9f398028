import TypeCatalog.Proofs.Except
import TypeCatalog.Proofs.Toml.Document
import TypeCatalog.Settings

/-! Which settings are accepted, and what they say. Nothing but the two paths may be set; each of
them is the string that is given, and has its standard value if there is none, whatever the other
one is and however the document is spelt. -/
namespace TypeCatalog

open Toml (Key Item Span Table sortEntries)

namespace Toml

variable {α : Type} {entries entries' : List (Key × α)} {name : String}

def under (name : String) (entries : List (Key × α)) : Option α :=
  (entries.find? (·.1.name == name)).map Prod.snd

theorem under_cons (name : String) (e : Key × α) (rest : List (Key × α)) :
    under name (e :: rest) = if e.1.name = name then some e.2 else under name rest := by
  by_cases same : e.1.name = name <;> simp [under, same]

theorem under_eq_none (fresh : name ∉ entries.map (·.1.name)) : under name entries = none := by
  simpa [under] using fresh

/-- Where the names differ their order makes no difference. -/
theorem under_perm (perm : entries.Perm entries')
    (distinct : (entries.map (·.1.name)).Nodup) : under name entries = under name entries' := by
  induction perm with
  | nil => rfl
  | cons e _ ih => rw [under_cons, under_cons, ih (List.nodup_cons.mp distinct).2]
  | swap e e' rest =>
    have ne : e'.1.name ≠ e.1.name := by
      simp only [List.map_cons, List.nodup_cons, List.mem_cons, not_or] at distinct
      exact distinct.1.1
    simp only [under_cons]
    split <;> split <;> simp_all
  | trans first _ ih ih' => rw [ih distinct, ih' ((first.map _).nodup_iff.mp distinct)]

theorem sortEntries_perm (entries : List (Key × Item)) : (sortEntries entries).Perm entries :=
  List.mergeSort_perm _ _

end Toml

namespace Settings

open Toml (under under_cons under_eq_none under_perm sortEntries_perm)

inductive Chosen (standard : Path) : Option Item → Path → Prop where
  | given (span : Span) (s : String) : Chosen standard (some (.string span s)) ⟨s⟩
  | absent : Chosen standard none standard

/-- Each path has a key of its own in a table, and a place of its own in a list, where what
follows may be anything. -/
inductive Stores : Option Item → Locations → Prop where
  | absent : Stores none .standard
  | table (span : Span) {entries : List (Key × Item)} {l : Locations}
    (known : ∀ e ∈ entries, e.1.name ∈ storeNames)
    (definition : Chosen Locations.standard.definition (under "definition" entries) l.definition)
    (declarations :
      Chosen Locations.standard.declarations (under "declarations" entries) l.declarations) :
    Stores (some (.table span entries)) l
  | list (span : Span) {items : List Item} {l : Locations}
    (definition : Chosen Locations.standard.definition items[0]? l.definition)
    (declarations : Chosen Locations.standard.declarations items[1]? l.declarations) :
    Stores (some (.list span items)) l

/-- The entries of a document have no key but `store`, and say where the artifacts are. -/
structure Describes (entries : List (Key × Item)) (l : Locations) : Prop where
  known : ∀ e ∈ entries, e.1.name = "store"
  stores : Stores (under "store" entries) l

variable {standard p : Path} {item : Item} {entries : List (Key × Item)} {l l' : Locations}

theorem chosen_none_iff : Chosen standard none p ↔ p = standard := by
  constructor
  · rintro ⟨⟩
    rfl
  · rintro rfl
    exact .absent

theorem chosen_some_iff : Chosen standard (some item) p ↔ path item = .ok p := by
  constructor
  · rintro ⟨⟩
    rfl
  · intro read
    cases item with
    | string span s =>
      cases read
      exact .given span s
    | _ => cases read

theorem getD_path_eq_ok_iff {item? : Option Item} :
    (item?.map path).getD (.ok standard) = .ok p ↔ Chosen standard item? p := by
  cases item? with
  | none => simp [chosen_none_iff, eq_comm]
  | some item => simp [chosen_some_iff]

theorem setPath_eq_ok_iff {key : Key} : setPath l (key, item) = .ok l' ↔
    key.name = "definition" ∧ (∃ p, path item = .ok p ∧ { l with definition := p } = l') ∨
      key.name = "declarations" ∧ ∃ p, path item = .ok p ∧ { l with declarations := p } = l' := by
  unfold setPath
  by_cases first : key.name = "definition"
  · cases read : path item <;> simp [first, read, pure, Except.pure, bind, Except.bind]
  · by_cases second : key.name = "declarations"
    · cases read : path item <;> simp [second, read, pure, Except.pure, bind, Except.bind]
    · simp [first, second, throw, throwThe, MonadExceptOf.throw]

/-- From a table whose names differ each path is set once at most. -/
theorem foldlM_setPath_eq_ok_iff (distinct : (entries.map (·.1.name)).Nodup) :
    entries.foldlM setPath l = .ok l' ↔ (∀ e ∈ entries, e.1.name ∈ storeNames) ∧
      Chosen l.definition (under "definition" entries) l'.definition ∧
      Chosen l.declarations (under "declarations" entries) l'.declarations := by
  -- What has been set by then stands where the standard values stood, so `l` varies.
  induction entries generalizing l with
  | nil =>
    obtain ⟨definition, declarations⟩ := l
    obtain ⟨definition', declarations'⟩ := l'
    simp [under, chosen_none_iff, pure, Except.pure, eq_comm]
  | cons e rest ih =>
    obtain ⟨key, item⟩ := e
    obtain ⟨fresh, distinct⟩ := List.nodup_cons.mp distinct
    have once {name : String} (same : key.name = name) : under name rest = none :=
      under_eq_none (same ▸ fresh)
    simp only [List.foldlM_cons, bind_eq_ok_iff, setPath_eq_ok_iff, ih distinct, under_cons,
      List.forall_mem_cons]
    by_cases first : key.name = "definition"
    · simp [first, once first, chosen_none_iff, chosen_some_iff, storeNames, and_left_comm]
    · by_cases second : key.name = "declarations"
      · simpa [second, once second, chosen_none_iff, chosen_some_iff, storeNames] using and_rotate
      · simp [first, second, storeNames]

theorem store_eq_ok_iff (proper : item.Proper) : store item = .ok l ↔ Stores (some item) l := by
  cases item with
  | table span entries =>
    cases proper with
    | table _ distinct _ =>
      have perm := (sortEntries_perm entries).symm
      rw [store, foldlM_setPath_eq_ok_iff ((perm.map _).nodup_iff.mp distinct),
        ← under_perm perm distinct, ← under_perm perm distinct]
      simp only [← perm.mem_iff]
      constructor
      · exact fun ⟨known, definition, declarations⟩ => .table span known definition declarations
      · rintro (_ | ⟨_, known, definition, declarations⟩)
        exact ⟨known, definition, declarations⟩
  | list span items =>
    simp only [store, bind_eq_ok_iff, getD_path_eq_ok_iff]
    constructor
    · rintro ⟨definition, first, declarations, second, ⟨⟩⟩
      exact .list span first second
    · rintro (_ | _ | ⟨_, first, second⟩)
      exact ⟨_, first, _, second, rfl⟩
  | _ =>
    constructor
    · exact nofun
    · exact nofun

/-- The one entry that is allowed says it all. -/
theorem foldlM_setStore_eq_ok_iff (distinct : (entries.map (·.1.name)).Nodup) :
    entries.foldlM setStore l = .ok l' ↔ (∀ e ∈ entries, e.1.name = "store") ∧
      ((under "store" entries).map store).getD (.ok l) = .ok l' := by
  induction entries generalizing l with
  | nil => simp [under, pure, Except.pure]
  | cons e rest ih =>
    obtain ⟨key, item⟩ := e
    obtain ⟨fresh, distinct⟩ := List.nodup_cons.mp distinct
    simp only [List.foldlM_cons, bind_eq_ok_iff, setStore, ih distinct, under_cons,
      List.forall_mem_cons]
    by_cases named : key.name = "store"
    · have once : under "store" rest = none := under_eq_none (named ▸ fresh)
      simp [named, once, and_comm]
    · simp [named]

theorem ofEntries_eq_ok_iff (table : Table Item.Proper entries) :
    ofEntries entries = .ok l ↔ Describes entries l := by
  have perm := (sortEntries_perm entries).symm
  rw [ofEntries, foldlM_setStore_eq_ok_iff ((perm.map _).nodup_iff.mp table.distinct),
    ← under_perm perm table.distinct]
  simp only [← perm.mem_iff]
  have stores : ((under "store" entries).map store).getD (.ok .standard) = .ok l ↔
      Stores (under "store" entries) l := by
    cases found : under "store" entries with
    | none =>
      constructor
      · rintro ⟨⟩
        exact .absent
      · rintro ⟨⟩
        rfl
    | some item =>
      obtain ⟨e, there, rfl⟩ := Option.map_eq_some_iff.mp found
      exact store_eq_ok_iff (table.each e (List.mem_of_find?_eq_some there))
  rw [stores]
  exact ⟨fun ⟨known, stores⟩ => ⟨known, stores⟩, fun ⟨known, stores⟩ => ⟨known, stores⟩⟩

theorem parse_eq_ok_iff {text : String} :
    parse text = .ok l ↔ ∃ entries, Toml.parse text = some entries ∧ Describes entries l := by
  unfold parse
  cases parsed : Toml.parse text with
  | none => simp
  | some entries =>
    simp only [Option.some.injEq, exists_eq_left', mapError_eq_ok_iff,
      ofEntries_eq_ok_iff (Toml.parse_table parsed)]

end Settings

theorem Source.settings_eq_ok_iff {source : Source} {l : Locations} :
    source.settings = .ok l ↔
      ∃ entries, Toml.parse source.text = some entries ∧ Settings.Describes entries l := by
  rw [settings, mapError_eq_ok_iff, Settings.parse_eq_ok_iff]

end TypeCatalog
