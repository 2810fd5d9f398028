import TypeCatalog.Proofs.Command.Outcome
import TypeCatalog.Proofs.Command.Spelling
import TypeCatalog.Proofs.Settings

/-! Where the artifacts of a command are. Each is where its option says, else where the settings
say, else in its standard place; the other one makes no difference to it. -/
namespace TypeCatalog

namespace Settings

/-- The entries of a settings file. A file that is not there has none. -/
def Entries (t : Tree) (p : Path) (entries : List (Toml.Key × Toml.Item)) : Prop :=
  (t.read p = .error .notFound ∧ entries = []) ∨
    ∃ text, t.read p = .ok text ∧ Toml.parse text = some entries

theorem describes_nil_iff {l : Locations} : Describes [] l ↔ l = .standard := by
  constructor
  · rintro ⟨-, ⟨⟩⟩
    rfl
  · rintro rfl
    exact ⟨nofun, .absent⟩

theorem loaded_eq_ok_iff {p : Path} {t : Tree} {l : Locations} :
    loaded p t = .ok l ↔ ∃ entries, Entries t p entries ∧ Describes entries l := by
  rw [loaded_eq]
  simp only [Entries, or_and_right, exists_or, and_assoc, exists_and_left, exists_eq_left,
    describes_nil_iff]
  cases read : t.read p with
  | error e => cases e <;> simp [FileError.orMissing, eq_comm]
  | ok text => simp [FileError.orMissing, mapError_eq_ok_iff, Source.settings_eq_ok_iff]

end Settings

namespace Command

/-- Where the artifacts are by the options that are given, and by the settings for an artifact
without an option. -/
def Resolves (given : OrderedMap Setting String) (t : Tree) (l : Locations) : Prop :=
  ∃ entries configured,
    Settings.Entries t ⟨(given.get? .config).getD "envuse.toml"⟩ entries ∧
    Settings.Describes entries configured ∧
    l.definition = ((given.get? .definition).map Path.mk).getD configured.definition ∧
    l.declarations = ((given.get? .declarations).map Path.mk).getD configured.declarations

theorem located_eq_ok_iff {given : OrderedMap Setting String} {t : Tree} {l : Locations} :
    (StoreOptions.ofGiven given).located t = .ok l ↔ Resolves given t l := by
  have settings : (StoreOptions.ofGiven given).settings =
      ⟨(given.get? .config).getD "envuse.toml"⟩ := by
    unfold StoreOptions.ofGiven
    cases given.get? .config <;> rfl
  rw [StoreOptions.located, settings, map_eq_ok_iff]
  simp only [Settings.loaded_eq_ok_iff]
  constructor
  · rintro ⟨configured, ⟨entries, read, described⟩, rfl⟩
    exact ⟨entries, configured, read, described, rfl, rfl⟩
  · rintro ⟨entries, configured, read, described, definition, declarations⟩
    refine ⟨configured, ⟨entries, read, described⟩, ?_⟩
    obtain ⟨_, _⟩ := l
    exact Locations.mk.injEq .. |>.mpr ⟨definition.symm, declarations.symm⟩

/-- Settings are accepted exactly if they have no unknown key and no value of a wrong kind where one
is looked at, and then each path is the string that is given for it, or its standard value if there
is none, be the other one given or not. A listing and an attachment work on the artifacts that
result from the options, however they are spelt, and from the settings for an artifact without an
option. Where nothing results they fail, and change nothing. -/
theorem locations_resolved :
    (∀ (source : Source) (l : Locations), source.settings = .ok l ↔
      ∃ entries, Toml.parse source.text = some entries ∧ Settings.Describes entries l) ∧
    ∀ (given : OrderedMap Setting String) (t : Tree),
      (∀ args, Spelling .list none given.entries args →
        (∀ l, Resolves given t l → (session ("list" :: args)).outcome t = listing l t) ∧
        ((∀ l, ¬Resolves given t l) →
          ∃ e, (session ("list" :: args)).outcome t = (.error (.settings e), t))) ∧
      ∀ document args, Spelling .attach (some document) given.entries args →
        (∀ l, Resolves given t l → (session ("attach" :: args)).outcome t =
          attachment ⟨document⟩ (given.get? .name) l t) ∧
        ((∀ l, ¬Resolves given t l) →
          ∃ e, (session ("attach" :: args)).outcome t = (.error e, t)) := by
  refine ⟨fun source l => Source.settings_eq_ok_iff, fun given t => ⟨fun args spelling => ?_,
    fun document args spelling => ?_⟩⟩
  · rw [outcome_of_parse spelling.parse_list]
    refine ⟨fun l resolves => outcome_list_of_located (located_eq_ok_iff.mpr resolves), ?_⟩
    intro nowhere
    obtain ⟨e, failed⟩ :=
      exists_located_error fun l located => nowhere l (located_eq_ok_iff.mp located)
    exact ⟨e, by simp only [Invocation.work, outcome_list, failed]⟩
  · rw [outcome_of_parse spelling.parse_attach]
    refine ⟨fun l resolves =>
      outcome_attach_of_located (located_eq_ok_iff.mpr resolves) _ _, ?_⟩
    intro nowhere
    obtain ⟨e, failed⟩ :=
      exists_located_error fun l located => nowhere l (located_eq_ok_iff.mp located)
    simp only [Invocation.work, outcome_attach, failed]
    cases Document.loaded ⟨document⟩ t with
    | error e => exact ⟨_, rfl⟩
    | ok d => exact ⟨_, rfl⟩

/-- The settings list both paths, and the option is given for the second one. -/
theorem locations_resolved_from_both :
    let settings := "store = [\"b.json\", 'a.d.ts', true]"
    let t := ((∅ : Tree).writeText ⟨"s.toml"⟩ settings).2
    let given : OrderedMap Setting String :=
      ⟨[(.declarations, "-.ts"), (.config, "s.toml")], by decide⟩
    let args := ["--declarations=-.ts", "a.json", "-c", "s.toml"]
    let l : Locations := ⟨⟨"b.json"⟩, ⟨"-.ts"⟩⟩
    Source.settings ⟨"s.toml", settings⟩ = .ok ⟨⟨"b.json"⟩, ⟨"a.d.ts"⟩⟩ ∧
      (∃ entries, Toml.parse settings = some entries ∧
        Settings.Describes entries ⟨⟨"b.json"⟩, ⟨"a.d.ts"⟩⟩) ∧
      Spelling .attach (some "a.json") given.entries args ∧ Resolves given t l ∧
      (session ("attach" :: args)).outcome t = attachment ⟨"a.json"⟩ none l t := by
  intro settings t given args l
  have accepted : Source.settings ⟨"s.toml", settings⟩ = .ok ⟨⟨"b.json"⟩, ⟨"a.d.ts"⟩⟩ :=
    eq_ok_of_toOption (by decide +kernel)
  have letter : Setting.Spelt .config "s.toml" ["-c", "s.toml"] := .letter rfl (by decide)
  have spelling : Spelling .attach (some "a.json") given.entries args :=
    .option (by decide) (by decide) .joined <| .operand (.inr rfl) (by decide) (by decide) <|
      .option (by decide) (by decide) letter .nil
  have resolves : Resolves given t l :=
    located_eq_ok_iff.mp (eq_ok_of_toOption (by decide +kernel))
  have used := ((locations_resolved.2 given t).2 "a.json" args spelling).1 l resolves
  exact ⟨accepted, (locations_resolved.1 _ _).mp accepted, spelling, resolves, used⟩

end Command

end TypeCatalog
