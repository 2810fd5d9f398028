import TypeCatalog.Command.Run
import TypeCatalog.Proofs.Store.Stepwise

/-! What the commands come to: their results, and the trees they leave, as functions of the tree
they find. -/
namespace TypeCatalog

open Session

def Document.loaded (p : Path) (t : Tree) : Except (LoadError DocumentError) Document :=
  ((Document.load p : Session Event _).outcome t).1

theorem Document.loaded_eq (p : Path) (t : Tree) :
    Document.loaded p t = match t.read p with
      | .error e => .error (.unreadable p e)
      | .ok text => (Source.mk p.text text).document.mapError .refused := rfl

theorem Document.loaded_eq_ok_iff {p : Path} {t : Tree} {d : Document} :
    Document.loaded p t = .ok d ↔
      ∃ content, t.read p = .ok content ∧ Document.parse content = .ok d := by
  rw [Document.loaded_eq]
  cases t.read p with
  | error e => simp
  | ok content => simp [Source.document, mapError_eq_ok_iff]

def Settings.loaded (p : Path) (t : Tree) : Except (LoadError SettingsError) Locations :=
  ((Settings.load p : Session Event _).outcome t).1

theorem Settings.loaded_eq (p : Path) (t : Tree) :
    Settings.loaded p t = match FileError.orMissing (t.read p) with
      | .error e => .error (.unreadable p e)
      | .ok none => .ok .standard
      | .ok (some text) => (Source.mk p.text text).settings.mapError .refused := rfl

namespace Command

def StoreOptions.located (o : StoreOptions) (t : Tree) :
    Except (LoadError SettingsError) Locations :=
  (Settings.loaded o.settings t).map fun l =>
    ⟨o.definition?.getD l.definition, o.declarations?.getD l.declarations⟩

/-- The tree is looked at through the settings' file alone. -/
theorem StoreOptions.located_congr {o : StoreOptions} {t t' : Tree}
    (same : t'.read o.settings = t.read o.settings) : o.located t' = o.located t := by
  simp only [located, Settings.loaded_eq, same]

variable (t : Tree)

theorem outcome_tell (event : Event) : (tell event).run.outcome t = (.ok (), t) := rfl

theorem outcome_loadDocument (p : Path) :
    (loadDocument p).run.outcome t = ((Document.loaded p t).mapError .document, t) := by
  rw [loadDocument, outcome_run_adapt]
  rfl

theorem outcome_locations (o : StoreOptions) :
    o.locations.run.outcome t = ((o.located t).mapError .settings, t) := by
  have loads : (ExceptT.mk (Settings.load o.settings : Session Event _)).run.outcome t =
      (Settings.loaded o.settings t, t) := rfl
  rw [StoreOptions.locations, outcome_run_bind, outcome_run_adapt, loads, StoreOptions.located]
  cases Settings.loaded o.settings t <;> rfl

theorem outcome_render (document : Path) (name? : Option String) :
    (render document name?).run.outcome t =
      (match Document.loaded document t with
        | .error e => .error (.document e)
        | .ok d => .ok (Report.rendered (d.interface (interfaceName document name?)).source),
      t) := by
  rw [render, outcome_run_bind, outcome_loadDocument]
  cases Document.loaded document t <;> rfl

/-- Only the last of its steps writes. -/
theorem outcome_attach (document : Path) (name? : Option String) (options : StoreOptions) :
    (attach document name? options).run.outcome t =
      match Document.loaded document t, options.located t with
      | .error e, _ => (.error (.document e), t)
      | .ok _, .error e => (.error (.settings e), t)
      | .ok d, .ok l =>
        let name := interfaceName document name?
        match d.register name l t with
        | (.error e, t') => (.error (.attach name e), t')
        | (.ok r, t') => (.ok (Report.attached r d.declared.length l), t') := by
  rw [attach, outcome_run_bind, outcome_loadDocument]
  cases Document.loaded document t with
  | error e => rfl
  | ok d =>
    simp only [Except.mapError, outcome_run_bind, outcome_locations]
    cases options.located t with
    | error e => rfl
    | ok l =>
      simp only [outcome_tell, outcome_run_adapt, Document.outcome_registering]
      rcases d.register (interfaceName document name?) l t with ⟨_ | r, t'⟩ <;> rfl

theorem outcome_list (options : StoreOptions) :
    (list options).run.outcome t =
      (match options.located t with
        | .error e => .error (.settings e)
        | .ok l =>
          match Store.pulled l t with
          | .error e => .error (.list e)
          | .ok c => .ok (Report.listed l.definition c),
      t) := by
  rw [list, outcome_run_bind, outcome_locations]
  cases options.located t with
  | error e => rfl
  | ok l =>
    simp only [Except.mapError, outcome_tell, outcome_run_bind, outcome_run_adapt,
      Steps.outcome_pull, Store.pull_eq, Store.new]
    cases Store.pulled l t <;> rfl

def listing (l : Locations) (t : Tree) : Except Failure String × Tree :=
  (match Store.pulled l t with
    | .error e => .error (.list e)
    | .ok c => .ok (Report.listed l.definition c), t)

def attachment (document : Path) (name? : Option String) (l : Locations) (t : Tree) :
    Except Failure String × Tree :=
  match Document.loaded document t with
  | .error e => (.error (.document e), t)
  | .ok d =>
    let name := interfaceName document name?
    let (registered, t') := d.register name l t
    ((registered.mapError (.attach name)).map (Report.attached · d.declared.length l), t')

section

variable {t : Tree} {options : StoreOptions} {l : Locations}

theorem outcome_list_of_located (located : options.located t = .ok l) :
    (list options).run.outcome t = listing l t := by
  rw [outcome_list, located, listing]

theorem outcome_attach_of_located (located : options.located t = .ok l) (document : Path)
    (name? : Option String) :
    (attach document name? options).run.outcome t = attachment document name? l t := by
  rw [outcome_attach, located, attachment]
  cases Document.loaded document t with
  | error e => rfl
  | ok d =>
    rcases registered : d.register (interfaceName document name?) l t with ⟨_ | r, t'⟩ <;>
      simp only [registered] <;> rfl

theorem exists_located_error (nowhere : ∀ l, options.located t ≠ .ok l) :
    ∃ e, options.located t = .error e := by
  cases located : options.located t with
  | error e => exact ⟨e, rfl⟩
  | ok l => exact absurd located (nowhere l)

end

/-- Whether events are told makes no difference. -/
theorem outcome_session (args : List String) :
    (session args).outcome t =
      match Request.parse args with
      | .error e => (.error (.usage e), t)
      | .ok request => request.invocation.work.run.outcome t := by
  unfold session
  cases Request.parse args with
  | error e => rfl
  | ok request =>
    simp only
    split
    · rfl
    · exact outcome_quiet _ _

theorem outcome_of_parse {args : List String} {t : Tree} {request : Request}
    (parsed : Request.parse args = .ok request) :
    (session args).outcome t = request.invocation.work.run.outcome t := by
  rw [outcome_session, parsed]

end Command

end TypeCatalog
