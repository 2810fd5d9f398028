import Mathlib.Data.List.Induction
import TypeCatalog.Proofs.Store.Artifacts

/-! One registration after another on the same two artifacts. Each call goes through the files:
what it takes up is what the last one wrote, so after every call of a run the artifacts are those
of all that has been registered so far. -/
namespace TypeCatalog

structure Registered extends Call where
  outcome : Registration
  tree : Tree

namespace Registered

def last? (steps : List Registered) (name : String) : Option Registered :=
  steps.reverse.find? fun step => step.name == name

theorem last?_concat (steps : List Registered) (step : Registered) (name : String) :
    last? (steps ++ [step]) name = if name = step.name then some step else last? steps name := by
  by_cases same : name = step.name
  · simp [last?, same]
  · simp [last?, same, Ne.symm same]

/-- The catalog that the steps make of one, taken by themselves. -/
def entered (c : Catalog) (steps : List Registered) : Catalog :=
  steps.foldl (fun c step => step.enter c) c

theorem entered_concat (c : Catalog) (steps : List Registered) (step : Registered) :
    entered c (steps ++ [step]) = (entered c steps).insert step.name step.text := by
  simp [entered, Call.enter_eq]

theorem entered_eq_ofList (steps : List Registered) :
    entered ∅ steps = .ofList (steps.map fun step => (step.name, step.text)) := by
  simp [entered, OrderedMap.ofList, Call.enter_eq, List.foldl_map]

/-- The keys are the names, each where it came first. -/
theorem keys_entered (steps : List Registered) :
    (entered ∅ steps).keys = (steps.map (·.name)).eraseDups := by
  rw [entered_eq_ofList, OrderedMap.keys_ofList, List.map_map]
  rfl

/-- The text under a name is that of the last document registered under it. -/
theorem get?_entered (steps : List Registered) (name : String) :
    (entered ∅ steps).get? name = (last? steps name).map (·.text) := by
  induction steps using List.reverseRecOn with
  | nil => rfl
  | append_singleton steps step ih =>
    rw [entered_concat, OrderedMap.get?_insert, ih, last?_concat]
    split <;> rfl

end Registered

/-- The call as it is made in a tree where it tells the outcome. -/
def Call.made (call : Call) (l : Locations) (t : Tree) (outcome : Registration) : Registered :=
  ⟨call, outcome, (call.document.register call.name l t).2⟩

inductive Registrations (l : Locations) : Tree → List Registered → Prop where
  | nil {t : Tree} : Registrations l t []
  | cons {t : Tree} {step : Registered} {rest : List Registered} :
      step.document.register step.name l t = (.ok step.outcome, step.tree) →
      Registrations l step.tree rest → Registrations l t (step :: rest)

namespace Registrations

open Registered

variable {l : Locations} {t : Tree}

/-- A call that is seen to succeed when it is tried. -/
theorem made {call : Call} {outcome : Registration} {rest : List Registered}
    (tried : (call.document.register call.name l t).1.toOption = some outcome)
    (run : Registrations l (call.made l t outcome).tree rest) :
    Registrations l t (call.made l t outcome :: rest) :=
  .cons (Document.register_of_toOption tried) run

/-- One call: from a tree in which only `c` can be pulled to one that holds `c` with the entry. -/
theorem step_holds {c : Catalog} {step : Registered}
    (done : step.document.register step.name l t = (.ok step.outcome, step.tree))
    (start : ∀ c', Store.pulled l t = .ok c' → c' = c)
    (apart : step.tree.Apart l.definition l.declarations) :
    step.tree.Holds l (step.enter c) ∧ step.outcome = step.told c := by
  obtain ⟨c', u, pulls, told, first, second⟩ := Call.register_eq_ok done
  obtain rfl := start c' pulls
  exact ⟨Store.holds_of_writes first second apart, told⟩

theorem keepsDirectories {earlier later : List Registered} {step : Registered}
    (run : Registrations l t (earlier ++ step :: later)) : t.KeepsDirectories step.tree := by
  induction earlier generalizing t with
  | nil =>
    cases run with
    | cons done _ => exact step.register_keepsDirectories done
  | cons first earlier ih =>
    cases run with
    | cons done rest => exact (first.register_keepsDirectories done).trans (ih rest)

/-- A whole run, by induction on the calls before the one in question. Paths that lead apart
after it have led apart all along. -/
theorem holds {c : Catalog} {earlier later : List Registered} {step : Registered}
    (run : Registrations l t (earlier ++ step :: later))
    (start : ∀ c', Store.pulled l t = .ok c' → c' = c)
    (apart : step.tree.Apart l.definition l.declarations) :
    step.tree.Holds l (entered c (earlier ++ [step])) ∧
      step.outcome = step.told (entered c earlier) := by
  induction earlier generalizing t c with
  | nil =>
    cases run with
    | cons done _ => exact step_holds done start apart
  | cons first earlier ih =>
    cases run with
    | cons done rest =>
      have held := (step_holds done start (apart.earlier rest.keepsDirectories)).1
      apply ih rest
      intro c' pulls
      rw [Store.pulled_of_holds held] at pulls
      exact (Except.ok.inj pulls).symm

end Registrations

/-- After each call of a run that starts without a definition, both artifacts are those of one
catalog: its keys are the names so far in the order in which they came, each with the text of the
last document registered under it. The call tells its name and text, whether the name was new,
and how many names there are. -/
theorem registrations_accumulate {l : Locations} {t : Tree} {earlier later : List Registered}
    {step : Registered} (run : Registrations l t (earlier ++ step :: later))
    (free : ∀ text, t.read l.definition ≠ .ok text)
    (apart : step.tree.Apart l.definition l.declarations) :
    let names := (earlier ++ [step]).map (·.name)
    ∃ c : Catalog, step.tree.Holds l c ∧ c.keys = names.eraseDups ∧
      (∀ name, c.get? name = (Registered.last? (earlier ++ [step]) name).map (·.text)) ∧
      step.outcome = {
        key := step.name
        text := step.text
        attached := if step.name ∈ earlier.map (·.name) then .replaced else .inserted
        entries := names.eraseDups.length } := by
  obtain ⟨held, told⟩ := run.holds (fun c' pulls => Store.pulled_eq_empty free pulls) apart
  have keys := Registered.keys_entered (earlier ++ [step])
  refine ⟨_, held, keys, Registered.get?_entered _, ?_⟩
  have size : (step.enter (Registered.entered ∅ earlier)).size =
      ((earlier ++ [step]).map (·.name)).eraseDups.length := by
    rw [← keys, OrderedMap.keys, List.length_map, OrderedMap.size, Registered.entered_concat]
    rfl
  have known : (Registered.entered ∅ earlier).contains step.name =
      decide (step.name ∈ earlier.map (·.name)) := by
    simp [OrderedMap.contains, Registered.keys_entered, List.mem_eraseDups]
  have attached : ((Registered.entered ∅ earlier).attach step.interface).1 =
      if step.name ∈ earlier.map (·.name) then .replaced else .inserted := by
    show (if (Registered.entered ∅ earlier).contains step.name then _ else _) = _
    simp [known]
  rw [told, Call.told, size, attached]

theorem three_registrations_accumulate :
    let blank : Document := ⟨[]⟩
    let port : Document := ⟨[{ name := "PORT", type? := some .number, nullable := true }]⟩
    let one := Call.made ⟨blank, "dev.env"⟩ .standard ∅
      ⟨"dev.env", "interface dev_env \x7b\n\x7d", .inserted, 1⟩
    let two := Call.made ⟨blank, ""⟩ .standard one.tree
      ⟨"", "interface _ \x7b\n\x7d", .inserted, 2⟩
    let three := Call.made ⟨port, "dev.env"⟩ .standard two.tree
      ⟨"dev.env", "interface dev_env \x7b\n  PORT: null\n  | number\n\x7d", .replaced, 2⟩
    Registrations .standard ∅ [one, two, three] ∧ ∃ c : Catalog,
      three.tree.Holds .standard c ∧ c.keys = ["dev.env", ""] ∧
        c.get? "dev.env" = some three.text := by
  intro blank port one two three
  have run : Registrations .standard ∅ ([one, two] ++ three :: []) :=
    .made (by decide +kernel) (.made (by decide +kernel) (.made (by decide +kernel) .nil))
  have free : ∀ text, (∅ : Tree).read Locations.standard.definition ≠ .ok text := by
    have missing : (∅ : Tree).read Locations.standard.definition = .error .notFound := by
      decide +kernel
    simp [missing]
  have apart : three.tree.Apart Locations.standard.definition Locations.standard.declarations :=
    Tree.apart_of_ne (by decide +kernel)
  obtain ⟨c, held, keys, texts, -⟩ := registrations_accumulate run free apart
  exact ⟨run, c, held, keys, texts "dev.env"⟩

end TypeCatalog
