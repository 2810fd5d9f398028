import TypeCatalog.Proofs.Command.Outcome

/-! The commands agree on the catalog. What an attachment says about the entries is what a listing
shows before and after it, though it counts them in memory and the listing reads them from the
definition again, and the text that it stores is the one that rendering the document prints. -/
namespace TypeCatalog.Command

/-- A listing, by the keys alone. -/
def Report.listing (definition : Path) (keys : List String) : String :=
  if keys = [] then lines [s!"No interfaces in {definition.text}."]
  else lines ("Interfaces:" :: keys.map fun key => s!"  - {key} -> {Identifier.ofKey key}")

theorem Report.listed_eq (definition : Path) (c : Catalog) :
    Report.listed definition c = Report.listing definition c.keys := by
  have empty : c.isEmpty = true ↔ c.keys = [] := by simp [OrderedMap.isEmpty, OrderedMap.keys]
  simp only [listed, listing, empty]

/-- What is said of an interface that was put under a name, by the keys from before. -/
def Report.attachment (name : String) (fields : Nat) (keys : List String) (entries : Nat)
    (l : Locations) : String :=
  let (heading, mark) := if name ∈ keys then ("Updated:", "~") else ("Added:", "+")
  lines [
    heading,
    s!"  {mark} {name} ({fields} fields)",
    "",
    s!"Entries: {entries}",
    s!"Definition: {l.definition.text}",
    s!"Declarations: {l.declarations.text}"]

theorem Report.attached_told (call : Call) (c : Catalog) (fields : Nat) (l : Locations) :
    Report.attached (call.told c) fields l =
      Report.attachment call.name fields c.keys (call.enter c).keys.length l := by
  have attached : (c.attach call.interface).1 =
      if c.contains call.name then .replaced else .inserted := rfl
  have size : (call.enter c).size = (call.enter c).keys.length := (List.length_map Prod.fst).symm
  by_cases known : call.name ∈ c.keys <;>
    simp [Report.attached, Call.told, attached, size, OrderedMap.contains, attachment, known]

section

variable {args : List String} {verbose : Bool} {t t' : Tree} {document : Path}
variable {name? : Option String} {options : StoreOptions} {printed : String}

/-- An attachment that goes well is a registration of the document. -/
theorem attach_eq_ok (done : (attach document name? options).run.outcome t = (.ok printed, t')) :
    ∃ d l r, Document.loaded document t = .ok d ∧ options.located t = .ok l ∧
      d.register (interfaceName document name?) l t = (.ok r, t') ∧
      printed = Report.attached r d.declared.length l := by
  rw [outcome_attach] at done
  split at done
  · cases done
  · cases done
  · rename_i d l loaded located
    rcases registered : d.register (interfaceName document name?) l t with ⟨_ | r, u⟩
    · simp only [registered] at done
      cases done
    · simp only [registered] at done
      cases done
      exact ⟨d, l, r, loaded, located, registered, rfl⟩

theorem outcome_list_of_pulled {l : Locations} {c : Catalog}
    (located : options.located t = .ok l) (pulls : Store.pulled l t = .ok c) :
    (list options).run.outcome t = (.ok (Report.listing l.definition c.keys), t) := by
  rw [outcome_list_of_located located, listing, pulls, ← Report.listed_eq]

theorem outcome_render_of_loaded {d : Document} (loaded : Document.loaded document t = .ok d) :
    (render document name?).run.outcome t =
      (.ok ((d.interface (interfaceName document name?)).source ++ "\n"), t) := by
  simp only [outcome_render, loaded, Report.rendered, Report.lines, List.map_cons, List.map_nil,
    String.join_cons, String.join_nil, String.append_empty]

/-- An attachment to artifacts in different files that spares the document and the settings. A
listing with the same options succeeds before and after it; after it, it shows the same keys in
the same order, and the name at the end if it was not among them. The attachment told apart these
two cases, counted the keys that are listed now and as many fields as the document has variables.
Under the name there is now the text that every rendering of the document by this name prints. -/
theorem attach_agrees (parsed : Request.parse args = .ok ⟨verbose, .attach document name? options⟩)
    (done : (session args).outcome t = (.ok printed, t'))
    (apart : ∀ l, options.located t = .ok l → t'.Apart l.definition l.declarations)
    (sameDocument : t'.read document = t.read document)
    (sameSettings : t'.read options.settings = t.read options.settings) :
    let name := interfaceName document name?
    ∃ (l : Locations) (content : String) (d : Document) (keys : List String) (after : Catalog),
      options.located t = .ok l ∧ t.read document = .ok content ∧ Document.parse content = .ok d ∧
      t'.Holds l after ∧ after.get? name = some (d.interface name).source ∧
      after.keys = (if name ∈ keys then keys else keys ++ [name]) ∧
      printed = Report.attachment name d.declared.length keys after.keys.length l ∧
      (∀ args' verbose', Request.parse args' = .ok ⟨verbose', .list options⟩ →
        (session args').outcome t = (.ok (Report.listing l.definition keys), t) ∧
        (session args').outcome t' = (.ok (Report.listing l.definition after.keys), t')) ∧
      ∀ args' verbose' name'?, Request.parse args' = .ok ⟨verbose', .render document name'?⟩ →
        interfaceName document name'? = name →
          (session args').outcome t' = (.ok ((d.interface name).source ++ "\n"), t') := by
  intro name
  rw [outcome_of_parse parsed] at done
  obtain ⟨d, l, r, loaded, located, registered, rfl⟩ := attach_eq_ok done
  let call : Call := ⟨d, name⟩
  obtain ⟨c, u, pulls, rfl, first, second⟩ := call.register_eq_ok registered
  have held : t'.Holds l (call.enter c) := Store.holds_of_writes first second (apart l located)
  -- The settings are none of the artifacts, so a command after it finds the same artifacts.
  have located' : options.located t' = .ok l :=
    (StoreOptions.located_congr sameSettings).trans located
  obtain ⟨content, read, decoded⟩ := Document.loaded_eq_ok_iff.mp loaded
  have loaded' : Document.loaded document t' = .ok d :=
    Document.loaded_eq_ok_iff.mpr ⟨content, sameDocument.trans read, decoded⟩
  refine ⟨l, content, d, c.keys, call.enter c, located, read, decoded, held, ?_, ?_,
    Report.attached_told call c _ l, ?_, ?_⟩
  · rw [call.enter_eq, OrderedMap.get?_insert, if_pos rfl]
    rfl
  · rw [call.enter_eq, OrderedMap.keys_insert]
  · intro args' verbose' parsed'
    constructor
    · rw [outcome_of_parse parsed']
      exact outcome_list_of_pulled located pulls
    · rw [outcome_of_parse parsed']
      exact outcome_list_of_pulled located' (Store.pulled_of_holds held)
  · intro args' verbose' name'? parsed' same
    rw [outcome_of_parse parsed', ← same]
    exact outcome_render_of_loaded loaded'

end

/-- The name is new and the settings name one of the artifacts. The rendering has the name too. -/
theorem attach_agrees_on_new_name :
    let c : Catalog := OrderedMap.insert ∅ "old" "interface old \x7b\n\x7d"
    let document := "[[[\"PORT\", \"number\"]]]"
    let settings := "store.definition = \"out/def.json\""
    let t := ((((∅ : Tree).writeText ⟨"a.json"⟩ document).2.writeText ⟨"out/def.json"⟩
      c.definition).2.writeText ⟨"s.toml"⟩ settings).2
    let args := ["attach", "a.json", "-cs.toml", "--declarations", "types.d.ts"]
    let t' := ((session args).outcome t).2
    let listing := ["list", "--declarations=types.d.ts", "-c", "s.toml"]
    let rendering := ["render", "--name", "a.json", "a.json"]
    (session args).outcome t = (.ok (Report.attachment "a.json" 1 ["old"] 2
        ⟨⟨"out/def.json"⟩, ⟨"types.d.ts"⟩⟩), t') ∧
      ∃ (l : Locations) (keys : List String) (after : Catalog),
        t'.Holds l after ∧ after.keys = (if "a.json" ∈ keys then keys else keys ++ ["a.json"]) ∧
        (session listing).outcome t' = (.ok (Report.listing l.definition after.keys), t') ∧
        ∃ text, after.get? "a.json" = some text ∧
          (session rendering).outcome t' = (.ok (text ++ "\n"), t') := by
  intro c document settings t args t' listing rendering
  let options : StoreOptions := ⟨⟨"s.toml"⟩, none, some ⟨"types.d.ts"⟩⟩
  let l : Locations := ⟨⟨"out/def.json"⟩, ⟨"types.d.ts"⟩⟩
  have parsed : Request.parse args = .ok ⟨false, .attach ⟨"a.json"⟩ none options⟩ :=
    eq_ok_of_toOption (by decide +kernel)
  have found : options.located t = .ok l ∧ t.read ⟨"a.json"⟩ = .ok document ∧
      t.read options.settings = .ok settings :=
    ⟨eq_ok_of_toOption (by decide +kernel), eq_ok_of_toOption (by decide +kernel),
      eq_ok_of_toOption (by decide +kernel)⟩
  have left : ((session args).outcome t).1.toOption =
        some (Report.attachment "a.json" 1 ["old"] 2 l) ∧
      t'.resolve l.definition ≠ t'.resolve l.declarations ∧
      (t'.read ⟨"a.json"⟩).toOption = some document ∧
      (t'.read options.settings).toOption = some settings := by
    decide +kernel
  have done : (session args).outcome t = (.ok (Report.attachment "a.json" 1 ["old"] 2 l), t') :=
    Prod.ext (eq_ok_of_toOption left.1) rfl
  -- From here on the trees are known by these facts alone.
  clear_value t t'
  obtain ⟨located, document_read, settings_read⟩ := found
  obtain ⟨-, ne, document_kept, settings_kept⟩ := left
  have apart (l' : Locations) (located' : options.located t = .ok l') :
      t'.Apart l'.definition l'.declarations := by
    cases located.symm.trans located'
    exact Tree.apart_of_ne ne
  obtain ⟨l, _, _, keys, after, -, -, -, held, stored, listed, -, lists, renders⟩ :=
    attach_agrees parsed done apart ((eq_ok_of_toOption document_kept).trans document_read.symm)
      ((eq_ok_of_toOption settings_kept).trans settings_read.symm)
  have lists := (lists listing false (eq_ok_of_toOption (by decide +kernel))).2
  have renders :=
    renders rendering false (some "a.json") (eq_ok_of_toOption (by decide +kernel)) rfl
  exact ⟨done, l, keys, after, held, listed, lists, _, stored, renders⟩

end TypeCatalog.Command
