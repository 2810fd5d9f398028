import TypeCatalog.Command.Invocation
import TypeCatalog.Proofs.OrderedMap

/-! Command lines spelt out of options and an operand. The options may come in any order and in
any of their forms, before the operand and behind it, and what is read is what was spelt. -/
namespace TypeCatalog.Command

/-- The ways to give an option its value. A value that could be taken for an option has to be
joined to it. -/
inductive Setting.Spelt (s : Setting) (value : String) : List String → Prop where
  | joined : Spelt s value ["--" ++ s.label ++ "=" ++ value]
  | apart (plain : Argument.ofString value = .plain value) :
    Spelt s value ["--" ++ s.label, value]
  | letter {c : Char} (short : s.letter? = some c)
    (plain : Argument.ofString value = .plain value) :
    Spelt s value [String.ofList ['-', c], value]
  | joinedLetter {c : Char} (short : s.letter? = some c) :
    Spelt s value [String.ofList ['-', c, '='] ++ value]
  | attachedLetter {c first : Char} {rest : List Char} (short : s.letter? = some c)
    (chars : value.toList = first :: rest) (noSign : first ≠ '=') :
    Spelt s value [String.ofList ['-', c] ++ value]

/-- Arguments of a command with its operand, if it has one, and the values of its options. Behind
two dashes there is no option any more. -/
inductive Spelling (kind : Kind) :
    Option String → List (Setting × String) → List String → Prop where
  | nil : Spelling kind none [] []
  | option {s : Setting} {value : String} {front args : List String} {operand? : Option String}
    {given : List (Setting × String)} (known : s ∈ kind.settings)
    (good : s.isPath → value ≠ "") (spelt : s.Spelt value front)
    (others : Spelling kind operand? given args) :
    Spelling kind operand? ((s, value) :: given) (front ++ args)
  | operand {document : String} {args : List String} {given : List (Setting × String)}
    (takes : kind = .render ∨ kind = .attach) (good : document ≠ "")
    (plain : Argument.ofString document = .plain document)
    (others : Spelling kind none given args) :
    Spelling kind (some document) given (document :: args)
  | dashed {document : String} (takes : kind = .render ∨ kind = .attach) (good : document ≠ "") :
    Spelling kind (some document) [] ["--", document]

theorem Setting.ofString_label (s : Setting) :
    Argument.ofString ("--" ++ s.label) = .long s.label none := by
  cases s <;> rfl

theorem Setting.ofString_joined (s : Setting) (value : String) :
    Argument.ofString ("--" ++ s.label ++ "=" ++ value) = .long s.label (some value) := by
  cases s <;> simp [Argument.ofString, label, String.toList_append]

theorem Setting.ofString_letter {s : Setting} {c : Char} (short : s.letter? = some c) :
    Argument.ofString (String.ofList ['-', c]) = .short [c] := by
  cases s <;> cases short <;> rfl

theorem Setting.ofString_letters {s : Setting} {c : Char} (short : s.letter? = some c)
    (more : List Char) (value : String) :
    Argument.ofString (String.ofList ('-' :: c :: more) ++ value) =
      .short (c :: more ++ value.toList) := by
  cases s <;> cases short <;> simp [Argument.ofString, String.toList_append]

theorem Setting.find?_label {kind : Kind} {s : Setting} (known : s ∈ kind.settings) :
    kind.settings.find? (·.label = s.label) = some s := by
  revert known
  cases kind <;> cases s <;> decide

theorem Setting.find?_letter {kind : Kind} {s : Setting} {c : Char} (known : s ∈ kind.settings)
    (short : s.letter? = some c) : kind.settings.find? (·.letter? = some c) = some s := by
  revert known
  cases kind <;> cases s <;> cases short <;> decide

namespace Draft

variable {kind : Kind} {d : Draft} {s : Setting} {value : String}

theorem putLong_label (known : s ∈ kind.settings) (value? : Option String) :
    d.putLong kind s.label value? = match value? with
      | none => .ok { d with awaiting? := some s }
      | some value => d.putValue s value := by
  have other : ¬(s.label = "help" ∨ s.label = "verbose") := by cases s <;> decide
  unfold putLong
  rw [if_neg other, Setting.find?_label known]
  cases value? <;> rfl

theorem putLetters_letter {c : Char} (known : s ∈ kind.settings) (short : s.letter? = some c) :
    d.putLetters kind [c] = .ok { d with awaiting? := some s } ∧
      (∀ value, d.putLetters kind (c :: '=' :: value) = d.putValue s (String.ofList value)) ∧
      ∀ first rest, first ≠ '=' →
        d.putLetters kind (c :: first :: rest) = d.putValue s (String.ofList (first :: rest)) := by
  have found := Setting.find?_letter known short
  cases s <;> cases short <;> simp +contextual [putLetters, found]

theorem putValue_eq (good : s.isPath → value ≠ "") (fresh : s ∉ d.values.keys) :
    d.putValue s value = .ok { d with values := d.values.insert s value, awaiting? := none } := by
  have full : ¬(s.isPath = true ∧ value.isEmpty = true) := by
    rintro ⟨path, empty⟩
    exact good path (by simpa using empty)
  simp only [putValue, OrderedMap.contains, fresh, decide_false, Bool.false_eq_true, if_false,
    if_neg full]

structure Ready (d : Draft) : Prop where
  awaiting : d.awaiting? = none
  options : d.plainOnly = false

theorem Ready.put (ready : d.Ready) (kind : Kind) (text : String) :
    put kind d text = match Argument.ofString text with
      | .plain text => d.putOperand kind text
      | .dashes => .ok { d with plainOnly := true }
      | .long name value? => d.putLong kind name value?
      | .short letters => d.putLetters kind letters := by
  simp only [Draft.put, ready.options, ready.awaiting, Bool.false_eq_true, if_false]
  cases Argument.ofString text <;> rfl

/-- An option that waits for its value takes the next argument for it. -/
theorem Ready.put_awaited (ready : d.Ready) (plain : Argument.ofString value = .plain value)
    (good : s.isPath → value ≠ "") (fresh : s ∉ d.values.keys) :
    Draft.put kind { d with awaiting? := some s } value =
      .ok { d with values := d.values.insert s value } := by
  obtain ⟨operand?, values, verbose, awaiting?, plainOnly⟩ := d
  obtain ⟨rfl, rfl⟩ := ready
  simp only [Draft.put, Bool.false_eq_true, if_false, plain]
  exact putValue_eq good fresh

/-- Whatever form it has, an option leaves its value behind and nothing else. -/
theorem Ready.foldlM_put_spelt (ready : d.Ready) {front : List String}
    (spelt : s.Spelt value front) (known : s ∈ kind.settings) (good : s.isPath → value ≠ "")
    (fresh : s ∉ d.values.keys) :
    front.foldlM (Draft.put kind) d = .ok { d with values := d.values.insert s value } := by
  have taken : d.putValue s value = .ok { d with values := d.values.insert s value } := by
    rw [putValue_eq good fresh, ← ready.awaiting]
  -- Two of the spellings leave the value to the next argument.
  have awaited {first : String}
      (waits : Draft.put kind d first = .ok { d with awaiting? := some s })
      (plain : Argument.ofString value = .plain value) :
      [first, value].foldlM (Draft.put kind) d =
        .ok { d with values := d.values.insert s value } := by
    rw [List.foldlM_cons, waits]
    exact bind_pure (Draft.put kind _ value) |>.trans (ready.put_awaited plain good fresh)
  cases spelt with
  | joined =>
    have first := ready.put kind ("--" ++ s.label ++ "=" ++ value)
    simp only [s.ofString_joined, putLong_label known, taken] at first
    rw [List.foldlM_cons, first]
    rfl
  | apart plain =>
    have first := ready.put kind ("--" ++ s.label)
    simp only [s.ofString_label, putLong_label known] at first
    exact awaited first plain
  | @letter c short plain =>
    have first := ready.put kind (String.ofList ['-', c])
    simp only [Setting.ofString_letter short, (putLetters_letter known short).1] at first
    exact awaited first plain
  | @joinedLetter c short =>
    have first := ready.put kind (String.ofList ['-', c, '='] ++ value)
    simp only [Setting.ofString_letters short, List.cons_append, List.nil_append,
      (putLetters_letter known short).2.1, String.ofList_toList, taken] at first
    rw [List.foldlM_cons, first]
    rfl
  | @attachedLetter c head rest short chars noSign =>
    have first := ready.put kind (String.ofList ['-', c] ++ value)
    have letters := (putLetters_letter (d := d) known short).2.2 head rest noSign
    rw [← chars, String.ofList_toList] at letters
    simp only [Setting.ofString_letters short, List.cons_append, List.nil_append, letters,
      taken] at first
    rw [List.foldlM_cons, first]
    rfl

theorem putOperand_eq (takes : kind = .render ∨ kind = .attach) {document : String}
    (good : document ≠ "") (free : d.operand? = none) :
    d.putOperand kind document = .ok { d with operand? := some document } := by
  have full : document.isEmpty = false := by simpa using good
  rcases takes with rfl | rfl <;> simp [putOperand, Kind.takesOperand, free, full]

end Draft

/-- What is read of a command line that is spelt out, when something has been read before it. -/
theorem Spelling.read {kind : Kind} {operand? : Option String} {given : List (Setting × String)}
    {args : List String} (spelling : Spelling kind operand? given args) {d : Draft}
    (ready : d.Ready) (distinct : ((d.values.entries ++ given).map Prod.fst).Nodup)
    (free : operand?.isSome → d.operand? = none) :
    ∃ d', args.foldlM (Draft.put kind) d = .ok d' ∧ d'.operand? = operand?.or d.operand? ∧
      d'.values = given.foldl (fun m pair => m.insert pair.1 pair.2) d.values ∧
      d'.awaiting? = none ∧ d'.verbose = d.verbose := by
  -- No option comes twice, so each finds its place in the draft free.
  induction spelling generalizing d with
  | nil => exact ⟨d, rfl, rfl, rfl, ready.awaiting, rfl⟩
  | @option s value front args operand? given known good spelt others ih =>
    have fresh : s ∉ d.values.keys := by
      rw [List.map_append, List.nodup_append] at distinct
      exact fun member => distinct.2.2 s member s List.mem_cons_self rfl
    have appended : (d.values.insert s value).entries = d.values.entries ++ [(s, value)] :=
      OrderedMap.upsert_of_not_mem value fresh
    rw [List.foldlM_append, ready.foldlM_put_spelt spelt known good fresh]
    exact ih (d := { d with values := d.values.insert s value }) ⟨ready.awaiting, ready.options⟩
      (by simpa [appended] using distinct) free
  | @operand document args given takes good plain others ih =>
    have first : Draft.put kind d document = .ok { d with operand? := some document } := by
      rw [ready.put, plain]
      exact Draft.putOperand_eq takes good (free rfl)
    rw [List.foldlM_cons, first]
    exact ih (d := { d with operand? := some document }) ⟨ready.awaiting, ready.options⟩ distinct
      nofun
  | @dashed document takes good =>
    have first : Draft.put kind d "--" = .ok { d with plainOnly := true } := by
      rw [ready.put]
      rfl
    have second : Draft.put kind { d with plainOnly := true } document =
        .ok { d with plainOnly := true, operand? := some document } :=
      Draft.putOperand_eq (d := { d with plainOnly := true }) takes good (free rfl)
    refine ⟨{ d with plainOnly := true, operand? := some document }, ?_, rfl, rfl,
      ready.awaiting, rfl⟩
    rw [List.foldlM_cons, first]
    exact bind_pure (Draft.put kind _ document) |>.trans second

/-- The options as they are given, with the standard settings file if none is. -/
def StoreOptions.ofGiven (given : OrderedMap Setting String) : StoreOptions where
  settings := ((given.get? .config).map Path.mk).getD standardSettings
  definition? := (given.get? .definition).map Path.mk
  declarations? := (given.get? .declarations).map Path.mk

section

variable {given : OrderedMap Setting String} {args : List String}

theorem Spelling.ofKind {kind : Kind} {operand? : Option String}
    (spelling : Spelling kind operand? given.entries args) {invocation : Invocation}
    (made : Draft.invocation { operand?, values := given } kind = .ok invocation) :
    Request.ofKind false kind args = .ok ⟨false, invocation⟩ := by
  obtain ⟨⟨operand, values, verbose, awaiting?, plainOnly⟩, read, rfl, rfl, rfl, rfl⟩ :=
    spelling.read (d := {}) ⟨rfl, rfl⟩ given.nodup fun _ => rfl
  have collected : given.entries.foldl (fun m pair => m.insert pair.1 pair.2) ∅ = given :=
    given.ofList_entries
  have same : Draft.invocation ⟨operand?.or none, given, false, none, plainOnly⟩ kind =
      .ok invocation := by
    rw [Option.or_none]
    exact made
  simp only [Request.ofKind, read, bind, Except.bind, collected, same]
  rfl

theorem Spelling.parse_list (spelling : Spelling .list none given.entries args) :
    Request.parse ("list" :: args) = .ok ⟨false, .list (.ofGiven given)⟩ := by
  have read : Request.ofLine false ("list" :: args) = Request.ofKind false .list args := rfl
  rw [Request.parse, read, spelling.ofKind rfl]
  rfl

theorem Spelling.parse_attach {document : String}
    (spelling : Spelling .attach (some document) given.entries args) :
    Request.parse ("attach" :: args) =
      .ok ⟨false, .attach ⟨document⟩ (given.get? .name) (.ofGiven given)⟩ := by
  have read : Request.ofLine false ("attach" :: args) = Request.ofKind false .attach args := rfl
  rw [Request.parse, read, spelling.ofKind rfl]
  rfl

end

end TypeCatalog.Command
