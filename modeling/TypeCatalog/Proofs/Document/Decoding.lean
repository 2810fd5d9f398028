import TypeCatalog.Document.Value
import TypeCatalog.Proofs.Document.Contract
import TypeCatalog.Proofs.Document.Labels
import TypeCatalog.Proofs.Except
import TypeCatalog.Proofs.Json.Phrases
import TypeCatalog.Proofs.OrderedMap

/-! Documents that are decoded from values. A value is decoded as the document that its phrase
describes, whatever order its members are looked at in, and so as the one that its text is read
as. -/
namespace TypeCatalog

open Json
open Json.Grammar (IsText)
open Json.Value (sortMembers)

theorem Variable.typeOfValue_eq_ok_iff {v : Value} {type? : Option DeclaredType} :
    typeOfValue v = .ok type? ↔ IsType v.phrase type? := by
  cases v with
  | null =>
    constructor
    · rintro ⟨⟩
      exact .null
    · rintro (_ | ⟨⟨⟩⟩)
      rfl
  | _ =>
    rw [typeOfValue, map_eq_ok_iff]
    · constructor
      · rintro ⟨token, decodes, rfl⟩
        exact .token (Value.asString_eq_ok_iff.mp decodes)
      · rintro (_ | ⟨spells⟩)
        exact ⟨_, Value.asString_eq_ok_iff.mpr spells, rfl⟩
    · exact nofun

theorem refuseSurplus_eq_ok_iff {α : Type} {items : List α} {fields : Nat} :
    refuseSurplus items fields = .ok () ↔ items.length ≤ fields := by
  rw [refuseSurplus]
  split <;> simp_all

theorem Variable.ofItems_eq_ok_iff {items : List Value} {x : Variable} :
    ofItems items = .ok x ↔ items.length ≤ 3 ∧ Fields (items[0]?.map Value.phrase)
      (items[1]?.map Value.phrase) (items[2]?.map Value.phrase) x := by
  cases items with
  | nil =>
    constructor
    · intro decodes
      cases decodes
    · rintro ⟨-, ⟨_, absent, -⟩, -, -⟩
      cases absent
  | cons v items =>
    simp only [ofItems, List.getElem?_cons_zero, bind_eq_ok_iff, Value.asString_eq_ok_iff,
      Value.getD_eq_ok_iff typeOfValue_eq_ok_iff, Value.getD_eq_ok_iff Value.asBoolean_eq_ok_iff]
    constructor
    · rintro ⟨name, spells, type?, type, nullable, marked, ⟨⟩, short, ⟨⟩⟩
      exact ⟨refuseSurplus_eq_ok_iff.mp short, ⟨_, rfl, spells⟩, type, marked⟩
    · rintro ⟨short, ⟨_, ⟨⟩, spells⟩, type, marked⟩
      exact ⟨_, spells, _, type, _, marked, (), refuseSurplus_eq_ok_iff.mpr short, rfl⟩

namespace Variable

def Seen.Lacks (seen : Seen) (name : String) : Prop :=
  (name = "name" → seen.name? = none) ∧ (name = "type" → seen.type? = none) ∧
    (name = "nullable" → seen.nullable? = none)

theorem Seen.inserts : Value.Inserts insert Takes Lacks where
  inserted := by
    rintro seen name v mid - ⟨noName, noType, noNullable⟩
    simp only [insert]
    split_ifs with named typed marked
    · simp only [named, bind_eq_ok_iff, pure, Except.pure, Except.ok.injEq,
        Value.asString_eq_ok_iff, takes_name_iff, noName named, true_and]
    · simp only [typed, bind_eq_ok_iff, pure, Except.pure, Except.ok.injEq,
        typeOfValue_eq_ok_iff, takes_type_iff, noType typed, true_and]
    · simp only [marked, bind_eq_ok_iff, pure, Except.pure, Except.ok.injEq,
        Value.asBoolean_eq_ok_iff, takes_nullable_iff, noNullable marked, true_and]
    · constructor
      · rintro ⟨⟩
      · rintro (⟨known, -⟩ | ⟨known, -⟩ | ⟨known, -⟩)
        · exact absurd known named
        · exact absurd known typed
        · exact absurd known marked
  others := by
    rintro seen name p mid other takes ne ⟨noName, noType, noNullable⟩
    cases takes with
    | name named => exact ⟨fun same => absurd (same.trans named.symm) ne, noType, noNullable⟩
    | type typed => exact ⟨noName, fun same => absurd (same.trans typed.symm) ne, noNullable⟩
    | nullable marked => exact ⟨noName, noType, fun same => absurd (same.trans marked.symm) ne⟩

theorem declares_spelt_iff {named : List (String × Phrase)} {x : Variable} :
    Declares (.object (spelt named)) x ↔ (∀ n ∈ named, n.1 ∈ ["name", "type", "nullable"]) ∧
      (named.map Prod.fst).Nodup ∧
        Fields (named.lookup "name") (named.lookup "type") (named.lookup "nullable") x := by
  constructor
  · rintro ⟨names, known, once, fields⟩
    obtain rfl := named_spelt_iff.mp names
    exact ⟨known, once, fields⟩
  · rintro ⟨known, once, fields⟩
    exact .object (named_spelt named) known once fields

/-- The order of the members does not matter, as their names differ. -/
theorem ofObject_eq_ok_iff {members : List (String × Value)} {x : Variable}
    (distinct : (members.map Prod.fst).Nodup) (each : ∀ m ∈ members, m.2.Proper) :
    ofValue (.object members) = .ok x ↔ Declares (Value.object members).phrase x := by
  have perm : (sortMembers members).Perm members := List.mergeSort_perm _ _
  have sorted : ((sortMembers members).map Prod.fst).Nodup := (perm.map _).nodup_iff.mpr distinct
  have each : ∀ m ∈ sortMembers members, m.2.Proper :=
    fun m member => each m (perm.mem_iff.mp member)
  have free : ∀ m ∈ sortMembers members, Seen.Lacks {} m.1 :=
    fun _ _ => ⟨fun _ => rfl, fun _ => rfl, fun _ => rfl⟩
  have phrased : (Value.namedPhrases (sortMembers members)).Perm (Value.namedPhrases members) := by
    rw [Value.namedPhrases_eq, Value.namedPhrases_eq]
    exact perm.map _
  have found (name : String) : (Value.namedPhrases (sortMembers members)).lookup name =
      (Value.namedPhrases members).lookup name := by
    apply OrderedMap.lookup_perm _ phrased
    rwa [Value.map_fst_namedPhrases]
  rw [Value.phrase, declares_spelt_iff, ofValue, bind_eq_ok_iff]
  simp only [Seen.inserts.foldlM_eq_ok_iff sorted each free, Seen.exists_finished_iff, found,
    phrased.mem_iff, (phrased.map Prod.fst).nodup_iff]

theorem ofValue_eq_ok_iff {v : Value} (proper : v.Proper) {x : Variable} :
    ofValue v = .ok x ↔ Declares v.phrase x := by
  cases proper with
  | list _ =>
    rw [ofValue, ofItems_eq_ok_iff, Value.phrase, Value.phrases_eq]
    constructor
    · rintro ⟨short, fields⟩
      exact .list (by simpa using short) (by simpa using fields)
    · rintro (_ | ⟨short, fields⟩)
      exact ⟨by simpa using short, by simpa using fields⟩
  | object distinct each => exact ofObject_eq_ok_iff distinct each
  | _ =>
    constructor <;>
    · rintro ⟨⟩

end Variable

namespace Document

theorem variablesOfValue_eq_ok_iff {v : Value} (proper : v.Proper) {vs : List Variable} :
    variablesOfValue v = .ok vs ↔ IsVariables v.phrase vs := by
  cases proper with
  | @list items each =>
    rw [variablesOfValue, bind_eq_ok_iff, Value.phrase, Value.phrases_eq]
    constructor
    · rintro ⟨_, ⟨⟩, decodes⟩
      have decoded := (List.forall₂_and_left _ _).mpr ⟨each, mapM_eq_ok_iff.mp decodes⟩
      refine .list (List.forall₂_map_left_iff.mpr (decoded.imp ?_))
      rintro v x ⟨proper, decodes⟩
      exact (Variable.ofValue_eq_ok_iff proper).mp decodes
    · rintro ⟨declared⟩
      have listed := (List.forall₂_and_left _ _).mpr ⟨each, List.forall₂_map_left_iff.mp declared⟩
      refine ⟨items, rfl, mapM_eq_ok_iff.mpr (listed.imp ?_)⟩
      rintro v x ⟨proper, declares⟩
      exact (Variable.ofValue_eq_ok_iff proper).mpr declares
  | _ =>
    constructor <;>
    · rintro ⟨⟩

theorem inserts :
    Value.Inserts insertMember Takes fun seen name => name = "variables" → seen = none where
  inserted := by
    intro seen name v mid proper absent
    simp only [insertMember]
    split_ifs with listed
    · simp only [map_eq_ok_iff, variablesOfValue_eq_ok_iff proper]
      constructor
      · rintro ⟨vs, lists, rfl⟩
        exact .declared listed (absent listed) lists
      · rintro (⟨-, -, lists⟩ | other)
        · exact ⟨_, lists, rfl⟩
        · exact absurd listed other
    · constructor
      · rintro ⟨⟩
        exact .other listed
      · rintro (⟨same, -⟩ | -)
        · exact absurd same listed
        · rfl
  others := by
    intro seen name p mid other takes ne absent same
    cases takes with
    | declared listed => exact absurd (same.trans listed.symm) ne
    | other _ => exact absent same

theorem describes_spelt_iff {named : List (String × Phrase)} {d : Document} :
    Describes (.object (spelt named)) d ↔ (named.map Prod.fst).count "variables" ≤ 1 ∧
      Optional IsVariables [] (named.lookup "variables") d.declared := by
  constructor
  · rintro ⟨names, once, optional⟩
    obtain rfl := named_spelt_iff.mp names
    exact ⟨once, optional⟩
  · rintro ⟨once, optional⟩
    exact .object (named_spelt named) once optional

theorem ofObject_eq_ok_iff {members : List (String × Value)} {d : Document}
    (distinct : (members.map Prod.fst).Nodup) (each : ∀ m ∈ members, m.2.Proper) :
    ofValue (.object members) = .ok d ↔ Describes (Value.object members).phrase d := by
  rw [ofValue, map_eq_ok_iff, Value.phrase, describes_spelt_iff]
  simp only [inserts.foldlM_eq_ok_iff distinct each fun _ _ _ => rfl, folds_iff]
  constructor
  · rintro ⟨declared?, ⟨once, filled⟩, rfl⟩
    exact ⟨once, exists_filled_iff.mp ⟨declared?, filled, rfl⟩⟩
  · rintro ⟨once, optional⟩
    obtain ⟨declared?, filled, found⟩ := exists_filled_iff.mpr optional
    exact ⟨declared?, ⟨once, filled⟩, by rw [ofDeclared, found]⟩

theorem ofItems_eq_ok_iff {items : List Value} {d : Document} (each : ∀ v ∈ items, v.Proper) :
    ofValue (.list items) = .ok d ↔ Describes (Value.list items).phrase d := by
  obtain ⟨declared⟩ := d
  rw [Value.phrase, Value.phrases_eq]
  cases items with
  | nil =>
    constructor
    · rintro ⟨⟩
      exact .list (Nat.zero_le 1) .absent
    · rintro (_ | ⟨-, ⟨⟩⟩)
      rfl
  | cons v items =>
    have proper := each v List.mem_cons_self
    simp only [ofValue, List.getElem?_cons_zero, Option.mapM_some, bind_eq_ok_iff]
    constructor
    · rintro ⟨declared?, first, _, short, ⟨⟩⟩
      obtain ⟨vs, decodes, rfl⟩ := map_eq_ok_iff.mp first
      have lists := (variablesOfValue_eq_ok_iff proper).mp decodes
      exact .list (by simpa using refuseSurplus_eq_ok_iff.mp short) (.present lists)
    · rintro (_ | ⟨short, _ | lists⟩)
      have decodes := (variablesOfValue_eq_ok_iff proper).mpr lists
      refine ⟨some declared, map_eq_ok_iff.mpr ⟨declared, decodes, rfl⟩, (), ?_, rfl⟩
      exact refuseSurplus_eq_ok_iff.mpr (by simpa using short)

theorem ofValue_eq_ok_iff {v : Value} (proper : v.Proper) {d : Document} :
    ofValue v = .ok d ↔ Describes v.phrase d := by
  cases proper with
  | list each => exact ofItems_eq_ok_iff each
  | object distinct each => exact ofObject_eq_ok_iff distinct each
  | _ =>
    constructor <;>
    · rintro ⟨⟩

/-- Text and value meet in the phrase. -/
theorem parse_toCompact_eq_ok_iff {v : Value} (proper : v.Proper) {d : Document} :
    parse v.toCompact = .ok d ↔ ofValue v = .ok d :=
  calc parse v.toCompact = .ok d
    _ ↔ ∃ p, IsText v.toCompact.toList p ∧ Describes p d := reader_decodes.parse_eq_ok_iff
    _ ↔ Describes v.phrase d := by simp only [proper.isText_iff, exists_eq_left]
    _ ↔ ofValue v = .ok d := (ofValue_eq_ok_iff proper).symm

end Document

namespace Source

/-- A text is refused at a place in it. -/
theorem document_error_located {source : Source} {e : DocumentError}
    (refused : source.document = .error e) :
    ∃ p offset, e.cause.position? = some p ∧ 1 ≤ p.line ∧
      e.diagnosis.labels? = some [⟨offset, 0⟩] := by
  obtain ⟨f, rfl⟩ := document_eq_error refused
  refine ⟨_, _, rfl, ?_, rfl⟩
  rw [Text.Position.after_eq_behind]
  exact Nat.le_add_left ..

/-- A value, with finite numbers and without two members of one name in any object, is decoded
exactly if its text is accepted, as the document that the text is read as. If they are refused, the
value is refused at no place, and so without a label, and the text at a place with one label. -/
theorem value_decoded_as_text_read {v : Value} (proper : v.Proper) (source : Source)
    (name : String) :
    let written : Source := ⟨name, v.toCompact⟩
    (∀ d, source.documentOfValue v = .ok d ↔ written.document = .ok d) ∧
    (∀ e, source.documentOfValue v = .error e →
      e.cause.position? = none ∧ e.diagnosis.labels? = some []) ∧
    ∀ e, written.document = .error e → ∃ p offset, e.cause.position? = some p ∧ 1 ≤ p.line ∧
      e.diagnosis.labels? = some [⟨offset, 0⟩] := by
  intro written
  refine ⟨fun d => ?_, fun e refused => ?_, fun e => document_error_located⟩
  · rw [documentOfValue, document, mapError_eq_ok_iff, mapError_eq_ok_iff]
    exact (Document.parse_toCompact_eq_ok_iff proper).symm
  · unfold documentOfValue at refused
    cases decoded : Document.ofValue v with
    | ok d =>
      rw [decoded] at refused
      cases refused
    | error m =>
      rw [decoded] at refused
      obtain rfl := Except.error.inj refused
      exact ⟨rfl, rfl⟩

/-- Members that do not matter may hold anything, and each variable has either form; but the list
that stands for a document has no second item. -/
theorem mixed_value_decoded_as_text_read :
    let listed : Value := .list [.list [.string "PORT", .string "number"],
      .object [("type", .null), ("nullable", .boolean true), ("name", .string "é")]]
    let accepted : Value :=
      .object [("$x", .list [.null, .number (.integer (-5))]), ("variables", listed)]
    let surplus : Value := .list [listed, .null]
    let d : Document := ⟨[⟨"PORT", some .number, false⟩, ⟨"é", none, true⟩]⟩
    let source : Source := ⟨"a.json", ""⟩
    accepted.Proper ∧ surplus.Proper ∧ source.documentOfValue accepted = .ok d ∧
      (⟨"b.json", accepted.toCompact⟩ : Source).document = .ok d ∧
      ∃ e e', source.documentOfValue surplus = .error e ∧ e.diagnosis.labels? = some [] ∧
        (⟨"b.json", surplus.toCompact⟩ : Source).document = .error e' ∧
        ∃ p, e'.cause.position? = some p ∧ 1 ≤ p.line := by
  intro listed accepted surplus d source
  have proper : listed.Proper := by
    have string := Value.Proper.string
    simp [listed, Value.proper_list_iff, Value.proper_object_iff, string, Value.Proper.null,
      Value.Proper.boolean]
  have accepted_proper : accepted.Proper := by
    have integer : (Value.number (.integer (-5))).Proper := .number trivial
    simp [accepted, Value.proper_list_iff, Value.proper_object_iff, integer, proper,
      Value.Proper.null]
  have surplus_proper : surplus.Proper := by
    simp [surplus, Value.proper_list_iff, proper, Value.Proper.null]
  have read : (⟨"b.json", accepted.toCompact⟩ : Source).document = .ok d :=
    eq_ok_of_toOption (by decide +kernel)
  obtain ⟨e', refused⟩ := exists_error_of_toOption
    (show (⟨"b.json", surplus.toCompact⟩ : Source).document.toOption = none by decide +kernel)
  obtain ⟨agree, -, -⟩ := value_decoded_as_text_read accepted_proper source "b.json"
  obtain ⟨agree', unlabelled, labelled⟩ := value_decoded_as_text_read surplus_proper source "b.json"
  obtain ⟨p, offset, position, line, -⟩ := labelled e' refused
  refine ⟨accepted_proper, surplus_proper, (agree d).mpr read, read, ?_⟩
  cases decoded : source.documentOfValue surplus with
  | ok d' => cases refused.symm.trans ((agree' d').mp decoded)
  | error e => exact ⟨e, e', rfl, (unlabelled e decoded).2, refused, p, position, line⟩

end Source

end TypeCatalog
