import TypeCatalog.Proofs.Except
import TypeCatalog.Proofs.Json.Compact
import TypeCatalog.Proofs.Json.Numerals
import TypeCatalog.Proofs.Json.Unambiguous

/-! The phrase of a value. Its text says this phrase and nothing else, so a reader of the text and a
decoder of the value are asked about the same. -/
namespace TypeCatalog.Json

open Grammar

namespace Value

/-- All numbers are finite, and no object has two members of one name. -/
inductive Proper : Value → Prop where
  | null : Proper .null
  | boolean (b : Bool) : Proper (.boolean b)
  | number {n : Number} (finite : n.IsFinite) : Proper (.number n)
  | string (s : String) : Proper (.string s)
  | list {items : List Value} (each : ∀ v ∈ items, Proper v) : Proper (.list items)
  | object {members : List (String × Value)} (distinct : (members.map Prod.fst).Nodup)
      (each : ∀ m ∈ members, Proper m.2) : Proper (.object members)

theorem proper_list_iff {items : List Value} : (list items).Proper ↔ ∀ v ∈ items, v.Proper := by
  constructor
  · rintro ⟨⟩
    assumption
  · exact .list

theorem proper_object_iff {members : List (String × Value)} : (object members).Proper ↔
    (members.map Prod.fst).Nodup ∧ ∀ m ∈ members, m.2.Proper := by
  constructor
  · rintro ⟨⟩
    exact ⟨‹_›, ‹_›⟩
  · rintro ⟨distinct, each⟩
    exact .object distinct each

mutual

def phrase : Value → Phrase
  | null => .null
  | boolean b => .boolean b
  | number _ => .number
  | string s => .string (piecesOf s)
  | list items => .list (phrases items)
  | object members => .object (spelt (namedPhrases members))

def phrases : List Value → List Phrase
  | [] => []
  | v :: vs => v.phrase :: phrases vs

def namedPhrases : List (String × Value) → List (String × Phrase)
  | [] => []
  | (name, v) :: ms => (name, v.phrase) :: namedPhrases ms

end

theorem phrases_eq (items : List Value) : phrases items = items.map phrase := by
  induction items with
  | nil => rfl
  | cons v vs ih => rw [phrases, ih, List.map_cons]

theorem namedPhrases_eq (members : List (String × Value)) :
    namedPhrases members = members.map fun m => (m.1, m.2.phrase) := by
  induction members with
  | nil => rfl
  | cons m ms ih => rw [namedPhrases, ih, List.map_cons]

theorem map_fst_namedPhrases (members : List (String × Value)) :
    (namedPhrases members).map Prod.fst = members.map Prod.fst := by
  rw [namedPhrases_eq, List.map_map]
  rfl

theorem Proper.reads {v : Value} (proper : v.Proper) : v.Reads v.phrase := by
  induction proper with
  | null => exact fun _ => .null
  | boolean b => exact reads_boolean b
  | number finite => exact finite.begins_text
  | string s => exact reads_string s
  | @list items _ ih =>
    rw [phrase, phrases_eq]
    exact reads_list (List.forall₂_map_right_iff.mpr (List.forall₂_same.mpr ih))
  | @object members _ _ ih =>
    rw [phrase, namedPhrases_eq]
    refine reads_object (List.forall₂_map_right_iff.mpr (List.forall₂_same.mpr fun m member => ?_))
    exact ⟨rfl, ih m member⟩

/-- What the text of a value says is the phrase of the value. -/
theorem Proper.isText_iff {v : Value} (proper : v.Proper) {p : Phrase} :
    IsText v.toCompact.toList p ↔ p = v.phrase := by
  constructor
  · exact fun isText => isText.unique proper.reads.isText
  · rintro rfl
    exact proper.reads.isText

end Value

/-- What is written for a string denotes this string alone. -/
theorem denotes_piecesOf_iff {s : String} {chars : List Char} :
    Denotes (piecesOf s) chars ↔ chars = s.toList := by
  constructor
  · intro denotes
    have between := pieces_encode s.toList ['"']
    have reads := readString_of_pieces (r := []) between denotes
    rw [readString_of_pieces (r := []) between (denotes_piecesOf s)] at reads
    simpa using reads.symm
  · rintro rfl
    exact denotes_piecesOf s

theorem named_spelt_iff {named named' : List (String × Phrase)} :
    Named (spelt named) named' ↔ named = named' := by
  constructor
  · intro names
    rw [spelt, Named, List.forall₂_map_left_iff] at names
    have each : List.Forall₂ Eq named named' := by
      apply names.imp
      rintro n n' ⟨denotes, same⟩
      refine Prod.ext ?_ same
      exact (String.toList_inj.mp (denotes_piecesOf_iff.mp denotes)).symm
    rwa [List.forall₂_eq_eq_eq] at each
  · rintro rfl
    exact named_spelt named

namespace Value

variable {v : Value}

theorem asString_eq_ok_iff {s : String} : v.asString = .ok s ↔ v.phrase.Spells s := by
  constructor
  · intro decodes
    cases v with
    | string t =>
      obtain rfl := Except.ok.inj decodes
      exact .string (denotes_piecesOf t)
    | _ => cases decodes
  · intro spells
    cases v with
    | string t =>
      obtain ⟨denotes⟩ := spells
      rw [String.toList_inj.mp (denotes_piecesOf_iff.mp denotes), Value.asString]
    | _ => cases spells

theorem asBoolean_eq_ok_iff {b : Bool} : v.asBoolean = .ok b ↔ v.phrase.Holds b := by
  constructor
  · intro decodes
    cases v with
    | boolean c =>
      obtain rfl := Except.ok.inj decodes
      exact .boolean
    | _ => cases decodes
  · intro holds
    cases v with
    | boolean c =>
      cases holds
      rfl
    | _ => cases holds

/-- A part that may be left out is decoded like the phrase in its place. -/
theorem getD_eq_ok_iff {α : Type} {decode : Value → Except Mismatch α} {means : Phrase → α → Prop}
    (decodes : ∀ {v a}, decode v = .ok a ↔ means v.phrase a) {v? : Option Value} {default a : α} :
    (v?.map decode).getD (.ok default) = .ok a ↔
      Optional means default (v?.map Value.phrase) a := by
  cases v? with
  | none =>
    constructor
    · rintro ⟨⟩
      exact .absent
    · rintro ⟨⟩
      rfl
  | some v =>
    rw [Option.map_some, Option.map_some, Option.getD_some, decodes]
    constructor
    · exact .present
    · rintro ⟨⟩
      assumption

/-- What a decoder does to a state that lacks a member is what the phrase of the member does. A
reader refuses members that the state does not lack, a decoder does not look. -/
structure Inserts {σ : Type} (insert : σ → String × Value → Except Mismatch σ)
    (next : σ → String → Phrase → σ → Prop) (lacks : σ → String → Prop) : Prop where
  inserted : ∀ {state name v mid}, v.Proper → lacks state name →
    (insert state (name, v) = .ok mid ↔ next state name v.phrase mid)
  others : ∀ {state name p mid other}, next state name p mid → other ≠ name →
    lacks state other → lacks mid other

theorem Inserts.foldlM_eq_ok_iff {σ : Type} {insert : σ → String × Value → Except Mismatch σ}
    {next : σ → String → Phrase → σ → Prop} {lacks : σ → String → Prop}
    (inserts : Inserts insert next lacks) {members : List (String × Value)} {state final : σ}
    (distinct : (members.map Prod.fst).Nodup) (each : ∀ m ∈ members, m.2.Proper)
    (free : ∀ m ∈ members, lacks state m.1) :
    members.foldlM insert state = .ok final ↔
      Folds next state (namedPhrases members) final := by
  induction members generalizing state with
  | nil =>
    constructor
    · rintro ⟨⟩
      exact .nil
    · rintro ⟨⟩
      rfl
  | cons m members ih =>
    obtain ⟨name, v⟩ := m
    obtain ⟨fresh, distinct⟩ := List.nodup_cons.mp distinct
    obtain ⟨proper, each⟩ := List.forall_mem_cons.mp each
    obtain ⟨here, later⟩ := List.forall_mem_cons.mp free
    have lacking {mid : σ} (takes : next state name v.phrase mid) :
        ∀ m ∈ members, lacks mid m.1 := by
      intro m member
      refine inserts.others takes (fun same => fresh ?_) (later m member)
      exact List.mem_map.mpr ⟨m, member, same⟩
    rw [List.foldlM_cons, bind_eq_ok_iff, namedPhrases]
    constructor
    · rintro ⟨mid, inserted, rest⟩
      have takes := (inserts.inserted proper here).mp inserted
      exact .cons takes ((ih distinct each (lacking takes)).mp rest)
    · rintro (_ | ⟨takes, rest⟩)
      have inserted := (inserts.inserted proper here).mpr takes
      exact ⟨_, inserted, (ih distinct each (lacking takes)).mpr rest⟩

end Value

end TypeCatalog.Json
