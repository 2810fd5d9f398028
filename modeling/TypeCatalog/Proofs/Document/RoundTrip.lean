import TypeCatalog.Document.Value
import TypeCatalog.Proofs.Document.Contract
import TypeCatalog.Proofs.Json.Compact

/-! Documents that are written and read again. Only the token of a type is written, so a token of a
known type is read as that type; everything else comes back as it was. -/
namespace TypeCatalog

open Json
open Json.Value (reads_boolean reads_list reads_object reads_string)
open Json.Grammar (IsText)

namespace DeclaredType

def settled : DeclaredType → DeclaredType
  | other token => ofToken token
  | known => known

theorem ofToken_token (t : DeclaredType) : ofToken t.token = t.settled := by
  cases t <;> rfl

example : ofToken (other "number").token = number := by decide

def knownTokens : List String := ["boolean", "number", "string"]

/-- A known type is not held as any other token. -/
def IsSettled (t : DeclaredType) : Prop := ∀ token ∈ knownTokens, t ≠ .other token

theorem ofToken_eq_other_iff {token : String} :
    ofToken token = .other token ↔ token ∉ knownTokens := by
  simp only [ofToken, knownTokens, List.mem_cons, List.not_mem_nil, or_false, not_or]
  split_ifs <;> simp_all

theorem settled_eq_self_iff {t : DeclaredType} : t.settled = t ↔ t.IsSettled := by
  cases t with
  | other token =>
    rw [settled, ofToken_eq_other_iff]
    constructor
    · rintro unknown _ known ⟨⟩
      exact unknown known
    · exact fun settled known => settled token known rfl
  | boolean => exact iff_of_true rfl nofun
  | number => exact iff_of_true rfl nofun
  | string => exact iff_of_true rfl nofun

theorem isSettled_ofToken (token : String) : (ofToken token).IsSettled := by
  rw [← settled_eq_self_iff, ← ofToken_token, token_ofToken]

end DeclaredType

namespace Variable

def settled (v : Variable) : Variable := { v with type? := v.type?.map DeclaredType.settled }

def IsSettled (v : Variable) : Prop := ∀ t ∈ v.type?, t.IsSettled

theorem settled_eq_self_iff {v : Variable} : v.settled = v ↔ v.IsSettled := by
  obtain ⟨name, type?, nullable⟩ := v
  cases type? with
  | none => simp [settled, IsSettled]
  | some t => simp [settled, IsSettled, DeclaredType.settled_eq_self_iff]

theorem IsType.isSettled {p : Phrase} {type? : Option DeclaredType} (isType : IsType p type?) :
    ∀ t ∈ type?, t.IsSettled := by
  cases isType with
  | null => exact nofun
  | token _ =>
    rintro t ⟨⟩
    exact DeclaredType.isSettled_ofToken _

theorem Declares.isSettled {p : Phrase} {v : Variable} (declares : Declares p v) :
    v.IsSettled := by
  have typed {p? : Option Phrase} (type : Optional IsType none p? v.type?) : v.IsSettled := by
    intro t found
    cases type? : v.type? with
    | none => simp [type?] at found
    | some _ =>
      rw [type?] at type
      cases type with
      | present isType => exact isType.isSettled t (type? ▸ found)
  cases declares with
  | object _ _ _ fields => exact typed fields.type
  | list _ fields => exact typed fields.type

def phrase (v : Variable) : Phrase :=
  let type := match v.type? with
    | none => []
    | some t => [("type", .string (piecesOf t.token))]
  .object (spelt
    (("name", .string (piecesOf v.name)) :: type ++ [("nullable", .boolean v.nullable)]))

theorem reads_phrase (v : Variable) : v.toValue.Reads v.phrase := by
  apply reads_object
  apply List.Forall₂.cons ⟨rfl, reads_string v.name⟩
  cases v.type? with
  | none => exact .cons ⟨rfl, reads_boolean v.nullable⟩ .nil
  | some t => exact .cons ⟨rfl, reads_string t.token⟩ (.cons ⟨rfl, reads_boolean v.nullable⟩ .nil)

theorem declares_phrase (v : Variable) : Declares v.phrase v.settled := by
  obtain ⟨name, type?, nullable⟩ := v
  have spells (s : String) : (Phrase.string (piecesOf s)).Spells s := .string (denotes_piecesOf s)
  cases type? with
  | none =>
    apply Declares.object (named_spelt _)
    · simp
    · simp
    · exact ⟨⟨_, rfl, spells name⟩, .absent, .present .boolean⟩
  | some t =>
    have isType : IsType _ (some (.ofToken t.token)) := .token (spells t.token)
    rw [DeclaredType.ofToken_token] at isType
    apply Declares.object (named_spelt _)
    · simp
    · simp
    · exact ⟨⟨_, rfl, spells name⟩, .present isType, .present .boolean⟩

end Variable

namespace Document

def settled (d : Document) : Document := ⟨d.declared.map Variable.settled⟩

def IsSettled (d : Document) : Prop := ∀ v ∈ d.declared, v.IsSettled

theorem settled_eq_self_iff {d : Document} : d.settled = d ↔ d.IsSettled := by
  obtain ⟨declared⟩ := d
  simp only [settled, IsSettled, Document.mk.injEq, ← Variable.settled_eq_self_iff]
  have unchanged := List.map_inj_left (f := Variable.settled) (g := id) (l := declared)
  rwa [List.map_id] at unchanged

theorem parse_eq_ok_iff {text : String} {d : Document} :
    parse text = .ok d ↔ ∃ p, IsText text.toList p ∧ Describes p d :=
  reader_decodes.parse_eq_ok_iff

theorem IsVariables.isSettled {p : Phrase} {vs : List Variable} (lists : IsVariables p vs) :
    ∀ v ∈ vs, v.IsSettled := by
  obtain ⟨each⟩ := lists
  induction each with
  | nil => exact nofun
  | cons declares _ ih => exact List.forall_mem_cons.mpr ⟨declares.isSettled, ih⟩

theorem Describes.isSettled {p : Phrase} {d : Document} (describes : Describes p d) :
    d.IsSettled := by
  obtain ⟨declared⟩ := d
  have listed {p? : Option Phrase} (optional : Optional IsVariables [] p? declared) :
      ∀ v ∈ declared, v.IsSettled := by
    cases optional with
    | absent => exact nofun
    | present lists => exact IsVariables.isSettled lists
  cases describes with
  | object _ _ optional => exact listed optional
  | list _ optional => exact listed optional

def phrase (d : Document) : Phrase :=
  .object (spelt [("variables", .list (d.declared.map Variable.phrase))])

theorem reads_phrase (d : Document) : d.toValue.Reads d.phrase := by
  have each : List.Forall₂ Value.Reads (d.declared.map Variable.toValue)
      (d.declared.map Variable.phrase) := by
    rw [List.forall₂_map_left_iff, List.forall₂_map_right_iff]
    exact List.forall₂_same.mpr fun v _ => v.reads_phrase
  exact reads_object (.cons ⟨rfl, reads_list each⟩ .nil)

theorem describes_phrase (d : Document) : Describes d.phrase d.settled := by
  have each : List.Forall₂ Variable.Declares (d.declared.map Variable.phrase)
      (d.declared.map Variable.settled) := by
    rw [List.forall₂_map_left_iff, List.forall₂_map_right_iff]
    exact List.forall₂_same.mpr fun v _ => v.declares_phrase
  exact .object (named_spelt _) (by simp) (.present (.list each))

/-- A document that is written is read with all its variables, in their order and with their names
and marks. So it comes back exactly as it was if its types are settled, and they always are where
the document has been read itself. -/
theorem read_of_written :
    (∀ d : Document, parse d.toText = .ok d.settled) ∧
      (∀ d : Document, parse d.toText = .ok d ↔ d.IsSettled) ∧
        ∀ (text : String) (d : Document), parse text = .ok d → d.IsSettled := by
  have written (d : Document) : parse d.toText = .ok d.settled :=
    parse_eq_ok_iff.mpr ⟨d.phrase, d.reads_phrase.isText, d.describes_phrase⟩
  refine ⟨written, fun d => ?_, fun text d reads => ?_⟩
  · rw [written, Except.ok.injEq, settled_eq_self_iff]
  · obtain ⟨p, -, describes⟩ := parse_eq_ok_iff.mp reads
    exact describes.isSettled

end Document

end TypeCatalog
