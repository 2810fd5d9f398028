import TypeCatalog.Document.Reader
import TypeCatalog.Proofs.Json.Containers

/-! Which texts are documents, and which document each of them is. The contract is stated on
phrases, without the order in which a reader meets their parts. -/
namespace TypeCatalog

open Json
open Json.Grammar (IsText)

namespace Variable

inductive IsType : Phrase → Option DeclaredType → Prop where
  | null : IsType .null none
  | token {p : Phrase} {token : String} : p.Spells token → IsType p (some (.ofToken token))

structure Fields (name? type? nullable? : Option Phrase) (v : Variable) : Prop where
  name : ∃ p, name? = some p ∧ p.Spells v.name
  type : Optional IsType none type? v.type?
  nullable : Optional Phrase.Holds false nullable? v.nullable

/-- A variable as an object of known fields, none of them twice, or as the list of their values. -/
inductive Declares : Phrase → Variable → Prop where
  | object {members : List (List Piece × Phrase)} {named : List (String × Phrase)} {v : Variable} :
      Named members named → (∀ n ∈ named, n.1 ∈ ["name", "type", "nullable"]) →
        (named.map Prod.fst).Nodup →
          Fields (named.lookup "name") (named.lookup "type") (named.lookup "nullable") v →
            Declares (.object members) v
  | list {items : List Phrase} {v : Variable} :
      items.length ≤ 3 → Fields items[0]? items[1]? items[2]? v → Declares (.list items) v

namespace Seen

inductive Takes (seen : Seen) (key : String) (p : Phrase) : Seen → Prop where
  | name {name : String} : key = "name" → seen.name? = none → p.Spells name →
      Takes seen key p { seen with name? := some name }
  | type {type : Option DeclaredType} : key = "type" → seen.type? = none → IsType p type →
      Takes seen key p { seen with type? := some type }
  | nullable {nullable : Bool} : key = "nullable" → seen.nullable? = none → p.Holds nullable →
      Takes seen key p { seen with nullable? := some nullable }

variable {seen final : Seen} {p : Phrase}

theorem takes_name_iff : Takes seen "name" p final ↔
    seen.name? = none ∧ ∃ name, p.Spells name ∧ { seen with name? := some name } = final := by
  constructor
  · rintro (⟨-, free, spells⟩ | ⟨other, -⟩ | ⟨other, -⟩)
    · exact ⟨free, _, spells, rfl⟩
    all_goals simp at other
  · rintro ⟨free, name, spells, rfl⟩
    exact .name rfl free spells

theorem takes_type_iff : Takes seen "type" p final ↔
    seen.type? = none ∧ ∃ type, IsType p type ∧ { seen with type? := some type } = final := by
  constructor
  · rintro (⟨other, -⟩ | ⟨-, free, isType⟩ | ⟨other, -⟩)
    · simp at other
    · exact ⟨free, _, isType, rfl⟩
    · simp at other
  · rintro ⟨free, type, isType, rfl⟩
    exact .type rfl free isType

theorem takes_nullable_iff : Takes seen "nullable" p final ↔ seen.nullable? = none ∧
    ∃ nullable, p.Holds nullable ∧ { seen with nullable? := some nullable } = final := by
  constructor
  · rintro (⟨other, -⟩ | ⟨other, -⟩ | ⟨-, free, holds⟩)
    · simp at other
    · simp at other
    · exact ⟨free, _, holds, rfl⟩
  · rintro ⟨free, nullable, holds, rfl⟩
    exact .nullable rfl free holds

end Seen

theorem typeReader_decodes : typeReader.Decodes IsType := by
  have tokens := Reader.decodes_string.map DeclaredType.ofToken
  apply (tokens.orNull (by rintro _ ⟨_, ⟨⟩, -⟩)).congr
  intro p type?
  cases type? with
  | none =>
    constructor
    · rintro rfl
      exact .null
    · rintro ⟨⟩
      rfl
  | some type =>
    constructor
    · rintro ⟨token, spells, rfl⟩
      exact .token spells
    · rintro ⟨⟩
      exact ⟨_, ‹_›, rfl⟩

theorem Seen.choose_follows : Follows choose Takes where
  chosen {seen key reader} chosen := by
    unfold choose at chosen
    split at chosen
    · rename_i same
      split at chosen
      · cases chosen
      · rename_i free
        cases chosen
        apply (Reader.decodes_string.map _).congr
        simp_all [takes_name_iff]
    · split at chosen
      · rename_i same
        split at chosen
        · cases chosen
        · rename_i free
          cases chosen
          apply (typeReader_decodes.map _).congr
          simp_all [takes_type_iff]
      · split at chosen
        · rename_i same
          split at chosen
          · cases chosen
          · rename_i free
            cases chosen
            apply (Reader.decodes_boolean.map _).congr
            simp_all [takes_nullable_iff]
        · cases chosen
  refused {seen key m p final} refused takes := by
    cases takes <;> simp_all [choose]

end Variable

inductive Filled {α : Type} (means : Phrase → α → Prop) (before? : Option α) :
    Option Phrase → Option α → Prop where
  | kept : Filled means before? none before?
  | put {p : Phrase} {a : α} : before? = none → means p a → Filled means before? (some p) (some a)

section Filled

variable {α : Type} {means : Phrase → α → Prop} {before? after? : Option α} {p? : Option Phrase}

theorem filled_absent_iff : Filled means before? none after? ↔ after? = before? := by
  constructor
  · rintro ⟨⟩
    rfl
  · rintro rfl
    exact .kept

theorem filled_present_iff {p : Phrase} : Filled means before? (some p) after? ↔
    before? = none ∧ ∃ a, means p a ∧ after? = some a := by
  constructor
  · rintro (_ | ⟨free, meant⟩)
    exact ⟨free, _, meant, rfl⟩
  · rintro ⟨free, a, meant, rfl⟩
    exact .put free meant

/-- What has been seen is not seen again. -/
theorem filled_some_iff {a : α} :
    Filled means (some a) p? after? ↔ p? = none ∧ after? = some a := by
  cases p? <;> simp [filled_absent_iff, filled_present_iff]

theorem Filled.exists_present {a : α} (filled : Filled means none p? (some a)) :
    ∃ p, p? = some p ∧ means p a := by
  cases p? with
  | none => cases filled_absent_iff.mp filled
  | some p =>
    obtain ⟨-, _, meant, ⟨⟩⟩ := filled_present_iff.mp filled
    exact ⟨p, rfl, meant⟩

/-- Where nothing was seen before, what is left out has its default. -/
theorem exists_filled_iff {default a : α} :
    (∃ after?, Filled means none p? after? ∧ after?.getD default = a) ↔
      Optional means default p? a := by
  constructor
  · rintro ⟨_, _ | ⟨-, meant⟩, rfl⟩
    · exact .absent
    · exact .present meant
  · rintro (_ | meant)
    · exact ⟨none, .kept, rfl⟩
    · exact ⟨some a, .put rfl meant, rfl⟩

end Filled

theorem lookup_eq_none_iff {named : List (String × Phrase)} {name : String} :
    named.lookup name = none ↔ name ∉ named.map Prod.fst := by
  simp only [List.lookup_eq_none_iff, List.mem_map, bne_iff_ne, not_exists, not_and]
  exact forall₂_congr fun n _ => ne_comm

namespace Variable

structure Seen.Gathers (seen : Seen) (named : List (String × Phrase)) (final : Seen) : Prop where
  known : ∀ n ∈ named, n.1 ∈ ["name", "type", "nullable"]
  once : (named.map Prod.fst).Nodup
  name : Filled Phrase.Spells seen.name? (named.lookup "name") final.name?
  type : Filled IsType seen.type? (named.lookup "type") final.type?
  nullable : Filled Phrase.Holds seen.nullable? (named.lookup "nullable") final.nullable?

variable {seen mid final : Seen} {key : String} {p : Phrase} {named : List (String × Phrase)}

theorem Seen.Gathers.cons (takes : seen.Takes key p mid) (gathers : mid.Gathers named final) :
    seen.Gathers ((key, p) :: named) final := by
  obtain ⟨known, once, name, type, nullable⟩ := gathers
  -- The field has been seen by then, so it cannot be among the members that follow.
  have fresh : key ∉ named.map Prod.fst := by
    rw [← lookup_eq_none_iff]
    cases takes with
    | name same => exact same ▸ (filled_some_iff.mp name).1
    | type same => exact same ▸ (filled_some_iff.mp type).1
    | nullable same => exact same ▸ (filled_some_iff.mp nullable).1
  cases takes with
  | name same free spells =>
    subst same
    obtain ⟨-, found⟩ := filled_some_iff.mp name
    refine ⟨List.forall_mem_cons.mpr ⟨by simp, known⟩,
      List.nodup_cons.mpr ⟨fresh, once⟩, ?_, type, nullable⟩
    simpa [found] using .put free spells
  | type same free isType =>
    subst same
    obtain ⟨-, found⟩ := filled_some_iff.mp type
    refine ⟨List.forall_mem_cons.mpr ⟨by simp, known⟩,
      List.nodup_cons.mpr ⟨fresh, once⟩, name, ?_, nullable⟩
    simpa [found] using .put free isType
  | nullable same free holds =>
    subst same
    obtain ⟨-, found⟩ := filled_some_iff.mp nullable
    refine ⟨List.forall_mem_cons.mpr ⟨by simp, known⟩,
      List.nodup_cons.mpr ⟨fresh, once⟩, name, type, ?_⟩
    simpa [found] using .put free holds

theorem Seen.Gathers.uncons (gathers : seen.Gathers ((key, p) :: named) final) :
    ∃ mid, seen.Takes key p mid ∧ mid.Gathers named final := by
  obtain ⟨known, once, name, type, nullable⟩ := gathers
  obtain ⟨isField, others⟩ := List.forall_mem_cons.mp known
  obtain ⟨fresh, distinct⟩ := List.nodup_cons.mp once
  rw [← lookup_eq_none_iff] at fresh
  simp only [List.mem_cons, List.not_mem_nil, or_false] at isField
  rcases isField with rfl | rfl | rfl
  · rw [List.lookup_cons_self, filled_present_iff] at name
    obtain ⟨free, _, spells, found⟩ := name
    exact ⟨_, .name rfl free spells, others, distinct, filled_some_iff.mpr ⟨fresh, found⟩, type,
      nullable⟩
  · rw [List.lookup_cons_self, filled_present_iff] at type
    obtain ⟨free, _, isType, found⟩ := type
    exact ⟨_, .type rfl free isType, others, distinct, name, filled_some_iff.mpr ⟨fresh, found⟩,
      nullable⟩
  · rw [List.lookup_cons_self, filled_present_iff] at nullable
    obtain ⟨free, _, holds, found⟩ := nullable
    exact ⟨_, .nullable rfl free holds, others, distinct, name, type,
      filled_some_iff.mpr ⟨fresh, found⟩⟩

theorem Seen.folds_iff : Folds Takes seen named final ↔ seen.Gathers named final := by
  constructor
  · intro folds
    induction folds with
    | nil => exact ⟨nofun, List.nodup_nil, .kept, .kept, .kept⟩
    | cons takes _ ih => exact ih.cons takes
  · intro gathers
    induction named generalizing seen with
    | nil =>
      obtain ⟨-, -, name, type, nullable⟩ := gathers
      simp only [List.lookup_nil, filled_absent_iff] at name type nullable
      obtain rfl : final = seen := by
        obtain ⟨⟩ := seen
        obtain ⟨⟩ := final
        simp_all
      exact .nil
    | cons n named ih =>
      obtain ⟨mid, takes, others⟩ := gathers.uncons
      exact .cons takes (ih others)

theorem Seen.finish_eq_ok_iff {v : Variable} : final.finish = .ok v ↔
    final.name? = some v.name ∧ final.type?.getD none = v.type? ∧
      final.nullable?.getD false = v.nullable := by
  obtain ⟨name, type?, nullable⟩ := v
  unfold finish
  cases final.name? <;> simp

/-- An object that is complete, by its members. -/
theorem Seen.exists_finished_iff {v : Variable} :
    (∃ final, Folds Takes {} named final ∧ final.finish = .ok v) ↔
      (∀ n ∈ named, n.1 ∈ ["name", "type", "nullable"]) ∧ (named.map Prod.fst).Nodup ∧
        Fields (named.lookup "name") (named.lookup "type") (named.lookup "nullable") v := by
  simp only [folds_iff, finish_eq_ok_iff]
  constructor
  · rintro ⟨final, ⟨known, once, name, type, nullable⟩, named, typed, marked⟩
    rw [named] at name
    exact ⟨known, once, name.exists_present, exists_filled_iff.mp ⟨_, type, typed⟩,
      exists_filled_iff.mp ⟨_, nullable, marked⟩⟩
  · rintro ⟨known, once, ⟨p, found, spells⟩, type, nullable⟩
    obtain ⟨type?, type, typed⟩ := exists_filled_iff.mpr type
    obtain ⟨nullable?, nullable, marked⟩ := exists_filled_iff.mpr nullable
    refine ⟨⟨some v.name, type?, nullable?⟩, ⟨known, once, ?_, type, nullable⟩, rfl, typed, marked⟩
    rw [found]
    exact .put rfl spells

theorem fields_decodes : fields.Decodes closeList (Grammar.Items true) fun items v =>
    items.length ≤ 3 ∧ Fields items[0]? items[1]? items[2]? v where
  sound {s t r v} reads closes := by
    simp only [fields] at reads
    split at reads
    · cases reads
    · cases reads
    · rename_i found
      split at reads
      · cases reads
      · rename_i found'
        split at reads
        · cases reads
        · rename_i found''
          cases reads
          -- Which items there are is known from the end mark backwards.
          have ends := (closeList_eq_ok_iff_items false).mp closes
          obtain ⟨xs, third, nothing, nullable⟩ :=
            Reader.decodes_boolean.sound_optional found'' ends false
          obtain ⟨ys, second, rfl, type⟩ := typeReader_decodes.sound_optional found' third none
          obtain ⟨p, spells, inside⟩ := Reader.decodes_string.sound_item? found second
          refine ⟨p :: ys, inside, ?_, ⟨p, rfl, spells⟩, ?_, ?_⟩
          · have none_left := congrArg List.length nothing
            simp only [List.length_tail, List.length_nil, List.length_cons] at none_left ⊢
            omega
          · simpa [List.head?_eq_getElem?] using type
          · simpa [List.head?_eq_getElem?] using nullable
  complete := by
    rintro s r items v inside ⟨short, ⟨p, isFirst, spells⟩, type, nullable⟩
    cases items with
    | nil => cases isFirst
    | cons q items =>
      cases isFirst
      obtain ⟨t, found, inside⟩ := Reader.decodes_string.complete_item? inside spells
      obtain ⟨type?, u, found', inside, typed⟩ := typeReader_decodes.complete_optional inside
        (by simpa [List.head?_eq_getElem?] using type)
      obtain ⟨nullable?, w, found'', inside, marked⟩ :=
        Reader.decodes_boolean.complete_optional inside
          (by simpa [List.head?_eq_getElem?] using nullable)
      have nothing : items.tail.tail = [] := by
        apply List.eq_nil_of_length_eq_zero
        simp only [List.length_tail, List.length_cons] at short ⊢
        omega
      rw [nothing] at inside
      exact ⟨w, by simp [fields, found, found', found'', typed, marked],
        (closeList_eq_ok_iff_items false).mpr inside⟩

theorem reader_decodes : reader.Decodes Declares := by
  apply (Reader.decodes_record _ (Contents.decodes_members Seen.choose_follows)
    fields_decodes).congr
  intro p v
  constructor
  · rintro (⟨named, final, names, folds, finished⟩ | ⟨short, fields⟩)
    · obtain ⟨known, once, fields⟩ := Seen.exists_finished_iff.mp ⟨final, folds, finished⟩
      exact .object names known once fields
    · exact .list short fields
  · rintro (⟨names, known, once, fields⟩ | ⟨short, fields⟩)
    · obtain ⟨final, folds, finished⟩ := Seen.exists_finished_iff.mpr ⟨known, once, fields⟩
      exact .object ⟨_, final, names, folds, finished⟩
    · exact .list ⟨short, fields⟩

end Variable

namespace Document

abbrev IsVariables : Phrase → List Variable → Prop := Phrase.Lists (List.Forall₂ Variable.Declares)

/-- A document as an object in which the list of variables comes once if at all, among any other
members, or as the list that holds this list alone. -/
inductive Describes : Phrase → Document → Prop where
  | object {members : List (List Piece × Phrase)} {named : List (String × Phrase)} {d : Document} :
      Named members named → (named.map Prod.fst).count "variables" ≤ 1 →
        Optional IsVariables [] (named.lookup "variables") d.declared →
          Describes (.object members) d
  | list {items : List Phrase} {d : Document} :
      items.length ≤ 1 → Optional IsVariables [] items[0]? d.declared → Describes (.list items) d

theorem variablesReader_decodes : variablesReader.Decodes IsVariables :=
  Reader.decodes_list _ (Contents.decodes_items Variable.reader_decodes)

inductive Takes (seen : Option (List Variable)) (key : String) (p : Phrase) :
    Option (List Variable) → Prop where
  | declared {vs : List Variable} : key = "variables" → seen = none → IsVariables p vs →
      Takes seen key p (some vs)
  | other : key ≠ "variables" → Takes seen key p seen

theorem choose_follows : Follows choose Takes where
  chosen {seen key reader} chosen := by
    unfold choose at chosen
    split at chosen
    · rename_i same
      split at chosen
      · cases chosen
      · rename_i free
        cases chosen
        apply (variablesReader_decodes.map _).congr
        intro p final
        constructor
        · rintro ⟨vs, lists, rfl⟩
          exact .declared same (by simpa using free) lists
        · rintro (⟨-, -, lists⟩ | ⟨other⟩)
          · exact ⟨_, lists, rfl⟩
          · exact absurd same other
    · rename_i other
      cases chosen
      apply (Reader.decodes_ignored.map _).congr
      intro p final
      constructor
      · rintro ⟨_, -, rfl⟩
        exact .other other
      · rintro (⟨same, -⟩ | -)
        · exact absurd same other
        · exact ⟨(), trivial, rfl⟩
  refused {seen key m p final} refused takes := by
    cases takes <;> simp_all [choose]

theorem folds_iff {seen final : Option (List Variable)} {named : List (String × Phrase)} :
    Folds Takes seen named final ↔ (named.map Prod.fst).count "variables" ≤ 1 ∧
      Filled IsVariables seen (named.lookup "variables") final := by
  constructor
  · intro folds
    induction folds with
    | nil => exact ⟨Nat.zero_le 1, .kept⟩
    | cons takes _ ih =>
      obtain ⟨once, filled⟩ := ih
      cases takes with
      | declared same free lists =>
        subst same
        obtain ⟨absent, found⟩ := filled_some_iff.mp filled
        have none_left := List.count_eq_zero.mpr (lookup_eq_none_iff.mp absent)
        exact ⟨by simp [none_left], by simpa [found] using .put free lists⟩
      | other ne =>
        exact ⟨by simpa [List.count_cons_of_ne ne] using once,
          by simpa [List.lookup_cons, beq_eq_false_iff_ne.mpr ne.symm] using filled⟩
  · rintro ⟨once, filled⟩
    induction named generalizing seen with
    | nil =>
      obtain rfl := filled_absent_iff.mp filled
      exact .nil
    | cons n named ih =>
      obtain ⟨name, p⟩ := n
      by_cases same : name = "variables"
      · subst same
        obtain ⟨free, vs, lists, rfl⟩ :=
          filled_present_iff.mp (by simpa only [List.lookup_cons_self] using filled)
        have none_left : (named.map Prod.fst).count "variables" = 0 := by simpa using once
        have absent := lookup_eq_none_iff.mpr (List.count_eq_zero.mp none_left)
        exact .cons (.declared rfl free lists)
          (ih (by omega) (filled_some_iff.mpr ⟨absent, rfl⟩))
      · refine .cons (.other same) (ih ?_ ?_)
        · simpa [List.count_cons_of_ne same] using once
        · simpa [List.lookup_cons, beq_eq_false_iff_ne.mpr (Ne.symm same)] using filled

theorem reader_decodes : reader.Decodes Describes := by
  have fields := (Contents.decodes_upToOne variablesReader_decodes).map ofDeclared
  apply (Reader.decodes_record _ (Contents.decodes_members choose_follows) fields).congr
  intro p d
  constructor
  · rintro (⟨named, final, names, folds, finished⟩ | ⟨declared?, lists, rfl⟩)
    · obtain ⟨once, filled⟩ := folds_iff.mp folds
      cases finished
      exact .object names once (exists_filled_iff.mp ⟨final, filled, rfl⟩)
    · obtain ⟨short, optional⟩ := exists_upToOne_iff.mp ⟨declared?, lists, rfl⟩
      exact .list short optional
  · rintro (⟨names, once, optional⟩ | ⟨short, optional⟩)
    · obtain ⟨declared?, filled, found⟩ := exists_filled_iff.mpr optional
      exact .object ⟨_, declared?, names, folds_iff.mpr ⟨once, filled⟩, by rw [ofDeclared, found]⟩
    · obtain ⟨declared?, lists, found⟩ := exists_upToOne_iff.mpr ⟨short, optional⟩
      exact .list ⟨declared?, lists, by rw [ofDeclared, found]⟩

end Document

/-- A source is accepted exactly if its text is JSON that describes a document, and that document
is what it is read as. -/
theorem Source.document_eq_ok_iff (source : Source) (d : Document) :
    source.document = .ok d ↔ ∃ p, IsText source.text.toList p ∧ Document.Describes p d := by
  rw [← Document.reader_decodes.parse_eq_ok_iff]
  unfold Source.document Document.parse
  cases Document.reader.parse source.text <;> simp [Except.mapError]

end TypeCatalog
