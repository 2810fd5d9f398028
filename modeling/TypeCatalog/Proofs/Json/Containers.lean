import Mathlib.Data.List.Forall2
import TypeCatalog.Proofs.Json.Decoding
import TypeCatalog.Proofs.Json.Lists

/-! Lists and objects against the grammar. What is known of the readers of items and members is
lifted to what stands between the marks, and from there to the whole value. -/
namespace TypeCatalog.Json

open Grammar

variable {α β σ : Type}

/-- What stands between the marks of a list or an object, in `inside` with the end mark. -/
structure Contents.Decodes (contents : Contents α) (close : List Char → Except Fault (List Char))
    (inside : List Char → β → List Char → Prop) (means : β → α → Prop) : Prop where
  sound : ∀ {s t r a}, contents.read s = .ok (a, t) → close t = .ok r →
    ∃ b, inside s b r ∧ means b a
  complete : ∀ {s r b a}, inside s b r → means b a →
    ∃ t, contents.read s = .ok (a, t) ∧ close t = .ok r

inductive Optional (means : Phrase → α → Prop) (default : α) : Option Phrase → α → Prop where
  | absent : Optional means default none default
  | present {p : Phrase} {a : α} : means p a → Optional means default (some p) a

theorem exists_upToOne_iff {means : Phrase → α → Prop} {default a : α} {ps : List Phrase} :
    (∃ a? : Option α, List.Forall₂ means ps a?.toList ∧ a?.getD default = a) ↔
      ps.length ≤ 1 ∧ Optional means default ps[0]? a := by
  constructor
  · rintro ⟨_ | b, meant, rfl⟩
    · cases meant
      exact ⟨Nat.zero_le 1, .absent⟩
    · cases meant with
      | cons meant others =>
        cases others
        exact ⟨Nat.le_refl 1, .present meant⟩
  · rintro ⟨short, optional⟩
    cases ps with
    | nil =>
      cases optional
      exact ⟨none, .nil, rfl⟩
    | cons p ps =>
      obtain rfl : ps = [] := by simpa using short
      cases optional with
      | present meant => exact ⟨some a, .cons meant .nil, rfl⟩

section Items

variable {item : Reader α} {means : Phrase → α → Prop} {first : Bool} {s t r : List Char}
variable {p : Phrase} {ps : List Phrase} {a : α} {as : List α}

theorem closeList_eq_ok_iff_items (first : Bool) : closeList s = .ok r ↔ Items first s [] r := by
  rw [closeList_eq_ok_iff]
  constructor
  · exact .done
  · rintro ⟨ends⟩
    exact ends

theorem item?_eq_none_iff :
    item? item first s = .ok (none, t) ↔ ∃ r, t = ']' :: r ∧ Items first s [] r := by
  simp only [← closeList_eq_ok_iff_items first, closeList_eq_ok_iff]
  rw [← nextItem_eq_end_iff first, item?]
  split
  · simp_all
  · simp_all
  · rename_i u next
    cases item.read u <;> simp_all [Except.map]

theorem item?_of_next (next : nextItem first s = .ok (true, t)) (reads : item.read t = .ok (a, r)) :
    item? item first s = .ok (some a, r) := by
  simp [item?, next, reads, Except.map]

theorem exists_next_of_item? (found : item? item first s = .ok (some a, r)) :
    ∃ t, nextItem first s = .ok (true, t) ∧ item.read t = .ok (a, r) := by
  unfold item? at found
  split at found
  · cases found
  · cases found
  · rename_i t next
    obtain ⟨_, reads, ⟨⟩⟩ := map_eq_ok_iff.mp found
    exact ⟨t, next, reads⟩

theorem Reader.Decodes.sound_item? (decodes : item.Decodes means)
    (found : item? item first s = .ok (some a, t)) (others : Items false t ps r) :
    ∃ p, means p a ∧ Items first s (p :: ps) r := by
  obtain ⟨u, next, reads⟩ := exists_next_of_item? found
  obtain ⟨v, p, blanks, begins, meant⟩ := decodes.sound reads
  exact ⟨p, meant, .item ((gap_of_nextItem next).trans blanks) begins others⟩

theorem Reader.Decodes.complete_item? (decodes : item.Decodes means)
    (inside : Items first s (p :: ps) r) (meant : means p a) :
    ∃ t, item? item first s = .ok (some a, t) ∧ Items false t ps r := by
  cases inside with
  | @item _ _ u v _ _ _ gap begins others =>
    have parted : Parted p v := fun _ => others.endsNumber
    have reads := decodes.complete (.refl u) begins parted meant
    obtain ⟨c, w, rfl, solid, goesOn⟩ := begins.head
    exact ⟨v, item?_of_next (nextItem_of_gap gap solid goesOn) reads, others⟩

/-- An item that may be left out; if it is, there are none behind it. -/
theorem Reader.Decodes.sound_optional {a? : Option α} (decodes : item.Decodes means)
    (found : item? item first s = .ok (a?, t)) (others : Items false t ps r) (default : α) :
    ∃ qs, Items first s qs r ∧ qs.tail = ps ∧
      Optional means default qs.head? (a?.getD default) := by
  cases a? with
  | some a =>
    obtain ⟨p, meant, inside⟩ := decodes.sound_item? found others
    exact ⟨p :: ps, inside, rfl, .present meant⟩
  | none =>
    obtain ⟨u, rfl, ends⟩ := item?_eq_none_iff.mp found
    have solid : skipBlank (']' :: u) = ']' :: u := skipBlank_cons_of_not u rfl
    cases others with
    | done blanks =>
      rw [(skipBlank_eq_cons_iff rfl).mpr blanks] at solid
      cases solid
      exact ⟨[], ends, rfl, .absent⟩
    | item gap =>
      obtain ⟨v, comma, -⟩ := gap
      rw [(skipBlank_eq_cons_iff rfl).mpr comma] at solid
      cases solid

theorem Reader.Decodes.complete_optional {default : α} (decodes : item.Decodes means)
    (inside : Items first s ps r) (meant : Optional means default ps.head? a) :
    ∃ a? t, item? item first s = .ok (a?, t) ∧ Items false t ps.tail r ∧ a?.getD default = a := by
  cases ps with
  | nil =>
    obtain ⟨⟩ := meant
    exact ⟨none, ']' :: r, item?_eq_none_iff.mpr ⟨r, rfl, inside⟩, .done (.refl _), rfl⟩
  | cons p ps =>
    cases meant with
    | present meant =>
      obtain ⟨t, found, others⟩ := decodes.complete_item? inside meant
      exact ⟨some a, t, found, others, rfl⟩

theorem Reader.Decodes.sound_items (decodes : item.Decodes means)
    (reads : items item first s = .ok (as, t)) :
    ∃ r ps, t = ']' :: r ∧ Items first s ps r ∧ List.Forall₂ means ps as := by
  fun_induction items item first s generalizing as t with
  | case1 => cases reads
  | case2 first s u ends =>
    cases reads
    obtain ⟨r, rfl, done⟩ := (nextItem_eq_end_iff first).mp ends
    exact ⟨r, [], rfl, .done done, .nil⟩
  | case3 => cases reads
  | case4 => cases reads
  | case5 first s u next a v read as w rest ih =>
    cases reads
    obtain ⟨r, ps, rfl, others, meant⟩ := ih rest
    obtain ⟨p, meantFirst, inside⟩ := decodes.sound_item? (item?_of_next next read) others
    exact ⟨r, p :: ps, rfl, inside, .cons meantFirst meant⟩

theorem Reader.Decodes.complete_items (decodes : item.Decodes means)
    (meant : List.Forall₂ means ps as) (inside : Items first s ps r) :
    items item first s = .ok (as, ']' :: r) := by
  induction meant generalizing first s with
  | nil =>
    obtain ⟨ends⟩ := inside
    exact items_of_end ((nextItem_eq_end_iff first).mpr ⟨r, rfl, ends⟩)
  | cons meantFirst _ ih =>
    obtain ⟨t, found, others⟩ := decodes.complete_item? inside meantFirst
    obtain ⟨u, next, reads⟩ := exists_next_of_item? found
    exact items_of_next next reads (ih others)

end Items

namespace Contents

variable {m : Phrase → α → Prop} {n : Phrase → β → Prop}

theorem decodes_items {item : Reader α} (decodes : item.Decodes m) :
    (items item).Decodes closeList (Items true) (List.Forall₂ m) where
  sound reads closes := by
    obtain ⟨r, ps, rfl, inside, meant⟩ := decodes.sound_items reads
    obtain rfl := Except.ok.inj ((closeList_mark r).symm.trans closes)
    exact ⟨ps, inside, meant⟩
  complete inside meant := ⟨_, decodes.complete_items meant inside, closeList_mark _⟩

theorem decodes_pair (expected : String) {first : Reader α} {second : Reader β}
    (one : first.Decodes m) (two : second.Decodes n) :
    (pair expected first second).Decodes closeList (Items true) fun ps ab =>
      ∃ p q, ps = [p, q] ∧ m p ab.1 ∧ n q ab.2 where
  sound reads closes := by
    simp only [pair] at reads
    split at reads
    · cases reads
    · cases reads
    · rename_i found
      split at reads
      · cases reads
      · cases reads
      · rename_i found'
        cases reads
        have ends := (closeList_eq_ok_iff_items false).mp closes
        obtain ⟨q, meant', inside'⟩ := two.sound_item? found' ends
        obtain ⟨p, meant, inside⟩ := one.sound_item? found inside'
        exact ⟨[p, q], inside, p, q, rfl, meant, meant'⟩
  complete := by
    rintro s r _ ⟨a, b⟩ inside ⟨p, q, rfl, meant, meant'⟩
    obtain ⟨t, found, inside'⟩ := one.complete_item? inside meant
    obtain ⟨u, found', ends⟩ := two.complete_item? inside' meant'
    exact ⟨u, by simp only [pair, found, found'], (closeList_eq_ok_iff_items false).mpr ends⟩

theorem decodes_upToOne {item : Reader α} (decodes : item.Decodes m) :
    (upToOne item).Decodes closeList (Items true) fun ps a? => List.Forall₂ m ps a?.toList where
  sound {s t r a?} reads closes := by
    cases a? with
    | none =>
      obtain ⟨u, rfl, ends⟩ := item?_eq_none_iff.mp reads
      obtain rfl := Except.ok.inj ((closeList_mark u).symm.trans closes)
      exact ⟨[], ends, .nil⟩
    | some a =>
      have ends := (closeList_eq_ok_iff_items false).mp closes
      obtain ⟨p, meant, inside⟩ := decodes.sound_item? reads ends
      exact ⟨[p], inside, .cons meant .nil⟩
  complete {s r ps a?} inside meant := by
    cases a? with
    | none =>
      obtain ⟨⟩ := meant
      exact ⟨']' :: r, item?_eq_none_iff.mpr ⟨r, rfl, inside⟩, closeList_mark r⟩
    | some a =>
      cases meant with
      | cons meantFirst others =>
        cases others
        obtain ⟨t, found, ends⟩ := decodes.complete_item? inside meantFirst
        exact ⟨t, found, (closeList_eq_ok_iff_items false).mpr ends⟩

variable {γ : Type} {contents : Contents α} {close : List Char → Except Fault (List Char)}
variable {inside : List Char → γ → List Char → Prop} {means : γ → α → Prop}

theorem Decodes.map (decodes : contents.Decodes close inside means) (f : α → β) :
    (contents.map f).Decodes close inside fun g b => ∃ a, means g a ∧ f a = b where
  sound {s t r b} reads closes := by
    obtain ⟨_, inner, ⟨⟩⟩ := map_eq_ok_iff.mp reads
    obtain ⟨g, within, meant⟩ := decodes.sound inner closes
    exact ⟨g, within, _, meant, rfl⟩
  complete := by
    rintro s r g _ within ⟨a, meant, rfl⟩
    obtain ⟨t, reads, closes⟩ := decodes.complete within meant
    exact ⟨t, by simp [Contents.map, reads, Except.map], closes⟩

end Contents

abbrev Named (members : List (List Piece × Phrase)) (named : List (String × Phrase)) : Prop :=
  List.Forall₂ (fun m n => Denotes m.1 n.1.toList ∧ m.2 = n.2) members named

inductive Folds (next : σ → String → Phrase → σ → Prop) :
    σ → List (String × Phrase) → σ → Prop where
  | nil {state : σ} : Folds next state [] state
  | cons {state mid final : σ} {name : String} {p : Phrase} {named : List (String × Phrase)} :
      next state name p mid → Folds next mid named final →
        Folds next state ((name, p) :: named) final

/-- The reader that is chosen for a member takes exactly the values that change the state, and
where none is chosen no value does. -/
structure Follows (choose : σ → String → Except Mismatch (Reader σ))
    (next : σ → String → Phrase → σ → Prop) : Prop where
  chosen : ∀ {state name reader}, choose state name = .ok reader → reader.Decodes (next state name)
  refused : ∀ {state name m p final}, choose state name = .error m → ¬next state name p final

section Members

variable {choose : σ → String → Except Mismatch (Reader σ)} {next : σ → String → Phrase → σ → Prop}
variable {first : Bool} {state final : σ} {s t r : List Char}
variable {ms : List (List Piece × Phrase)} {named : List (String × Phrase)}

theorem Follows.sound_members (follows : Follows choose next)
    (reads : members choose first state s = .ok (final, t)) :
    ∃ r ms named, t = '\x7d' :: r ∧ Members first s ms r ∧ Named ms named ∧
      Folds next state named final := by
  fun_induction members choose first state s with
  | case1 => cases reads
  | case2 first state s u ends =>
    cases reads
    obtain ⟨r, rfl, done⟩ := nextKey_eq_end_iff.mp ends
    exact ⟨r, [], [], rfl, .done done, .nil, .nil⟩
  | case3 => cases reads
  | case4 => cases reads
  | case5 => cases reads
  | case6 first state s name u key value chosen v colon mid w read ih =>
    obtain ⟨r, ms, named, rfl, others, names, folds⟩ := ih reads
    obtain ⟨x, pieces, gap, between, denotes⟩ := nextKey_eq_next_iff.mp key
    obtain ⟨y, p, blanks, begins, change⟩ := (follows.chosen chosen).sound read
    exact ⟨r, (pieces, p) :: ms, (name, p) :: named, rfl,
      .member gap between (readColon_eq_ok_iff.mp colon) blanks begins others,
      .cons ⟨denotes, rfl⟩ names, .cons change folds⟩

theorem members_of_end (ends : nextKey first s = .ok (none, r)) :
    members choose first state s = .ok (state, r) := by
  rw [members]
  split <;> simp_all

theorem members_of_next {name : String} {value : Reader σ} {mid : σ} {u v : List Char}
    (key : nextKey first s = .ok (some name, t)) (chosen : choose state name = .ok value)
    (colon : readColon t = .ok u) (read : value.read u = .ok (mid, v)) :
    members choose first state s = members choose false mid v := by
  rw [members]
  split
  · simp_all
  · simp_all
  · rename_i found
    obtain ⟨rfl, rfl⟩ : _ = name ∧ _ = t := by simpa [key] using found.symm
    simp only [chosen]
    split
    · simp_all
    · rename_i found
      obtain rfl : _ = u := by simpa [colon] using found.symm
      split <;> simp_all

theorem Follows.complete_members (follows : Follows choose next)
    (folds : Folds next state named final) (names : Named ms named)
    (inside : Members first s ms r) :
    members choose first state s = .ok (final, '\x7d' :: r) := by
  induction folds generalizing first s ms with
  | nil =>
    obtain ⟨⟩ := names
    obtain ⟨ends⟩ := inside
    exact members_of_end (nextKey_eq_end_iff.mpr ⟨r, rfl, ends⟩)
  | @cons state mid final name p named change _ ih =>
    cases names with
    | cons named names =>
      obtain ⟨denotes, rfl⟩ := named
      cases inside with
      | member gap between colon blanks begins others =>
        have key := nextKey_eq_next_iff.mpr ⟨_, _, gap, between, denotes⟩
        have colon := readColon_eq_ok_iff.mpr colon
        cases chosen : choose state name with
        | error m => exact absurd change (follows.refused chosen)
        | ok value =>
          have read := (follows.chosen chosen).complete blanks begins (fun _ => others.endsNumber)
            change
          rw [members_of_next key chosen colon read, ih names others]

end Members

theorem Contents.decodes_members {start : σ} {choose : σ → String → Except Mismatch (Reader σ)}
    {finish : σ → Except Mismatch α} {next : σ → String → Phrase → σ → Prop}
    (follows : Follows choose next) :
    (Contents.members start choose finish).Decodes closeObject (Members true) fun ms a =>
      ∃ named final, Named ms named ∧ Folds next start named final ∧ finish final = .ok a where
  sound {s t r a} reads closes := by
    simp only [Contents.members] at reads
    split at reads
    · cases reads
    · rename_i final u inner
      split at reads
      · cases reads
      · rename_i finished
        cases reads
        obtain ⟨v, ms, named, rfl, inside, names, folds⟩ := follows.sound_members inner
        obtain rfl : v = r := by simpa [closeObject_eq_ok_iff.mpr (.refl _)] using closes
        exact ⟨ms, inside, named, final, names, folds, finished⟩
  complete := by
    rintro s r ms a inside ⟨named, final, names, folds, finished⟩
    refine ⟨'\x7d' :: r, ?_, closeObject_eq_ok_iff.mpr (.refl _)⟩
    simp only [Contents.members, follows.complete_members folds names inside, finished]

inductive Phrase.Lists (means : List Phrase → α → Prop) : Phrase → α → Prop where
  | list {items : List Phrase} {a : α} : means items a → Phrase.Lists means (.list items) a

inductive Phrase.Records (object : List (List Piece × Phrase) → α → Prop)
    (fields : List Phrase → α → Prop) : Phrase → α → Prop where
  | object {members : List (List Piece × Phrase)} {a : α} :
      object members a → Phrase.Records object fields (.object members) a
  | list {items : List Phrase} {a : α} :
      fields items a → Phrase.Records object fields (.list items) a

namespace Reader

variable {fields : Contents α} {means : List Phrase → α → Prop}

theorem decodes_list (expected : String) (decodes : fields.Decodes closeList (Items true) means) :
    (list expected fields).Decodes (Phrase.Lists means) where
  sound {s r a} reads := by
    simp only [list] at reads
    split at reads
    · rename_i t mark
      split at reads
      · cases reads
      · rename_i b u inner
        obtain ⟨_, closes, ⟨⟩⟩ := map_eq_ok_iff.mp reads
        obtain ⟨ps, inside, meant⟩ := decodes.sound inner closes
        exact ⟨_, _, (skipBlank_eq_cons_iff rfl).mp mark, .list inside, .list meant⟩
    · cases reads
  complete {s t r p a} blanks begins _ meant := by
    cases meant with
    | list meant =>
      cases begins with
      | list inside =>
        obtain ⟨u, reads, closes⟩ := decodes.complete inside meant
        simp only [list, (skipBlank_eq_cons_iff rfl).mpr blanks, reads, closes, Except.map]

theorem decodes_record (expected : String) {object : Contents α}
    {means' : List (List Piece × Phrase) → α → Prop}
    (decodes' : object.Decodes closeObject (Members true) means')
    (decodes : fields.Decodes closeList (Items true) means) :
    (record expected object fields).Decodes (Phrase.Records means' means) where
  sound {s r a} reads := by
    simp only [record] at reads
    split at reads
    · rename_i t mark
      obtain ⟨u, p, blanks, begins, ⟨meant⟩⟩ := (decodes_list expected decodes).sound reads
      exact ⟨u, _, (mark ▸ Blanks.skipped s).trans blanks, begins, .list meant⟩
    · rename_i t mark
      split at reads
      · cases reads
      · rename_i b u inner
        obtain ⟨_, closes, ⟨⟩⟩ := map_eq_ok_iff.mp reads
        obtain ⟨ms, inside, meant⟩ := decodes'.sound inner closes
        exact ⟨_, _, (skipBlank_eq_cons_iff rfl).mp mark, .object inside, .object meant⟩
    · cases reads
  complete {s t r p a} blanks begins parted meant := by
    have skips := begins.skipBlank_eq blanks
    cases meant with
    | object meant =>
      cases begins with
      | object inside =>
        obtain ⟨u, reads, closes⟩ := decodes'.complete inside meant
        simp only [record, skips, reads, closes, Except.map]
    | list meant =>
      have reads := (decodes_list expected decodes).complete (.refl t) begins parted (.list meant)
      cases begins with
      | list inside => simpa only [record, skips] using reads

/-- A text is taken if it is one phrase that has a meaning. -/
theorem Decodes.parse_eq_ok_iff {reader : Reader α} {means : Phrase → α → Prop}
    (decodes : reader.Decodes means) {text : String} {a : α} :
    reader.parse text = .ok a ↔ ∃ p, IsText text.toList p ∧ means p a := by
  constructor
  · intro parses
    simp only [parse] at parses
    split at parses
    · cases parses
    · rename_i b u reads
      split at parses
      · rename_i ends
        cases parses
        obtain ⟨t, p, blanks, begins, meant⟩ := decodes.sound reads
        exact ⟨p, ⟨t, u, blanks, begins, skipBlank_eq_nil_iff.mp ends⟩, meant⟩
      · cases parses
  · rintro ⟨p, ⟨t, u, blanks, begins, ends⟩, meant⟩
    have reads := decodes.complete blanks begins (fun _ => .of_blanks ends .nil) meant
    simp only [parse, reads, skipBlank_eq_nil_iff.mpr ends]

/-- A text that is taken goes on being taken when more follows it, unless that makes a number of
it longer. -/
theorem Decodes.read_append {reader : Reader α} {means : Phrase → α → Prop}
    (decodes : reader.Decodes means) (noNumber : ∀ a, ¬means .number a) {front : String} {a : α}
    (parses : reader.parse front = .ok a) (back : List Char) :
    ∃ rest, reader.read (front.toList ++ back) = .ok (a, rest ++ back) := by
  obtain ⟨p, ⟨t, rest, blanks, begins, -⟩, meant⟩ := decodes.parse_eq_ok_iff.mp parses
  have parted : Parted p (rest ++ back) := by
    rintro rfl
    exact absurd meant (noNumber a)
  exact ⟨rest, decodes.complete (blanks.extend back) (begins.extend back) parted meant⟩

end Reader

end TypeCatalog.Json
