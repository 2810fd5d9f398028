import Mathlib.Data.List.Forall2
import TypeCatalog.Proofs.Json.Strings

/-! Readers against the printer: a list that is printed with one item to a line is read back item
by item. What holds for the items is lifted to the list, so nothing here knows which reader the
items have. -/
namespace TypeCatalog.Json

variable {α β : Type}

/-- In front of any other text the reader takes all of this one and nothing more. The text begins
with the value itself, so it is never mistaken for a gap or for the end of the list around it. -/
structure Reader.Takes (reader : Reader α) (text : List Char) (a : α) : Prop where
  reads : ∀ rest, reader.read (text ++ rest) = .ok (a, rest)
  begins : ∃ c tail, text = c :: tail ∧ isBlank c = false ∧ c ≠ ']'

theorem nextItem_end (first : Bool) (depth : Nat) (r : List Char) :
    nextItem first (Value.lineBreak depth ++ ']' :: r) = .ok (false, ']' :: r) := by
  rw [nextItem, skipBlank_lineBreak, skipBlank_cons_of_not _ rfl]
  rfl

theorem Reader.Takes.nextItem_first {item : Reader α} {text : List Char} {a : α}
    (takes : item.Takes text a) (depth : Nat) (r : List Char) :
    nextItem true (Value.lineBreak depth ++ (text ++ r)) = .ok (true, text ++ r) := by
  obtain ⟨c, tail, rfl, solid, notEnd⟩ := takes.begins
  rw [nextItem, skipBlank_lineBreak, List.cons_append, skipBlank_cons_of_not _ solid]
  split <;> simp_all

theorem nextItem_comma {r t : List Char} {c : Char} (next : skipBlank r = c :: t)
    (notEnd : c ≠ ']') : nextItem false (',' :: r) = .ok (true, c :: t) := by
  unfold nextItem
  rw [skipBlank_cons_of_not _ rfl]
  simp [next, notEnd]

theorem Reader.Takes.nextItem_next {item : Reader α} {text : List Char} {a : α}
    (takes : item.Takes text a) (depth : Nat) (r : List Char) :
    nextItem false (',' :: (Value.lineBreak depth ++ (text ++ r))) = .ok (true, text ++ r) := by
  obtain ⟨c, tail, rfl, solid, notEnd⟩ := takes.begins
  have gap : skipBlank (Value.lineBreak depth ++ (c :: tail ++ r)) = c :: (tail ++ r) := by
    rw [skipBlank_lineBreak, List.cons_append, skipBlank_cons_of_not _ solid]
  exact nextItem_comma gap notEnd

theorem closeList_mark (r : List Char) : closeList (']' :: r) = .ok r := by
  rw [closeList, skipBlank_cons_of_not _ rfl]
  rfl

theorem Reader.read_list {contents : Contents α} (expected : String) {r t u : List Char} {a : α}
    (inside : contents.read r = .ok (a, t)) (closes : closeList t = .ok u) :
    (Reader.list expected contents).read ('[' :: r) = .ok (a, u) := by
  simp only [Reader.list]
  rw [skipBlank_cons_of_not _ rfl]
  simp only [inside, closes, Except.map]

theorem items_of_end {item : Reader α} {first : Bool} {s r : List Char}
    (ends : nextItem first s = .ok (false, r)) : items item first s = .ok ([], r) := by
  rw [items]
  split <;> simp_all

theorem items_of_next {item : Reader α} {first : Bool} {s r t u : List Char} {a : α}
    {as : List α} (next : nextItem first s = .ok (true, r)) (reads : item.read r = .ok (a, t))
    (others : items item false t = .ok (as, u)) : items item first s = .ok (a :: as, u) := by
  rw [items]
  split
  · simp_all
  · simp_all
  · rename_i found
    obtain rfl : _ = r := by simpa [next] using found.symm
    split <;> simp_all

/-- The items after the first, by induction on them. -/
theorem items_prettyItems {item : Reader α} {depth : Nat} {vs : List Value} {as : List α}
    (each : List.Forall₂ (fun v a => item.Takes (v.pretty (depth + 1)) a) vs as) (r : List Char) :
    items item false (Value.prettyItems depth vs ++ r) = .ok (as, ']' :: r) := by
  induction each with
  | nil =>
    apply items_of_end
    rw [Value.prettyItems, List.append_assoc, List.singleton_append, nextItem_end]
  | @cons v a vs as takes _ ih =>
    simp only [Value.prettyItems, List.cons_append, List.append_assoc]
    exact items_of_next (takes.nextItem_next _ _) (takes.reads _) ih

theorem Reader.takes_items {item : Reader α} {depth : Nat} {vs : List Value} {as : List α}
    (expected : String)
    (each : List.Forall₂ (fun v a => item.Takes (v.pretty (depth + 1)) a) vs as) :
    (Reader.list expected (.items item)).Takes ((Value.list vs).pretty depth) as where
  reads rest := by
    cases each with
    | nil =>
      have inside : (Contents.items item).read (']' :: rest) = .ok ([], ']' :: rest) :=
        items_of_end (by rw [nextItem, skipBlank_cons_of_not _ rfl]; rfl)
      exact Reader.read_list expected inside (closeList_mark rest)
    | @cons v a vs as takes others =>
      have inside : (Contents.items item).read (Value.lineBreak (depth + 1) ++
          (v.pretty (depth + 1) ++ (Value.prettyItems depth vs ++ rest))) =
            .ok (a :: as, ']' :: rest) :=
        items_of_next (takes.nextItem_first _ _) (takes.reads _) (items_prettyItems others rest)
      have read := Reader.read_list expected inside (closeList_mark rest)
      simpa [Value.pretty] using read
  begins := by
    cases vs with
    | nil => exact ⟨'[', _, rfl, by decide, by decide⟩
    | cons v vs => exact ⟨'[', _, rfl, by decide, by decide⟩

theorem Reader.Takes.item?_first {item : Reader α} {text : List Char} {a : α}
    (takes : item.Takes text a) (depth : Nat) (r : List Char) :
    item? item true (Value.lineBreak depth ++ (text ++ r)) = .ok (some a, r) := by
  rw [item?, takes.nextItem_first]
  simp [takes.reads, Except.map]

theorem Reader.Takes.item?_next {item : Reader α} {text : List Char} {a : α}
    (takes : item.Takes text a) (depth : Nat) (r : List Char) :
    item? item false (',' :: (Value.lineBreak depth ++ (text ++ r))) = .ok (some a, r) := by
  rw [item?, takes.nextItem_next]
  simp [takes.reads, Except.map]

theorem Reader.takes_pair {first : Reader α} {second : Reader β} {depth : Nat} {v w : Value}
    {a : α} {b : β} (expected inner : String) (one : first.Takes (v.pretty (depth + 1)) a)
    (two : second.Takes (w.pretty (depth + 1)) b) :
    (Reader.list expected (.pair inner first second)).Takes ((Value.list [v, w]).pretty depth)
      (a, b) where
  reads rest := by
    have ends : closeList (Value.lineBreak depth ++ ']' :: rest) = .ok rest := by
      rw [closeList, skipBlank_lineBreak, skipBlank_cons_of_not _ rfl]
      rfl
    have inside : (Contents.pair inner first second).read (Value.lineBreak (depth + 1) ++
        (v.pretty (depth + 1) ++ (',' :: (Value.lineBreak (depth + 1) ++
          (w.pretty (depth + 1) ++ (Value.lineBreak depth ++ ']' :: rest)))))) =
            .ok ((a, b), Value.lineBreak depth ++ ']' :: rest) := by
      simp only [Contents.pair, one.item?_first, two.item?_next]
    have read := Reader.read_list expected inside ends
    simpa [Value.pretty, Value.prettyItems] using read
  begins := ⟨'[', _, rfl, by decide, by decide⟩

theorem Reader.takes_string (depth : Nat) (s : String) :
    Reader.string.Takes ((Value.string s).pretty depth) s where
  reads rest := by
    have quoted : (Value.string s).pretty depth ++ rest =
        '"' :: (Text.encode s.toList ++ '"' :: rest) := by
      simp [Value.pretty, Value.compact, Value.quoted]
    simp only [quoted, Reader.string]
    rw [skipBlank_cons_of_not _ rfl]
    simp [readString_encode, Except.map]
  begins := ⟨'"', Text.encode s.toList ++ ['"'],
    by simp [Value.pretty, Value.compact, Value.quoted], by decide, by decide⟩

theorem Reader.Takes.parse {reader : Reader α} {text : String} {a : α}
    (takes : reader.Takes text.toList a) : reader.parse text = .ok a := by
  have reads := takes.reads []
  rw [List.append_nil] at reads
  simp [Reader.parse, reads, skipBlank]

end TypeCatalog.Json
