import TypeCatalog.Proofs.Catalog.Definition
import TypeCatalog.Proofs.Identifier
import TypeCatalog.Proofs.Text.Lines

/-! The definition line by line. An entry takes four lines whatever is in it, and of these only the
last one shows whether another entry follows. So a change of one entry is seen in its own lines, and
a new entry in the lines at the end. -/
namespace TypeCatalog.Catalog

open Json (Value)

def entryLines (mark : String) (e : String × String) : List String :=
  ["  [", "    " ++ Text.quote e.1 ++ ",", "    " ++ Text.quote e.2, "  ]" ++ mark]

def linesFrom : List (String × String) → List String
  | [] => ["]"]
  | e :: rest => entryLines (if rest.isEmpty then "" else ",") e ++ linesFrom rest

/-- The printer puts the comma in front of the next item, the lines have it behind the last one. -/
theorem toList_linesFrom (e : String × String) (rest : List (String × String)) :
    (String.join ((linesFrom (e :: rest)).map ("\n" ++ ·))).toList =
      Value.lineBreak 1 ++ (pairValue e).pretty 1 ++ Value.prettyItems 0 (rest.map pairValue) := by
  induction rest generalizing e with
  | nil => simp [linesFrom, entryLines, pairValue, Value.pretty, Value.prettyItems, Value.compact,
      Value.quoted, Value.lineBreak]
  | cons next rest ih =>
    rw [linesFrom, List.map_append, String.join_append, String.toList_append, ih next]
    simp [entryLines, pairValue, Value.pretty, Value.prettyItems, Value.compact, Value.quoted,
      Value.lineBreak]

theorem unbroken_entryLines {mark : String} (unbroken : '\n' ∉ mark.toList) (e : String × String) :
    ∀ line ∈ entryLines mark e, '\n' ∉ line.toList := by
  have inside (s : String) : '\n' ∉ Text.encode s.toList := by
    simpa using Text.unbroken_of_printable fun _ => Text.printable_of_mem_quote (s := s)
  simp [entryLines, inside, unbroken]

theorem unbroken_linesFrom (entries : List (String × String)) :
    ∀ line ∈ linesFrom entries, '\n' ∉ line.toList := by
  induction entries with
  | nil => simp [linesFrom]
  | cons e rest ih =>
    intro line member
    rcases List.mem_append.mp member with own | later
    · exact unbroken_entryLines (by split <;> simp) e line own
    · exact ih line later

theorem lines_definition {c : Catalog} (filled : c.entries ≠ []) :
    Text.lines c.definition = "[" :: linesFrom c.entries := by
  obtain ⟨e, rest, entries⟩ := List.exists_cons_of_ne_nil filled
  have printed : c.definition = "\n".intercalate ("[" :: linesFrom c.entries) := by
    rw [Text.intercalate_cons, entries, ← String.toList_inj, String.toList_append,
      toList_linesFrom, definition, toValue, entries]
    simp [Value.toPretty, Value.pretty, pairValue]
    rfl
  rw [printed]
  apply Text.lines_intercalate (by simp)
  exact List.forall_mem_cons.mpr ⟨by decide, unbroken_linesFrom c.entries⟩

theorem length_entryLines (mark : String) (e : String × String) :
    (entryLines mark e).length = 4 := rfl

theorem length_linesFrom (entries : List (String × String)) :
    (linesFrom entries).length = 4 * entries.length + 1 := by
  induction entries with
  | nil => rfl
  | cons e rest ih =>
    rw [linesFrom, List.length_append, length_entryLines, ih, List.length_cons]
    omega

/-- All entries in front of another one are followed by a comma. -/
theorem linesFrom_append (front : List (String × String)) {back : List (String × String)}
    (filled : back ≠ []) :
    linesFrom (front ++ back) = front.flatMap (entryLines ",") ++ linesFrom back := by
  induction front with
  | nil => rfl
  | cons e front ih =>
    have more : (front ++ back).isEmpty = false := by simp [filled]
    rw [List.cons_append, linesFrom, ih, more, List.flatMap_cons, List.append_assoc]
    rfl

theorem length_front (front : List (String × String)) :
    (front.flatMap (entryLines ",")).length = 4 * front.length := by
  simp [List.length_flatMap, length_entryLines, Nat.mul_comm]

/-- The text of an entry is on one line. -/
theorem linesFrom_replaced (front back : List (String × String)) (key old new : String) :
    linesFrom (front ++ (key, new) :: back) =
      (linesFrom (front ++ (key, old) :: back)).set (4 * front.length + 2)
        ("    " ++ Text.quote new) := by
  rw [linesFrom_append front (by simp), linesFrom_append front (by simp), ← length_front,
    List.set_append_right _ _ (by omega), Nat.add_sub_cancel_left]
  rfl

theorem exists_split_of_key {c : Catalog} {i : Nat} {key : String} (known : c.keys[i]? = some key) :
    ∃ front back old, c.entries = front ++ (key, old) :: back ∧ front.length = i := by
  rw [OrderedMap.keys, List.getElem?_map] at known
  obtain ⟨⟨_, old⟩, found, rfl⟩ := Option.map_eq_some_iff.mp known
  obtain ⟨inside, here⟩ := List.getElem?_eq_some_iff.mp found
  refine ⟨c.entries.take i, c.entries.drop (i + 1), old, ?_,
    List.length_take_of_le (Nat.le_of_lt inside)⟩
  rw [← here, List.getElem_cons_drop, List.take_append_drop]

theorem put_of_known {c : Catalog} {front back : List (String × String)} {key old : String}
    (entries : c.entries = front ++ (key, old) :: back) (new : String) :
    (c.put key new).2.entries = front ++ (key, new) :: back := by
  have distinct := c.nodup
  rw [entries, List.map_append, List.nodup_append] at distinct
  have fresh : key ∉ front.map Prod.fst := fun earlier => distinct.2.2 key earlier key (by simp) rfl
  show OrderedMap.upsert key new c.entries = _
  rw [entries, OrderedMap.upsert_append_cons fresh]

/-- The definition of a catalog that is not empty has four lines for each entry and one in front of
and one behind them. When a text is put under the key at a position, no line changes but one, the
third of that entry. When one is put under a new key, the lines up to the last entry's text stay,
its last line gets a comma, and four lines come in before the end. -/
theorem definition_changes_locally {c : Catalog} (filled : c.entries ≠ []) :
    (Text.lines c.definition).length = 4 * c.size + 2 ∧
    (∀ (i : Nat) (key : String), c.keys[i]? = some key → ∀ text,
      Text.lines (c.put key text).2.definition =
        (Text.lines c.definition).set (4 * i + 3) ("    " ++ Text.quote text)) ∧
    ∀ key, key ∉ c.keys → ∀ text, ∃ front : List String, front.length = 4 * c.size ∧
      Text.lines c.definition = front ++ ["  ]", "]"] ∧
      Text.lines (c.put key text).2.definition = front ++ ["  ],", "  [",
        "    " ++ Text.quote key ++ ",", "    " ++ Text.quote text, "  ]", "]"] := by
  rw [lines_definition filled]
  refine ⟨?_, fun i key known text => ?_, fun key new text => ?_⟩
  · rw [List.length_cons, length_linesFrom]
    rfl
  · obtain ⟨front, back, old, entries, rfl⟩ := exists_split_of_key known
    have after := put_of_known entries text
    rw [lines_definition (by simp [after]), after, entries, linesFrom_replaced front back key old]
    rfl
  · obtain ⟨others, last, entries⟩ := (List.eq_nil_or_concat' c.entries).resolve_left filled
    have after : (c.put key text).2.entries = others ++ [last, (key, text)] := by
      have appended : (c.put key text).2.entries = c.entries ++ [(key, text)] :=
        OrderedMap.upsert_of_not_mem text new
      rw [appended, entries, List.append_assoc]
      rfl
    -- All lines up to the one that closes the last entry, which is where a comma is to come.
    refine ⟨"[" :: others.flatMap (entryLines ",") ++ (entryLines "" last).take 3, ?_, ?_, ?_⟩
    · simp [entries, entryLines, OrderedMap.size]
      omega
    · rw [entries, linesFrom_append others (by simp)]
      simp [linesFrom, entryLines]
    · rw [lines_definition (by simp [after]), after, linesFrom_append others (by simp)]
      simp [linesFrom, entryLines]

/-- Line ends, marks and indentation in the keys and the texts make no lines of their own. -/
theorem definition_changes_beside_line_ends :
    let c : Catalog := ⟨[("a\n", "\n  ],\n"), ("", "\r\n]")], by decide⟩
    c.entries ≠ [] ∧ (Text.lines c.definition).length = 10 ∧
      c.keys[1]? = some "" ∧ Text.lines (c.put "" "\n").2.definition =
        (Text.lines c.definition).set 7 "    \"\\n\"" ∧
      "\n" ∉ c.keys ∧ ∃ front, front.length = 8 ∧ Text.lines c.definition = front ++ ["  ]", "]"] ∧
        Text.lines (c.put "\n" "").2.definition =
          front ++ ["  ],", "  [", "    \"\\n\",", "    \"\"", "  ]", "]"] := by
  intro c
  have filled : c.entries ≠ [] := by decide
  have known : c.keys[1]? = some "" := by decide
  have new : "\n" ∉ c.keys := by decide
  obtain ⟨length, changed, added⟩ := definition_changes_locally filled
  exact ⟨filled, length, known, changed 1 "" known "\n", new, added "\n" new ""⟩

end TypeCatalog.Catalog
