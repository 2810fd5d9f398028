/-! Physical lines: what stands between line ends. A text is made of its lines, and lines that
hold no line end themselves are found again when they are put together. In the same way a text is
made of blocks of lines, with empty lines between them. -/
namespace TypeCatalog.Text

/-- There is always one, if only an empty one. -/
def lines (s : String) : List String := (s.toList.splitOn '\n').map String.ofList

theorem map_toList_lines (s : String) : (lines s).map String.toList = s.toList.splitOn '\n' := by
  simp [lines, Function.comp_def]

theorem lines_empty : lines "" = [""] := rfl

theorem lines_ne_nil (s : String) : lines s ≠ [] := by
  simp [lines, List.splitOn_ne_nil]

theorem intercalate_lines (s : String) : "\n".intercalate (lines s) = s := by
  rw [← String.toList_inj, String.toList_intercalate, map_toList_lines]
  exact List.intercalate_splitOn '\n'

theorem lines_injective {s t : String} (same : lines s = lines t) : s = t := by
  rw [← intercalate_lines s, same, intercalate_lines]

theorem lines_intercalate {ls : List String} (ne : ls ≠ [])
    (solid : ∀ l ∈ ls, '\n' ∉ l.toList) : lines ("\n".intercalate ls) = ls := by
  have split : List.splitOn '\n' (['\n'].intercalate (ls.map String.toList)) =
      ls.map String.toList := by
    apply List.splitOn_intercalate
    · simpa using solid
    · simpa using ne
  simp [lines, String.toList_intercalate, split, Function.comp_def]

/-- A line end keeps the lines before it apart from those behind it. -/
theorem lines_append_newline (s t : String) : lines (s ++ "\n" ++ t) = lines s ++ lines t := by
  simp [lines, List.splitOn_append_cons_self]

/-- Two line ends make an empty line. -/
theorem lines_append_blank (s t : String) :
    lines (s ++ "\n\n" ++ t) = lines s ++ "" :: lines t := by
  have apart : s ++ "\n\n" ++ t = s ++ "\n" ++ ("" ++ "\n" ++ t) := by
    simp [← String.toList_inj]
  rw [apart, lines_append_newline, lines_append_newline, lines_empty]
  rfl

/-- Texts that are put together keep their lines. -/
theorem lines_infix_intercalate {texts : List String} {t : String} (member : t ∈ texts) :
    lines t <:+: lines ("\n\n".intercalate texts) := by
  induction texts with
  | nil => cases member
  | cons first rest ih =>
    cases rest with
    | nil =>
      obtain rfl := List.mem_singleton.mp member
      exact List.infix_rfl
    | cons second rest =>
      rw [String.intercalate_cons_cons, lines_append_blank]
      rcases List.mem_cons.mp member with rfl | later
      · exact (List.prefix_append _ _).isInfix
      · exact ((ih later).trans (List.suffix_cons "" _).isInfix).trans
          (List.suffix_append _ _).isInfix

/-- All but the first line have a line end in front of them. -/
theorem intercalate_cons (first : String) (rest : List String) :
    "\n".intercalate (first :: rest) = first ++ String.join (rest.map ("\n" ++ ·)) := by
  induction rest generalizing first with
  | nil => simp
  | cons second rest ih =>
    rw [String.intercalate_cons_cons, ih second]
    simp [String.append_assoc]

/-- A text ends in its last line. -/
theorem suffix_of_lines {s last : String} {ls : List String} (whole : lines s = ls ++ [last]) :
    last.toList <:+ s.toList := by
  rw [← intercalate_lines s, whole]
  cases ls with
  | nil => simp
  | cons first rest =>
    rw [List.cons_append, intercalate_cons]
    exact ⟨(first ++ String.join (rest.map ("\n" ++ ·)) ++ "\n").toList, by simp⟩

/-- The runs of lines between empty lines. -/
def blocks (s : String) : List (List String) := (lines s).splitOn ""

theorem intercalate_blocks (s : String) : [""].intercalate (blocks s) = lines s :=
  List.intercalate_splitOn ""

theorem blocks_injective {s t : String} (same : blocks s = blocks t) : s = t := by
  apply lines_injective
  rw [← intercalate_blocks s, same, intercalate_blocks]

theorem blocks_eq_singleton {s : String} (solid : "" ∉ lines s) : blocks s = [lines s] :=
  List.splitOn_eq_singleton solid

/-- A run without lines ends at an empty line, so it is never the only one. -/
theorem blocks_ne_nil_nil (s : String) : blocks s ≠ [[]] := by
  intro single
  have joined := intercalate_blocks s
  rw [single] at joined
  exact lines_ne_nil s joined.symm

/-- One empty line ends a run. -/
theorem blocks_append (s t : String) : blocks (s ++ "\n\n" ++ t) = blocks s ++ blocks t := by
  rw [blocks, lines_append_blank]
  exact List.splitOn_append_cons_self ..

/-- Between two empty lines there is an empty run. -/
theorem blocks_append_twice (s t : String) :
    blocks (s ++ "\n\n\n" ++ t) = blocks s ++ [] :: blocks t := by
  have apart : s ++ "\n\n\n" ++ t = s ++ "\n\n" ++ ("" ++ "\n" ++ t) := by
    simp [← String.toList_inj]
  rw [apart, blocks_append, blocks.eq_def ("" ++ "\n" ++ t), lines_append_newline,
    lines_empty]
  exact congrArg _ (List.splitOn_append_cons_self [] _)

/-- Texts without empty lines, put together with one between each and the next. -/
theorem blocks_intercalate {texts : List String} (ne : texts ≠ [])
    (solid : ∀ t ∈ texts, "" ∉ lines t) :
    blocks ("\n\n".intercalate texts) = texts.map lines := by
  induction texts with
  | nil => exact absurd rfl ne
  | cons first rest ih =>
    have alone := blocks_eq_singleton (solid first List.mem_cons_self)
    cases rest with
    | nil => simpa using alone
    | cons second rest =>
      have others := ih (by simp) fun t member => solid t (List.mem_cons_of_mem _ member)
      rw [String.intercalate_cons_cons, blocks_append, alone, others]
      rfl

theorem not_infix_of_solid {s : String} (solid : "" ∉ lines s) : ¬ ['\n', '\n'] <:+: s.toList := by
  rintro ⟨before, after, whole⟩
  apply solid
  have parts : s = String.ofList before ++ "\n\n" ++ String.ofList after := by
    simp [← String.toList_inj, ← whole]
  rw [parts, lines_append_blank]
  simp

end TypeCatalog.Text
