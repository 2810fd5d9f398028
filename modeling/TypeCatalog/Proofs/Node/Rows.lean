import TypeCatalog.Node
import TypeCatalog.Proofs.Identifier
import TypeCatalog.Proofs.Text.Lines

/-! Nodes as rows. A row is one physical line and knows how far it stands in from the start of its
node, not how deep the node stands. The renderer puts several rows into the text of one line and
indents them by itself; what it prints are the rows all the same, at any depth. -/
namespace TypeCatalog

structure Row where
  indent : Nat
  text : String
deriving DecidableEq, Repr

namespace Row

def written (depth : Nat) (r : Row) : String :=
  String.ofList (List.replicate (2 * (depth + r.indent)) ' ') ++ r.text

def deeper (r : Row) : Row := ⟨r.indent + 1, r.text⟩

def lead (before : String) : List Row → List Row
  | [] => []
  | first :: rest => ⟨first.indent, before ++ first.text⟩ :: rest

structure Solid (r : Row) : Prop where
  filled : r.text ≠ ""
  unbroken : '\n' ∉ r.text.toList

end Row

namespace TypeNode

mutual

def rows : TypeNode → List Row
  | keyword raw => [⟨0, Identifier.ofKey raw⟩]
  | literal raw => [⟨0, Text.quote raw⟩]
  | any => [⟨0, "any"⟩]
  | undefined => [⟨0, "undefined"⟩]
  | null => [⟨0, "null"⟩]
  | string => [⟨0, "string"⟩]
  | number => [⟨0, "number"⟩]
  | boolean => [⟨0, "boolean"⟩]
  | union first others => rows first ++ rowsOfOthers others
  | field name value => Row.lead (Identifier.property name ++ ": ") (rows value)
  | interface name fields =>
    ⟨0, "interface " ++ Identifier.ofKey name ++ " \x7b"⟩ ::
      (rowsOfFields fields).map Row.deeper ++ [⟨0, "\x7d"⟩]
  | exported inner => Row.lead "export " (rows inner)

def rowsOfOthers : List TypeNode → List Row
  | [] => []
  | node :: rest => Row.lead "| " (rows node) ++ rowsOfOthers rest

def rowsOfFields : List (String × TypeNode) → List Row
  | [] => []
  | (name, value) :: rest =>
    Row.lead (Identifier.property name ++ ": ") (rows value) ++ rowsOfFields rest

end

end TypeNode

namespace Line

/-- The lines behind a first one, each with the line end in front of it. -/
def after (lines : List Line) : String := String.join (lines.map fun l => "\n" ++ l.toText)

theorem after_append (lines lines' : List Line) :
    after (lines ++ lines') = after lines ++ after lines' := by
  simp [after, String.join_append]

theorem flatten_cons (first : Line) (rest : List Line) :
    flatten (first :: rest) = first.toText ++ after rest := by
  rw [flatten, List.map_cons, Text.intercalate_cons, List.map_map]
  rfl

end Line

namespace Row

def after (depth : Nat) (rows : List Row) : String :=
  String.join (rows.map fun r => "\n" ++ r.written depth)

theorem after_append (depth : Nat) (rows rows' : List Row) :
    after depth (rows ++ rows') = after depth rows ++ after depth rows' := by
  simp [after, String.join_append]

theorem written_deeper (depth : Nat) (r : Row) :
    r.deeper.written depth = r.written (depth + 1) := by
  simp [written, deeper, Nat.add_assoc, Nat.add_comm 1]

theorem written_eq_text (text : String) : (⟨0, text⟩ : Row).written 0 = text := by
  simp [written]

theorem after_deeper (depth : Nat) (rows : List Row) :
    after depth (rows.map deeper) = after (depth + 1) rows := by
  simp [after, Function.comp_def, written_deeper]

theorem intercalate_written (depth : Nat) (first : Row) (rest : List Row) :
    "\n".intercalate ((first :: rest).map (written depth)) =
      first.written depth ++ after depth rest := by
  rw [List.map_cons, Text.intercalate_cons, List.map_map]
  rfl

end Row

/-- The lines begin at the depth and the rows where the node begins, and from there on the same is
printed. The first line is kept apart, as a parent may yet put something in front of it. -/
inductive Line.Prints (depth : Nat) : List Line → List Row → Prop where
  | intro {text text' : String} {rest : List Line} {more : List Row}
      (same : text ++ Line.after rest = text' ++ Row.after depth more) :
      Line.Prints depth (⟨depth, text⟩ :: rest) (⟨0, text'⟩ :: more)

namespace Line.Prints

variable {depth : Nat} {lines lines' : List Line} {rows rows' : List Row}

theorem single (depth : Nat) (text : String) : Prints depth [⟨depth, text⟩] [⟨0, text⟩] :=
  .intro rfl

theorem after_eq (prints : Prints depth lines rows) : after lines = Row.after depth rows := by
  cases prints with
  | intro same =>
    simp only [after, Row.after, List.map_cons, String.join_cons, toText, Row.written,
      String.append_assoc, Nat.add_zero] at same ⊢
    rw [same]

theorem append (prints : Prints depth lines rows)
    (further : after lines' = Row.after depth rows') :
    Prints depth (lines ++ lines') (rows ++ rows') := by
  cases prints with
  | intro same =>
    simp only [List.cons_append]
    refine .intro ?_
    rw [after_append, Row.after_append, ← String.append_assoc, same, further, String.append_assoc]

theorem lead (prints : Prints depth lines rows) (before : String) :
    Prints depth (Line.lead depth before lines) (Row.lead before rows) := by
  cases prints with
  | intro same => exact .intro (by rw [String.append_assoc, same, String.append_assoc])

theorem join (prints : Prints depth lines rows) (before : String) :
    Prints depth [Line.join depth before lines] (Row.lead before rows) := by
  cases prints with
  | @intro text text' rest more same =>
    refine .intro ?_
    show before ++ text ++ after rest ++ "" = before ++ text' ++ Row.after depth more
    rw [String.append_empty, String.append_assoc, same, String.append_assoc]

theorem flatten_eq (prints : Prints depth lines rows) :
    flatten lines = "\n".intercalate (rows.map (Row.written depth)) := by
  cases prints with
  | intro same =>
    rw [flatten_cons, Row.intercalate_written]
    simp only [toText, Row.written, Nat.add_zero, String.append_assoc, same]

end Line.Prints

namespace TypeNode

mutual

/-- At any depth. What the members and the fields print is looked at from behind the first line. -/
theorem renderAt_prints (depth : Nat) (node : TypeNode) :
    Line.Prints depth (renderAt depth node) (rows node) := by
  cases node with
  | union first others =>
    simp only [renderAt, rows]
    exact (renderAt_prints depth first).append (renderOthers_after depth others)
  | field name value =>
    simp only [renderAt, rows]
    exact (renderAt_prints depth value).join _
  | interface name fields =>
    simp only [renderAt, rows, List.cons_append]
    refine .intro (congrArg _ ?_)
    have inside := renderFields_after (depth + 1) fields
    have closing := (Line.Prints.single depth "\x7d").after_eq
    rw [Line.after_append, Row.after_append, inside, Row.after_deeper, closing]
  | exported inner =>
    simp only [renderAt, rows]
    exact (renderAt_prints depth inner).lead _
  | _ =>
    simp only [renderAt, rows]
    exact .single depth _

theorem renderOthers_after (depth : Nat) (others : List TypeNode) :
    Line.after (renderOthers depth others) = Row.after depth (rowsOfOthers others) := by
  cases others with
  | nil => rfl
  | cons node rest =>
    have first := ((renderAt_prints depth node).lead "| ").after_eq
    simp only [renderOthers, rowsOfOthers]
    rw [Line.after_append, Row.after_append, first, renderOthers_after depth rest]

theorem renderFields_after (depth : Nat) (fields : List (String × TypeNode)) :
    Line.after (renderFields depth fields) = Row.after depth (rowsOfFields fields) := by
  cases fields with
  | nil => rfl
  | cons f rest =>
    obtain ⟨name, value⟩ := f
    have first := ((renderAt_prints depth value).join (Identifier.property name ++ ": ")).after_eq
    simp only [renderFields, rowsOfFields]
    rw [← List.singleton_append, Line.after_append, Row.after_append, first,
      renderFields_after depth rest]

end

theorem flatten_renderAt (node : TypeNode) (depth : Nat) :
    Line.flatten (node.renderAt depth) = "\n".intercalate (node.rows.map (Row.written depth)) :=
  (renderAt_prints depth node).flatten_eq

theorem rows_begin (node : TypeNode) : ∃ text rest, node.rows = ⟨0, text⟩ :: rest := by
  have prints := renderAt_prints 0 node
  generalize node.renderAt 0 = lines at prints
  cases found : node.rows with
  | nil => rw [found] at prints; cases prints
  | cons first rest =>
    rw [found] at prints
    cases prints with
    | intro => exact ⟨_, _, rfl⟩

end TypeNode

namespace Row

theorem solid_lead {before : String} (unbroken : '\n' ∉ before.toList) {rows : List Row}
    (solid : ∀ r ∈ rows, Solid r) : ∀ r ∈ lead before rows, Solid r := by
  intro r member
  cases rows with
  | nil => cases member
  | cons first rest =>
    rcases List.mem_cons.mp member with rfl | later
    · have given := solid first List.mem_cons_self
      refine ⟨by simp [given.filled], ?_⟩
      simp [unbroken, given.unbroken]
    · exact solid r (List.mem_cons_of_mem _ later)

theorem Solid.deeper {r : Row} (solid : r.Solid) : r.deeper.Solid := ⟨solid.filled, solid.unbroken⟩

end Row

namespace TypeNode

open Identifier (unbroken_ofKey unbroken_property ofKey_ne_empty)

theorem solid_lead_field (name : String) {rows : List Row} (solid : ∀ r ∈ rows, r.Solid) :
    ∀ r ∈ Row.lead (Identifier.property name ++ ": ") rows, r.Solid :=
  Row.solid_lead (by simp [unbroken_property]) solid

mutual

theorem rows_solid (node : TypeNode) : ∀ r ∈ rows node, r.Solid := by
  cases node with
  | keyword raw => simpa [rows] using ⟨ofKey_ne_empty raw, unbroken_ofKey raw⟩
  | literal raw =>
    have unbroken := Text.unbroken_of_printable fun _ => Text.printable_of_mem_quote (s := raw)
    simpa [rows] using ⟨by simp [← String.toList_eq_nil_iff], unbroken⟩
  | union first others =>
    intro r member
    simp only [rows, List.mem_append] at member
    rcases member with member | member
    · exact rows_solid first r member
    · exact rowsOfOthers_solid others r member
  | field name value =>
    simp only [rows]
    exact solid_lead_field name (rows_solid value)
  | interface name fields =>
    intro r member
    simp only [rows, List.cons_append, List.mem_cons, List.mem_append, List.mem_map,
      List.not_mem_nil, or_false] at member
    rcases member with rfl | ⟨inner, member, rfl⟩ | rfl
    · exact ⟨by simp [← String.toList_eq_nil_iff], by simp [unbroken_ofKey]⟩
    · exact (rowsOfFields_solid fields inner member).deeper
    · exact ⟨by simp, by simp⟩
  | exported inner =>
    simp only [rows]
    exact Row.solid_lead (by simp) (rows_solid inner)
  | _ =>
    simp only [rows, List.mem_singleton, forall_eq]
    exact ⟨by simp, by simp⟩

theorem rowsOfOthers_solid (others : List TypeNode) : ∀ r ∈ rowsOfOthers others, r.Solid := by
  cases others with
  | nil => nofun
  | cons node rest =>
    intro r member
    simp only [rowsOfOthers, List.mem_append] at member
    rcases member with member | member
    · exact Row.solid_lead (by simp) (rows_solid node) r member
    · exact rowsOfOthers_solid rest r member

theorem rowsOfFields_solid (fields : List (String × TypeNode)) :
    ∀ r ∈ rowsOfFields fields, r.Solid := by
  cases fields with
  | nil => nofun
  | cons f rest =>
    obtain ⟨name, value⟩ := f
    intro r member
    simp only [rowsOfFields, List.mem_append] at member
    rcases member with member | member
    · exact solid_lead_field name (rows_solid value) r member
    · exact rowsOfFields_solid rest r member

end

end TypeNode

theorem Row.Solid.unbroken_written {r : Row} (solid : r.Solid) (depth : Nat) :
    '\n' ∉ (r.written depth).toList := by
  simp [Row.written, solid.unbroken]

/-- Each row is one line of what is printed, and there is no other line. -/
theorem TypeNode.lines_renderAt (node : TypeNode) (depth : Nat) :
    Text.lines (Line.flatten (node.renderAt depth)) = node.rows.map (Row.written depth) := by
  rw [flatten_renderAt]
  apply Text.lines_intercalate
  · obtain ⟨text, rest, begins⟩ := node.rows_begin
    simp [begins]
  · intro line member
    obtain ⟨r, listed, rfl⟩ := List.mem_map.mp member
    exact (node.rows_solid r listed).unbroken_written depth

theorem TypeNode.lines_source (node : TypeNode) :
    Text.lines node.source = node.rows.map (Row.written 0) :=
  node.lines_renderAt 0

/-- No row is empty, so there is no empty line either. -/
theorem TypeNode.solid_lines_source (node : TypeNode) : "" ∉ Text.lines node.source := by
  intro member
  rw [lines_source] at member
  obtain ⟨r, listed, empty⟩ := List.mem_map.mp member
  apply (node.rows_solid r listed).filled
  rw [← String.toList_eq_nil_iff] at empty ⊢
  simp only [Row.written, String.toList_append, List.append_eq_nil_iff] at empty
  exact empty.2

theorem Interface.lines_source (i : Interface) :
    Text.lines i.source = ("interface " ++ i.identifier ++ " \x7b") ::
      (TypeNode.rowsOfFields i.fields).map (Row.written 1) ++ ["\x7d"] := by
  rw [source, TypeNode.lines_source]
  simp [TypeNode.ofInterface, TypeNode.rows, Row.written_eq_text, Row.written_deeper,
    Function.comp_def, identifier]

/-- To stand deeper is to have that much more in front of every line. -/
theorem Row.written_eq (depth : Nat) (r : Row) :
    r.written depth = String.ofList (List.replicate (2 * depth) ' ') ++ r.written 0 := by
  rw [← String.toList_inj]
  simp [written, Nat.mul_add, ← List.replicate_append_replicate]

/-- What is printed of a node at a depth are its rows, each indented by the depth and by its own
distance from the start. There is at least one, the first is not indented within the node, and none
is empty or more than one line. So a node at a depth is the node by itself with the same indentation
put in front of every line. -/
theorem TypeNode.renderAt_refines_rows (node : TypeNode) (depth : Nat) :
    (∃ text rest, node.rows = ⟨0, text⟩ :: rest) ∧
    (∀ r ∈ node.rows, r.text ≠ "" ∧ '\n' ∉ r.text.toList) ∧
    Line.flatten (node.renderAt depth) = "\n".intercalate (node.rows.map fun r =>
      String.ofList (List.replicate (2 * (depth + r.indent)) ' ') ++ r.text) ∧
    Text.lines (Line.flatten (node.renderAt depth)) =
      (Text.lines (Line.flatten (node.renderAt 0))).map fun line =>
        String.ofList (List.replicate (2 * depth) ' ') ++ line := by
  refine ⟨node.rows_begin, fun r member => ?_, node.flatten_renderAt depth, ?_⟩
  · have solid := node.rows_solid r member
    exact ⟨solid.filled, solid.unbroken⟩
  · rw [lines_renderAt, lines_renderAt, List.map_map]
    exact List.map_congr_left fun r _ => r.written_eq depth

/-- The renderer makes one line of this field, and the rows are four. -/
example : (TypeNode.field "a b" (.nullable (.interface "c" [("d", .any)]))).rows =
    [⟨0, "\"a b\": null"⟩, ⟨0, "| interface c \x7b"⟩, ⟨1, "d: any"⟩, ⟨0, "\x7d"⟩] := by
  decide +kernel

end TypeCatalog
