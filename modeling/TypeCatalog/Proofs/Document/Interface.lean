import Mathlib.Data.List.Forall2
import TypeCatalog.Document.Basic
import TypeCatalog.Proofs.Node.Rows

/-! The printed interface of a document says all that is in its variables. It has one line for each
variable and one more for each that is nullable, whatever the names are, and each line gives back
the name and the type that it was made of. -/
namespace TypeCatalog

namespace TypeNode

/-- The one word that a declared type is printed as. -/
def declaredWord : Option DeclaredType → String
  | some .boolean => "boolean"
  | some .number => "number"
  | some .string => "string"
  | some (.other _) | none => "any"

theorem rows_ofDeclared (t? : Option DeclaredType) :
    (ofDeclared t?).rows = [⟨0, declaredWord t?⟩] := by
  rcases t? with _ | (_ | _ | _ | _) <;> rfl

theorem declaredWord_ne_null (t? : Option DeclaredType) : declaredWord t? ≠ "null" := by
  rcases t? with _ | (_ | _ | _ | _) <;> simp [declaredWord]

theorem declaredWord_eq_iff (t? t'? : Option DeclaredType) :
    declaredWord t? = declaredWord t'? ↔ ofDeclared t? = ofDeclared t'? := by
  constructor
  · rcases t? with _ | (_ | _ | _ | _) <;> rcases t'? with _ | (_ | _ | _ | _) <;>
      simp [declaredWord, ofDeclared]
  · intro same
    have rows := rows_ofDeclared t?
    rw [same, rows_ofDeclared] at rows
    simpa using rows.symm

end TypeNode

namespace Variable

open TypeNode (declaredWord ofDeclared)

def firstLine (v : Variable) : String :=
  "  " ++ Identifier.property v.name ++ ": " ++
    if v.nullable then "null" else declaredWord v.type?

/-- A nullable variable goes on on a line of its own. -/
def moreLines (v : Variable) : List String :=
  if v.nullable then ["  | " ++ declaredWord v.type?] else []

def lines (v : Variable) : List String := v.firstLine :: v.moreLines

theorem rows_written (v : Variable) :
    (Row.lead (Identifier.property v.name ++ ": ") (TypeNode.ofVariable v).rows).map
      (Row.written 1) = v.lines := by
  have indentation (text : String) : (⟨0, text⟩ : Row).written 1 = "  " ++ text := rfl
  by_cases nullable : v.nullable = true
  · have value : (TypeNode.ofVariable v).rows =
        [⟨0, "null"⟩, ⟨0, "| " ++ declaredWord v.type?⟩] := by
      simp [TypeNode.ofVariable, nullable, TypeNode.nullable, TypeNode.rows,
        TypeNode.rowsOfOthers, TypeNode.rows_ofDeclared, Row.lead]
    simp [value, Row.lead, indentation, lines, firstLine, moreLines, nullable,
      ← String.append_assoc]
  · have value : (TypeNode.ofVariable v).rows = [⟨0, declaredWord v.type?⟩] := by
      simp [TypeNode.ofVariable, nullable, TypeNode.rows_ofDeclared]
    simp [value, Row.lead, indentation, lines, firstLine, moreLines, nullable,
      ← String.append_assoc]

/-- The same name, nullable or not alike, and mapped to the same type. -/
structure Alike (v w : Variable) : Prop where
  name : v.name = w.name
  nullable : v.nullable = w.nullable
  type : ofDeclared v.type? = ofDeclared w.type?

theorem Alike.lines_eq {v w : Variable} (alike : Alike v w) : v.lines = w.lines := by
  have word := (TypeNode.declaredWord_eq_iff v.type? w.type?).mpr alike.type
  simp [lines, firstLine, moreLines, alike.name, alike.nullable, word]

theorem firstLine_inj {v w : Variable} (same : v.firstLine = w.firstLine) :
    v.name = w.name ∧ (if v.nullable then "null" else declaredWord v.type?) =
      if w.nullable then "null" else declaredWord w.type? := by
  rw [← String.toList_inj] at same
  simp only [firstLine, String.toList_append, List.append_assoc, List.append_cancel_left_eq]
    at same
  obtain ⟨name, value⟩ := Identifier.property_append_inj same
  exact ⟨name, String.toList_inj.mp (List.cons.inj value).2⟩

/-- The first line tells whether there is another one, so that is never taken for a variable. -/
theorem alike_of_lines {v w : Variable} {rest rest' : List String}
    (same : v.lines ++ rest = w.lines ++ rest') : Alike v w ∧ rest = rest' := by
  obtain ⟨first, (more : v.moreLines ++ rest = w.moreLines ++ rest')⟩ := List.cons.inj same
  obtain ⟨name, value⟩ := firstLine_inj first
  cases nullable : v.nullable <;> cases nullable' : w.nullable <;>
    simp only [nullable, nullable', moreLines, if_true, if_false, Bool.false_eq_true,
      List.nil_append, List.cons_append, List.cons.injEq, String.append_right_inj] at value more
  case false.false =>
    exact ⟨⟨name, by rw [nullable, nullable'], (TypeNode.declaredWord_eq_iff _ _).mp value⟩, more⟩
  case false.true => exact absurd value (TypeNode.declaredWord_ne_null _)
  case true.false => exact absurd value.symm (TypeNode.declaredWord_ne_null _)
  case true.true =>
    exact ⟨⟨name, by rw [nullable, nullable'], (TypeNode.declaredWord_eq_iff _ _).mp more.1⟩,
      more.2⟩

/-- No line of a variable is the one that closes the interface. -/
theorem firstLine_ne_brace (v : Variable) : v.firstLine ≠ "\x7d" := by
  simp [firstLine, ← String.toList_inj]

/-- Variable by variable; the closing line ends both lists at once. -/
theorem forall₂_alike_of_lines {vs ws : List Variable}
    (same : vs.flatMap lines ++ ["\x7d"] = ws.flatMap lines ++ ["\x7d"]) :
    List.Forall₂ Alike vs ws := by
  induction vs generalizing ws with
  | nil =>
    cases ws with
    | nil => exact .nil
    | cons w ws =>
      obtain ⟨brace, -⟩ := List.cons.inj same
      exact absurd brace.symm w.firstLine_ne_brace
  | cons v vs ih =>
    cases ws with
    | nil =>
      obtain ⟨brace, -⟩ := List.cons.inj same
      exact absurd brace v.firstLine_ne_brace
    | cons w ws =>
      simp only [List.flatMap_cons, List.append_assoc] at same
      obtain ⟨alike, rest⟩ := alike_of_lines same
      exact .cons alike (ih rest)

theorem flatMap_lines_eq {vs ws : List Variable} (alike : List.Forall₂ Alike vs ws) :
    vs.flatMap lines = ws.flatMap lines := by
  induction alike with
  | nil => rfl
  | cons first _ ih => rw [List.flatMap_cons, List.flatMap_cons, first.lines_eq, ih]

theorem length_flatMap_lines (vs : List Variable) :
    (vs.flatMap lines).length = vs.length + vs.countP (·.nullable) := by
  induction vs with
  | nil => rfl
  | cons v vs ih =>
    cases nullable : v.nullable <;>
      simp [lines, moreLines, nullable, ih] <;> omega

end Variable

namespace Document

theorem rowsOfFields_written (vs : List Variable) :
    (TypeNode.rowsOfFields (vs.map fun v => (v.name, TypeNode.ofVariable v))).map
      (Row.written 1) = vs.flatMap Variable.lines := by
  induction vs with
  | nil => rfl
  | cons v vs ih =>
    simp only [List.map_cons, TypeNode.rowsOfFields, List.map_append, List.flatMap_cons,
      v.rows_written, ih]

theorem lines_source (d : Document) (name : String) :
    Text.lines (d.interface name).source =
      ("interface " ++ Identifier.ofKey name ++ " \x7b") ::
        d.declared.flatMap Variable.lines ++ ["\x7d"] := by
  rw [Interface.lines_source, interface, rowsOfFields_written]
  rfl

/-- Two documents print the same interface exactly if the names make the same identifier and the
variables agree one by one: on the name, on whether they are nullable, and on the type that theirs
is mapped to. What a variable is called makes no further line. -/
theorem source_eq_iff_alike :
    (∀ (d d' : Document) (name name' : String),
      (d.interface name).source = (d'.interface name').source ↔
        Identifier.ofKey name = Identifier.ofKey name' ∧
        List.Forall₂ Variable.Alike d.declared d'.declared) ∧
    ∀ (d : Document) (name : String), (Text.lines (d.interface name).source).length =
      d.declared.length + d.declared.countP (·.nullable) + 2 := by
  refine ⟨fun d d' name name' => ⟨fun same => ?_, fun ⟨same, alike⟩ => ?_⟩, fun d name => ?_⟩
  · have lines := congrArg Text.lines same
    rw [lines_source, lines_source, List.cons_append, List.cons_append] at lines
    obtain ⟨header, body⟩ := List.cons.inj lines
    have identifiers : Identifier.ofKey name = Identifier.ofKey name' := by
      simpa only [String.append_left_inj, String.append_right_inj] using header
    exact ⟨identifiers, Variable.forall₂_alike_of_lines body⟩
  · apply Text.lines_injective
    rw [lines_source, lines_source, same, Variable.flatMap_lines_eq alike]
  · rw [lines_source, List.length_append, List.length_cons, Variable.length_flatMap_lines]
    rfl

end Document

end TypeCatalog
