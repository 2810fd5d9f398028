import TypeCatalog.Document.Reader
import TypeCatalog.Proofs.Except
import TypeCatalog.Proofs.Text.Position

/-! Where the label of a refused document stands. The refusal has a position that some bytes of the
text lead to, and the label is on the last of these bytes, or behind them where a line begins. -/
namespace TypeCatalog

open Text (bytes lineEnd Position)

theorem Json.Fault.offset_le (text : List Char) (f : Json.Fault) :
    f.offset text ≤ Text.byteCount text :=
  Nat.min_le_right ..

/-- What is refused while a text is read is refused at a fault in that text. -/
theorem Json.Reader.parse_eq_error {α : Type} {reader : Json.Reader α} {text : String}
    {e : Json.Error} (refused : reader.parse text = .error e) :
    ∃ f, e = .ofFault text.toList f := by
  simp only [parse] at refused
  split at refused
  · rename_i f _
    exact ⟨f, (Except.error.inj refused).symm⟩
  · split at refused
    · cases refused
    · exact ⟨_, (Except.error.inj refused).symm⟩

namespace Source

theorem document_eq_error {source : Source} {e : DocumentError}
    (refused : source.document = .error e) :
    ∃ f, e = source.documentError (.ofFault source.text.toList f) := by
  unfold document at refused
  cases parsed : Document.parse source.text with
  | ok d =>
    rw [parsed] at refused
    cases refused
  | error cause =>
    rw [parsed] at refused
    obtain ⟨f, rfl⟩ := Json.Reader.parse_eq_error parsed
    exact ⟨f, (Except.error.inj refused).symm⟩

/-- The byte before a position in a line is on that line too. -/
theorem count_lineEnd_label {bs : List UInt8} {i : Nat} (within : i ≤ bs.length) :
    (bs.take (if (Position.behind (bs.take i)).column = 0 then i else i - 1)).count lineEnd =
      (Position.behind (bs.take i)).line - 1 := by
  split
  · rfl
  · rename_i column
    have before := Position.count_lineEnd_before column
    rw [List.dropLast_eq_take, List.take_take, List.length_take, Nat.min_eq_left within,
      Nat.min_eq_left (Nat.sub_le i 1)] at before
    rw [before]
    rfl

/-- A refused document has one label, without length. The position of the refusal is that behind
the first bytes of the text, and whatever number of first bytes has that position, the label is
behind all of them if a line begins there, and before the last of them otherwise: it is in the text,
and on the line that the position names. A refusal that is shown in some other source has its label
inside of that source, whatever the position, and none without a position. -/
theorem label_in_reported_line :
    (∀ (source : Source) (e : DocumentError), source.document = .error e →
      ∃ p offset, e.cause.position? = some p ∧ e.diagnosis.labels? = some [⟨offset, 0⟩] ∧
        (∃ i ≤ (bytes source.text).length, p = .behind ((bytes source.text).take i)) ∧
        (∀ i ≤ (bytes source.text).length, p = .behind ((bytes source.text).take i) →
          offset = if p.column = 0 then i else i - 1) ∧
        offset ≤ (bytes source.text).length ∧
        ((bytes source.text).take offset).count lineEnd = p.line - 1) ∧
    ∀ (source : Source) (e : Json.Error), ∃ labels,
      (source.documentError e).diagnosis.labels? = some labels ∧
      labels.length = (if e.position?.isSome then 1 else 0) ∧
      ∀ label ∈ labels, label.length = 0 ∧ label.offset ≤ (bytes source.text).length := by
  have clamped (source : Source) (p : Position) :
      p.offset source.text.toList ≤ (bytes source.text).length := by
    rw [Text.length_bytes]
    exact p.offset_le _
  constructor
  · intro source e refused
    obtain ⟨f, rfl⟩ := document_eq_error refused
    let p := Position.after source.text.toList (f.offset source.text.toList)
    have every (i : Nat) (within : i ≤ (bytes source.text).length)
        (reached : p = .behind ((bytes source.text).take i)) :
        p.offset source.text.toList = if p.column = 0 then i else i - 1 := by
      rw [Text.length_bytes] at within
      rw [reached, ← Position.after_eq_behind]
      exact Position.offset_after within
    have within : f.offset source.text.toList ≤ (bytes source.text).length := by
      rw [Text.length_bytes]
      exact f.offset_le _
    have reached := Position.after_eq_behind source.text (f.offset source.text.toList)
    refine ⟨p, p.offset source.text.toList, rfl, rfl, ⟨_, within, reached⟩, every,
      clamped source p, ?_⟩
    rw [every _ within reached, show p = _ from reached]
    exact count_lineEnd_label within
  · rintro source ⟨cause, position?⟩
    cases position? with
    | none => exact ⟨[], rfl, rfl, nofun⟩
    | some p =>
      refine ⟨[⟨p.offset source.text.toList, 0⟩], rfl, rfl, fun label member => ?_⟩
      obtain rfl := List.mem_singleton.mp member
      exact ⟨rfl, clamped source p⟩

/-- The four bytes that should be the number of an escape end inside of a character. -/
theorem label_of_cut_character :
    let text := "\x7b\"variables\":\n [\x7b\"name\": \"\\u01€\"\x7d]\x7d"
    let source : Source := ⟨"document.json", text⟩
    ∃ e, source.document = .error e ∧ e.cause.position? = some ⟨2, 18⟩ ∧
      e.diagnosis.labels? = some [⟨31, 0⟩] ∧
      ((bytes text).take 31).count lineEnd = 1 := by
  intro text source
  obtain ⟨e, refused⟩ := exists_error_of_toOption
    (show source.document.toOption = none by decide +kernel)
  have position : (match source.document with
      | .error e => e.cause.position?
      | .ok _ => none) = some ⟨2, 18⟩ := by
    decide +kernel
  rw [refused] at position
  obtain ⟨p, offset, found, labels, -, every, -, line⟩ := label_in_reported_line.1 source e refused
  obtain rfl : p = ⟨2, 18⟩ := Option.some.inj (found.symm.trans position)
  obtain rfl : offset = 31 := every 32 (by decide +kernel) (by decide +kernel)
  exact ⟨e, refused, position, labels, line⟩

end Source

end TypeCatalog
