import TypeCatalog.Proofs.Document.Labels
import TypeCatalog.Proofs.Json.Faults
import TypeCatalog.Proofs.Text.Boundary

/-! Labels inside of characters. A label is one byte before the place of the refusal, and where the
text before that place is markup a character of one byte stands there. Inside of a string another
character may stand there, and then the text cannot be cut at the label. -/
namespace TypeCatalog

open Json (Reader Contents Fault Joint)
open Text (Boundary byteCount Position)

namespace Variable

theorem typeReader_places : typeReader.Places :=
  (Reader.string_places.map DeclaredType.ofToken).orNull

theorem Seen.choose_places (seen : Seen) (key : String) (value : Reader Seen)
    (chosen : seen.choose key = .ok value) : value.Places := by
  unfold choose at chosen
  split at chosen
  · split at chosen
    · cases chosen
    · cases chosen
      exact Reader.string_places.map _
  · split at chosen
    · split at chosen
      · cases chosen
      · cases chosen
        exact typeReader_places.map _
    · split at chosen
      · split at chosen
        · cases chosen
        · cases chosen
          exact Reader.boolean_places.map _
      · cases chosen

theorem fields_places : fields.Places := by
  intro text s joint
  have name := Reader.string_places.item? true joint
  simp only [fields]
  split
  · rename_i refused
    exact name.fault refused
  · rename_i ended
    exact (name.joint ended).pastList.before (by simp)
  · rename_i read
    have type := typeReader_places.item? false (name.joint read)
    split
    · rename_i refused
      exact type.fault refused
    · rename_i read
      have nullable := Reader.boolean_places.item? false (type.joint read)
      split
      · rename_i refused
        exact nullable.fault refused
      · rename_i read
        exact nullable.joint read

theorem reader_places : reader.Places :=
  Reader.record_places _ (Contents.members_places Seen.choose_places _ _) fields_places

end Variable

namespace Document

theorem variablesReader_places : variablesReader.Places :=
  Reader.list_places _ (Contents.items_places Variable.reader_places)

theorem choose_places (seen : Option (List Variable)) (key : String)
    (value : Reader (Option (List Variable))) (chosen : choose seen key = .ok value) :
    value.Places := by
  unfold choose at chosen
  split at chosen
  · split at chosen
    · cases chosen
    · cases chosen
      exact variablesReader_places.map _
  · cases chosen
    exact Reader.ignored_places.map _

theorem reader_places : reader.Places :=
  Reader.record_places _ (Contents.members_places choose_places _ _)
    ((Contents.upToOne_places variablesReader_places).map _)

end Document

/-- The ways in which the label of a refusal comes to stand inside of a character. The text ends in
the character and inside of a string, or a control character comes next in a string, or the fourth
byte of an escape is not the first one of a character. -/
inductive Splits (text : List Char) (offset : Nat) : Json.Cause → Prop where
  | ended {front : List Char} {c : Char} : text = front ++ [c] → 1 < c.utf8Size →
      Splits text offset .endInString
  | control {front rest : List Char} {c mark : Char} : text = front ++ c :: mark :: rest →
      1 < c.utf8Size → mark.toNat < 0x20 → offset + 1 = byteCount (front ++ [c]) →
        Splits text offset .controlCharacter
  | escape {front rest : List Char} : text = front ++ '\\' :: 'u' :: rest → 4 ≤ byteCount rest →
      ¬Boundary rest 3 → offset = byteCount front + 5 → Splits text offset .invalidEscape

theorem boundary_in_escape_iff (front rest : List Char) :
    Boundary (front ++ '\\' :: 'u' :: rest) (byteCount front + 5) ↔ Boundary rest 3 := by
  have behind : Boundary (front ++ ['\\', 'u'] ++ rest) (byteCount (front ++ ['\\', 'u']) + 3) ↔
      Boundary rest 3 := Text.boundary_append_iff _
  rw [List.append_assoc, Text.byteCount_append] at behind
  exact behind

theorem Splits.not_boundary {text : List Char} {offset : Nat} {cause : Json.Cause}
    (splits : Splits text offset cause) (other : cause ≠ .endInString) : ¬Boundary text offset := by
  cases splits with
  | ended => exact absurd rfl other
  | control whole wide _ place =>
    subst whole
    rw [Text.byteCount_append, Text.byteCount_cons, Text.byteCount_nil] at place
    exact Text.not_boundary_inside (by omega) (by omega)
  | escape whole _ inside place =>
    subst whole place
    exact mt (boundary_in_escape_iff _ _).mp inside

namespace Json

variable {text front rest : List Char} {cause : Cause} {ahead : Nat} {f : Fault}

theorem offset_of_front (whole : text = front ++ rest) (cause : Cause) (ahead : Nat) :
    Fault.offset text ⟨cause, rest, ahead⟩ = byteCount front + min ahead (byteCount rest) := by
  subst whole
  simp only [Fault.offset, Text.byteCount_append]
  omega

theorem Joint.boundary (joint : Joint text rest) (near : ahead ≤ 1) (cause : Cause) :
    Boundary text (Fault.offset text ⟨cause, rest, ahead⟩ - 1) := by
  cases joint with
  | start =>
    rw [offset_of_front (List.nil_append text).symm, Text.byteCount_nil]
    have first : 0 + min ahead (byteCount text) - 1 = 0 := by omega
    rw [first]
    exact Text.boundary_zero text
  | @behind c _ narrow suffix =>
    obtain ⟨front, rfl⟩ := suffix
    rw [offset_of_front (List.append_cons front c rest), Text.byteCount_append,
      Text.byteCount_cons, Text.byteCount_nil, narrow]
    have here_or_next : min ahead (byteCount rest) = 0 ∨ min ahead (byteCount rest) = 1 := by omega
    rcases here_or_next with here | next
    · rw [here]
      exact Text.boundary_front front _
    · rw [next]
      have behind := Text.boundary_front (front ++ [c]) rest
      rwa [List.append_assoc, Text.byteCount_append, Text.byteCount_cons, narrow] at behind

/-- In front of a control character any character may stand. -/
theorem control_boundary_or {mark : Char} (suffix : mark :: rest <:+ text)
    (control : mark.toNat < 0x20) (near : ahead ≤ 1) (cause : Cause) :
    let place := Fault.offset text ⟨cause, mark :: rest, ahead⟩
    Boundary text (place - 1) ∨ ∃ front c, text = front ++ c :: mark :: rest ∧ 1 < c.utf8Size ∧
      place = byteCount (front ++ [c]) := by
  obtain ⟨front, whole⟩ := suffix
  intro place
  have found : place = byteCount front + ahead := by
    have here := offset_of_front whole.symm cause ahead
    have narrow : mark.utf8Size = 1 := utf8Size_of_ascii (by omega)
    rw [Text.byteCount_cons, narrow] at here
    omega
  have behind_or_before : ahead = 1 ∨ ahead = 0 := by omega
  rw [found, ← whole]
  rcases behind_or_before with rfl | rfl
  · exact .inl (Text.boundary_front front _)
  · rcases List.eq_nil_or_concat' front with rfl | ⟨others, last, rfl⟩
    · exact .inl (Text.boundary_zero _)
    · by_cases wide : 1 < last.utf8Size
      · exact .inr ⟨others, last, by simp, wide, rfl⟩
      · have size := last.utf8Size_pos
        left
        rw [List.append_assoc]
        exact Text.boundary_last_byte_iff.mpr (by omega)

/-- Where a text ends in a string, its last character has been read and no more. -/
theorem not_boundary_ended_iff (text : List Char) :
    ¬Boundary text (Fault.offset text (.before .endInString []) - 1) ↔
      ∃ front c, text = front ++ [c] ∧ 1 < c.utf8Size := by
  have place : Fault.offset text (.before .endInString []) = byteCount text := by
    have here := offset_of_front (List.append_nil text).symm .endInString 0
    rwa [Nat.zero_min, Nat.add_zero] at here
  rw [place]
  rcases List.eq_nil_or_concat' text with rfl | ⟨front, last, rfl⟩
  · simp [Text.boundary_zero]
  · have size := last.utf8Size_pos
    rw [Text.boundary_last_byte_iff]
    constructor
    · intro wide
      exact ⟨front, last, rfl, by omega⟩
    · rintro ⟨others, c, same, wide⟩
      obtain ⟨-, last⟩ := List.append_inj' same rfl
      obtain rfl := List.head_eq_of_cons_eq last
      omega

namespace Fault

def label (text : List Char) (f : Fault) : Nat :=
  (Position.after text (f.offset text)).offset text

theorem In.splits_of_label (inText : f.In text) (inside : ¬Boundary text (f.label text)) :
    Splits text (f.label text) f.cause := by
  obtain ⟨place, before⟩ := Position.offset_of_not_boundary (f.offset_le text) inside
  cases inText with
  | joint joint near _ => exact absurd (joint.boundary near _) before
  | ended =>
    obtain ⟨front, c, whole, wide⟩ := (not_boundary_ended_iff text).mp before
    exact .ended whole wide
  | control suffix control near =>
    rcases control_boundary_or suffix control near .controlCharacter with begins | found
    · exact absurd begins before
    · obtain ⟨front, c, whole, wide, behind⟩ := found
      exact .control whole wide control (place.trans behind)
  | @escape rest suffix enough =>
    obtain ⟨front, whole⟩ := suffix
    -- The fault lies behind the four bytes, and the label in front of the last of them.
    have behind : text = front ++ ['\\', 'u'] ++ rest := by simp [← whole]
    have digits := offset_of_front behind .invalidEscape 4
    rw [Nat.min_eq_left enough, Text.byteCount_append] at digits
    have fourth : label text ⟨.invalidEscape, rest, 4⟩ = byteCount front + 5 :=
      Nat.succ.inj (place.trans digits)
    subst whole
    rw [fourth] at inside ⊢
    exact .escape rfl enough (mt (boundary_in_escape_iff front rest).mpr inside) rfl

theorem In.label_of_splits (inText : f.In text) (splits : Splits text (f.label text) f.cause) :
    ¬Boundary text (f.label text) := by
  cases inText with
  | joint _ _ other => exact splits.not_boundary other
  | ended =>
    cases splits with
    | ended whole wide =>
      have last := (not_boundary_ended_iff text).mpr ⟨_, _, whole, wide⟩
      exact mt (Position.boundary_offset_iff (offset_le text _)).mp last
  | control => exact splits.not_boundary (by simp)
  | escape => exact splits.not_boundary (by simp)

end Fault

end Json

namespace Source

def labels? (source : Source) : Option (List Label) :=
  match source.document with
  | .error e => e.diagnosis.labels?
  | .ok _ => none

theorem exists_error_of_labels? {source : Source} {labels : List Label}
    (shown : source.labels? = some labels) :
    ∃ e, source.document = .error e ∧ e.diagnosis.labels? = some labels := by
  unfold labels? at shown
  cases outcome : source.document with
  | ok d =>
    rw [outcome] at shown
    cases shown
  | error e =>
    rw [outcome] at shown
    exact ⟨e, rfl, shown⟩

/-- A refused document has one label, and the text can be cut there unless the label is inside of a
character. That happens exactly if the text ends in a string with a character of several bytes, if
such a character stands in a string in front of a control character that is labelled before it, or
if the last of the four bytes that should be digits of an escape does not begin a character. -/
theorem label_in_character_iff {source : Source} {e : DocumentError}
    (refused : source.document = .error e) :
    ∃ offset, e.diagnosis.labels? = some [⟨offset, 0⟩] ∧
      (¬(⟨offset⟩ : String.Pos.Raw).IsValid source.text ↔
        Splits source.text.toList offset e.cause.cause) := by
  unfold document at refused
  cases parsed : Document.parse source.text with
  | ok d =>
    rw [parsed] at refused
    cases refused
  | error cause =>
    rw [parsed] at refused
    obtain ⟨f, rfl, inText⟩ := Document.reader_places.parse_eq_error parsed
    cases refused
    refine ⟨f.label source.text.toList, rfl, ?_⟩
    rw [Text.isValid_iff_boundary]
    exact ⟨inText.splits_of_label, inText.label_of_splits⟩

/-- The character in front of a control character takes two bytes. The string is the value of a
member that does not matter, so the label comes before the control character. -/
theorem label_in_character_before_control :
    let source : Source := ⟨"document.json", "\x7b\"é\":\"é\x01\"\x7d"⟩
    ∃ e, source.document = .error e ∧ e.diagnosis.labels? = some [⟨8, 0⟩] ∧
      ¬(⟨8⟩ : String.Pos.Raw).IsValid source.text ∧
        Splits source.text.toList 8 e.cause.cause := by
  intro source
  obtain ⟨e, refused, shown⟩ := exists_error_of_labels?
    (show source.labels? = some [⟨8, 0⟩] by decide +kernel)
  obtain ⟨offset, labels, inside⟩ := label_in_character_iff refused
  obtain rfl : offset = 8 := by simpa using labels.symm.trans shown
  have uncut : ¬(⟨8⟩ : String.Pos.Raw).IsValid source.text := by decide +kernel
  exact ⟨e, refused, shown, uncut, inside.mp uncut⟩

/-- A text that ends in a string with a character of two bytes: the label is between them. -/
theorem label_in_last_character :
    let source : Source := ⟨"document.json", "\x7b\"é"⟩
    (∃ e, source.document = .error e ∧ e.diagnosis.labels? = some [⟨3, 0⟩]) ∧
      ¬(⟨3⟩ : String.Pos.Raw).IsValid source.text := by
  intro source
  constructor
  · apply exists_error_of_labels?
    decide +kernel
  · decide +kernel

end Source

end TypeCatalog
