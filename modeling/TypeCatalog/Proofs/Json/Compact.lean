import Mathlib.Data.List.Forall2
import TypeCatalog.Proofs.Json.Containers
import TypeCatalog.Proofs.Json.Strings

/-! Values without white space are JSON. What is known of the parts of a value is put together
along the printer, so that the phrase of a whole value is made of the phrases of its parts. -/
namespace TypeCatalog.Json

open Grammar
open Text (encode encodeChar shortEscape? hexDigit)

/-- What is written for a character: its own escape or itself, or else its number. -/
def pieceOf (c : Char) : Piece :=
  if shortEscape? c = none ∧ c.toNat < 0x20 then .unit c.toNat else .char c

def piecesOf (s : String) : List Piece := s.toList.map pieceOf

theorem denotes_piecesOf (s : String) : Denotes (piecesOf s) s.toList := by
  rw [piecesOf]
  induction s.toList with
  | nil => exact .nil
  | cons c cs ih =>
    rw [List.map_cons, pieceOf]
    split
    · rename_i control
      have unit : Denotes (.unit c.toNat :: cs.map pieceOf) (Char.ofNat c.toNat :: cs) :=
        .unit (by omega) ih
      rwa [Char.ofNat_toNat] at unit
    · exact .char ih

theorem letter_of_shortEscape? {c letter : Char} (short : shortEscape? c = some letter) :
    (letter, c) ∈ letters :=
  escaped?_eq_some_iff.mp (escaped?_of_shortEscape? short).1

theorem hexDigit_hexDigit {n : Nat} (small : n < 16) : HexDigit (hexDigit n) n :=
  hexDigit?_eq_some_iff.mp (Text.hexDigit?_hexDigit small)

theorem pieces_encodeChar {c : Char} {s r : List Char} {pieces : List Piece}
    (rest : Pieces s pieces r) : Pieces (encodeChar c ++ s) (pieceOf c :: pieces) r := by
  unfold encodeChar pieceOf
  cases short : shortEscape? c with
  | some letter => simpa using .letter (letter_of_shortEscape? short) rest
  | none =>
    by_cases control : c.toNat < 0x20
    · have high := hexDigit_hexDigit (show c.toNat / 16 < 16 by omega)
      have low := hexDigit_hexDigit (show c.toNat % 16 < 16 by omega)
      have hex := Hex.intro (r := s) (show HexDigit '0' 0 by decide) (show HexDigit '0' 0 by decide)
        high low
      have value : 4096 * 0 + 256 * 0 + 16 * (c.toNat / 16) + c.toNat % 16 = c.toNat := by omega
      rw [value] at hex
      simpa [control] using Pieces.unit hex rest
    · obtain ⟨quote, backslash⟩ := ne_of_shortEscape?_eq_none short
      simpa [control] using Pieces.plain quote backslash (by omega) rest

theorem pieces_encode (s r : List Char) : Pieces (encode s ++ r) (s.map pieceOf) r := by
  induction s with
  | nil => exact .nil
  | cons c s ih =>
    rw [Text.encode_cons, List.append_assoc]
    exact pieces_encodeChar ih

def spelt (named : List (String × Phrase)) : List (List Piece × Phrase) :=
  named.map fun n => (piecesOf n.1, n.2)

theorem named_spelt (named : List (String × Phrase)) : Named (spelt named) named := by
  rw [spelt, Named, List.forall₂_map_left_iff]
  exact List.forall₂_same.mpr fun n _ => ⟨denotes_piecesOf n.1, rfl⟩

/-- In front of any other text, the value is written as this phrase. -/
def Value.Reads (v : Value) (p : Phrase) : Prop := ∀ r, Begins (v.compact ++ r) p r

namespace Value

theorem reads_string (s : String) : (string s).Reads (.string (piecesOf s)) := by
  intro r
  have written : (string s).compact ++ r = '"' :: (encode s.toList ++ '"' :: r) := by
    simp [compact, quoted]
  rw [written]
  exact .string (pieces_encode s.toList _)

theorem reads_boolean (b : Bool) : (boolean b).Reads (.boolean b) := by
  intro r
  cases b with
  | true => exact .isTrue
  | false => exact .isFalse

theorem items_compactItems {vs : List Value} {ps : List Phrase} (each : List.Forall₂ Reads vs ps)
    (r : List Char) : Items false (compactItems vs ++ r) ps r := by
  induction each with
  | nil => exact .done (.refl _)
  | @cons v p vs ps reads _ ih =>
    rw [compactItems, List.cons_append, List.cons_append, List.append_assoc]
    exact .item ⟨_, .refl _, .refl _⟩ (reads _) ih

theorem reads_list {vs : List Value} {ps : List Phrase} (each : List.Forall₂ Reads vs ps) :
    (list vs).Reads (.list ps) := by
  intro r
  cases each with
  | nil => exact .list (.done (.refl _))
  | @cons v p vs ps reads others =>
    rw [compact, List.cons_append, List.cons_append, List.append_assoc]
    exact .list (.item (.refl _) (reads _) (items_compactItems others r))

abbrev ReadsMembers (ms : List (String × Value)) (named : List (String × Phrase)) : Prop :=
  List.Forall₂ (fun m n => m.1 = n.1 ∧ m.2.Reads n.2) ms named

/-- One member, behind what separates it from those before. -/
theorem members_member {first : Bool} {s r : List Char} {key : String} {v : Value} {p : Phrase}
    {members : List (List Piece × Phrase)} {rest : List Char}
    (gap : Gap first s (quoted key ++ ':' :: (v.compact ++ rest))) (reads : v.Reads p)
    (others : Members false rest members r) : Members first s ((piecesOf key, p) :: members) r := by
  have written : quoted key ++ ':' :: (v.compact ++ rest) =
      '"' :: (encode key.toList ++ '"' :: ':' :: (v.compact ++ rest)) := by
    simp [quoted]
  rw [written] at gap
  exact .member gap (pieces_encode key.toList _) (.refl _) (.refl _) (reads _) others

theorem members_compactMembers {ms : List (String × Value)} {named : List (String × Phrase)}
    (each : ReadsMembers ms named) (r : List Char) :
    Members false (compactMembers ms ++ r) (spelt named) r := by
  induction each with
  | nil => exact .done (.refl _)
  | @cons m n ms named reads _ ih =>
    obtain ⟨key, v⟩ := m
    obtain ⟨rfl, reads⟩ := reads
    have written : compactMembers ((n.1, v) :: ms) ++ r =
        ',' :: (quoted n.1 ++ ':' :: (v.compact ++ (compactMembers ms ++ r))) := by
      simp [compactMembers]
    rw [written]
    exact members_member ⟨_, .refl _, .refl _⟩ reads ih

theorem reads_object {ms : List (String × Value)} {named : List (String × Phrase)}
    (each : ReadsMembers ms named) : (object ms).Reads (.object (spelt named)) := by
  intro r
  cases each with
  | nil => exact .object (.done (.refl _))
  | @cons m n ms named reads others =>
    obtain ⟨key, v⟩ := m
    obtain ⟨rfl, reads⟩ := reads
    have written : (object ((n.1, v) :: ms)).compact ++ r =
        '\x7b' :: (quoted n.1 ++ ':' :: (v.compact ++ (compactMembers ms ++ r))) := by
      simp [compact]
    rw [written]
    exact .object (members_member (.refl _) reads (members_compactMembers others r))

theorem Reads.isText {v : Value} {p : Phrase} (reads : v.Reads p) :
    IsText v.toCompact.toList p := by
  have begins := reads []
  rw [List.append_nil] at begins
  exact ⟨_, _, .refl _, by simpa [toCompact] using begins, .refl _⟩

end Value

end TypeCatalog.Json
