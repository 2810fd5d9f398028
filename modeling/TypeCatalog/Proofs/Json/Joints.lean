import Mathlib.Data.List.Basic
import TypeCatalog.Json.Skip
import TypeCatalog.Proofs.Json.Numbers

/-! Where reading stops and where it finds fault. Outside of strings all characters take one byte,
so a reader stops behind such a character, and its faults lie there too. Inside of a string there
are other faults: the text ends, a control character comes, or an escape has no digits. -/
namespace TypeCatalog.Json

open Text (byteCount hexDigit?)

/-- The rest of a text from its start or from a character of one byte on. -/
inductive Joint (text : List Char) : List Char → Prop where
  | start : Joint text text
  | behind {c : Char} {rest : List Char} : c.utf8Size = 1 → c :: rest <:+ text → Joint text rest

/-- The faults that there are in a text. Those at a joint lie there or one byte further on. -/
inductive Fault.In (text : List Char) : Fault → Prop where
  | joint {cause : Cause} {rest : List Char} {ahead : Nat} : Joint text rest → ahead ≤ 1 →
      cause ≠ .endInString → Fault.In text ⟨cause, rest, ahead⟩
  | ended : Fault.In text (.before .endInString [])
  | control {c : Char} {rest : List Char} {ahead : Nat} : c :: rest <:+ text → c.toNat < 0x20 →
      ahead ≤ 1 → Fault.In text ⟨.controlCharacter, c :: rest, ahead⟩
  | escape {rest : List Char} : '\\' :: 'u' :: rest <:+ text → 4 ≤ byteCount rest →
      Fault.In text ⟨.invalidEscape, rest, 4⟩

/-- What comes of reading in a text: a rest of it from a joint on, or a fault in it. -/
def Placed {α : Type} (text : List Char) (rest : α → List Char) : Except Fault α → Prop
  | .ok a => Joint text (rest a)
  | .error f => f.In text

namespace Placed

variable {α β : Type} {text : List Char} {rest : α → List Char} {result : Except Fault α}

theorem joint (placed : Placed text rest result) {a : α} (read : result = .ok a) :
    Joint text (rest a) := by
  rw [read] at placed
  exact placed

theorem fault (placed : Placed text rest result) {f : Fault} (refused : result = .error f) :
    f.In text := by
  rw [refused] at placed
  exact placed

theorem map (placed : Placed text rest result) {rest' : β → List Char} {f : α → β}
    (same : ∀ a, rest' (f a) = rest a) : Placed text rest' (result.map f) := by
  cases result with
  | error f => exact placed
  | ok a =>
    show Joint text (rest' (f a))
    rw [same]
    exact placed

end Placed

namespace Joint

variable {text s r : List Char}

theorem suffix (joint : Joint text s) : s <:+ text := by
  cases joint with
  | start => exact List.suffix_rfl
  | behind _ suffix => exact (List.suffix_cons _ s).trans suffix

theorem before (joint : Joint text r) {cause : Cause} (inside : cause ≠ .endInString) :
    (Fault.before cause r).In text :=
  .joint joint (Nat.zero_le 1) inside

theorem next (joint : Joint text r) {cause : Cause} (inside : cause ≠ .endInString) :
    (Fault.next cause r).In text :=
  .joint joint (Nat.le_refl 1) inside

/-- From a joint on, characters of one byte lead to joints only. -/
theorem across {passed : List Char} (narrow : ∀ c ∈ passed, c.utf8Size = 1)
    (joint : Joint text (passed ++ r)) : Joint text r := by
  rcases List.eq_nil_or_concat' passed with rfl | ⟨front, last, rfl⟩
  · exact joint
  · have one := narrow last (by simp)
    rw [List.append_assoc] at joint
    exact .behind one ((List.suffix_append front _).trans joint.suffix)

end Joint

theorem utf8Size_of_ascii {c : Char} (ascii : c.toNat < 0x80) : c.utf8Size = 1 := by
  rw [Char.utf8Size_eq_one_iff, UInt32.le_iff_toNat_le]
  exact Nat.le_of_lt_succ ascii

theorem utf8Size_of_isDigit {c : Char} (digit : c.isDigit = true) : c.utf8Size = 1 := by
  apply utf8Size_of_ascii
  have known : hexDigit? c = some (c.toNat - '0'.toNat) := by rw [hexDigit?, if_pos digit]
  exact ascii_of_hexDigit? known

namespace Grammar

variable {text s r : List Char}

theorem Blanks.joint (blanks : Blanks s r) (joint : Joint text s) : Joint text r := by
  obtain ⟨gap, blank, rfl⟩ := blanks
  apply Joint.across _ joint
  intro c member
  have known := blank c member
  simp only [List.mem_cons, List.not_mem_nil, or_false] at known
  rcases known with rfl | rfl | rfl | rfl <;> rfl

theorem Digits.joint (digits : Digits s r) (joint : Joint text s) : Joint text r := by
  obtain ⟨ds, -, all_digits, rfl⟩ := digits
  exact Joint.across (fun d member => utf8Size_of_isDigit (all_digits d member)) joint

theorem Hex.joint {n : Nat} (hex : Hex s n r) (suffix : s <:+ text) : Joint text r := by
  cases hex with
  | @intro a b c d w x y z _ _ _ _ last =>
    have one := utf8Size_of_ascii (ascii_of_hexDigit? (hexDigit?_eq_some_iff.mpr last))
    exact .behind one ((List.suffix_append [a, b, c] _).trans suffix)

end Grammar

section Marks

variable {text s : List Char}

theorem Joint.skipBlank (joint : Joint text s) : Joint text (skipBlank s) :=
  (Grammar.Blanks.skipped s).joint joint

theorem Joint.skipped {r : List Char} (joint : Joint text s) (skips : Json.skipBlank s = r) :
    Joint text r :=
  skips ▸ joint.skipBlank

/-- Behind a mark that blanks come before. -/
theorem Joint.behind_mark {mark : Char} {r : List Char} (joint : Joint text s)
    (skips : Json.skipBlank s = mark :: r) (narrow : mark.utf8Size = 1) : Joint text r :=
  .behind narrow (joint.skipped skips).suffix

theorem readLetters_placed {w : List Char} (narrow : w.all (·.utf8Size == 1) = true)
    (joint : Joint text s) : Placed text id (readLetters w s) := by
  induction w generalizing s with
  | nil => exact joint
  | cons letter w ih =>
    rw [List.all_cons, Bool.and_eq_true, beq_iff_eq] at narrow
    cases s with
    | nil => exact joint.before (by simp)
    | cons c r =>
      unfold readLetters
      split
      · rename_i same
        exact ih narrow.2 (.behind (same ▸ narrow.1) joint.suffix)
      · exact joint.next (by simp)

theorem readColon_placed (joint : Joint text s) : Placed text id (readColon s) := by
  unfold readColon
  split
  · rename_i skips
    exact joint.behind_mark skips rfl
  · rename_i skips
    exact (joint.skipped skips).next (by simp)
  · exact joint.skipBlank.next (by simp)

theorem closeList_placed (joint : Joint text s) : Placed text id (closeList s) := by
  unfold closeList
  split
  · rename_i skips
    exact joint.behind_mark skips rfl
  · rename_i skips
    have behind := joint.behind_mark skips rfl
    split
    · rename_i skips'
      exact (behind.skipped skips').next (by simp)
    · exact behind.skipBlank.next (by simp)
  · rename_i skips
    exact (joint.skipped skips).next (by simp)
  · exact joint.skipBlank.next (by simp)

theorem closeObject_placed (joint : Joint text s) : Placed text id (closeObject s) := by
  unfold closeObject
  split
  · rename_i skips
    exact joint.behind_mark skips rfl
  · rename_i skips
    exact (joint.skipped skips).next (by simp)
  · rename_i skips
    exact (joint.skipped skips).next (by simp)
  · exact joint.skipBlank.next (by simp)

theorem Joint.pastList (joint : Joint text s) : Joint text (pastList s) := by
  unfold Json.pastList
  split
  · rename_i skips
    exact joint.behind_mark skips rfl
  · rename_i skips
    exact (joint.behind_mark skips rfl).skipBlank
  · exact joint.skipBlank

theorem Joint.pastObject (joint : Joint text s) : Joint text (pastObject s) := by
  unfold Json.pastObject
  split
  · rename_i skips
    exact joint.behind_mark skips rfl
  · exact joint.skipBlank

end Marks

section Strings

variable {text s : List Char}

theorem readHex_placed (suffix : '\\' :: 'u' :: s <:+ text) : Placed text Prod.snd (readHex s) := by
  have digits : s <:+ text := (List.suffix_append ['\\', 'u'] s).trans suffix
  cases reads : readHex s with
  | ok p => exact (readHex_eq_ok_iff.mp reads).joint digits
  | error f =>
    have fault : f = readHex.fault s := by
      unfold readHex at reads
      split at reads
      · split at reads
        · cases reads
        · exact (Except.error.inj reads).symm
      · exact (Except.error.inj reads).symm
    rw [fault, readHex.fault]
    split
    · exact .ended
    · rename_i enough
      exact .escape suffix (Nat.le_of_not_lt enough)

theorem readTrailing_placed {n : Nat} (joint : Joint text s) :
    Placed text Prod.snd (readTrailing n s) := by
  unfold readTrailing
  split
  · exact .ended
  · exact .ended
  · have placed := readHex_placed joint.suffix
    split
    · rename_i refused
      exact placed.fault refused
    · rename_i read
      split
      · exact placed.joint read
      · exact (placed.joint read).before (by simp)
  · exact Joint.next (.behind rfl joint.suffix) (by simp)
  · exact joint.next (by simp)

theorem utf8Size_of_escaped? {l c : Char} (known : escaped? l = some c) : l.utf8Size = 1 := by
  have table : ∀ p ∈ Grammar.letters, p.1.utf8Size = 1 := by decide
  exact table (l, c) (escaped?_eq_some_iff.mp known)

theorem readEscape_placed (suffix : '\\' :: s <:+ text) :
    Placed text Prod.snd (readEscape s) := by
  have joint : Joint text s := .behind rfl suffix
  unfold readEscape
  split
  · exact .ended
  · have placed := readHex_placed suffix
    split
    · rename_i refused
      exact placed.fault refused
    · rename_i read
      have behind := placed.joint read
      split
      · exact behind.before (by simp)
      · split
        · exact readTrailing_placed behind
        · exact behind
  · split
    · rename_i known
      exact .behind (utf8Size_of_escaped? known) joint.suffix
    · exact joint.next (by simp)

theorem skipEscape_placed (suffix : '\\' :: s <:+ text) : Placed text id (skipEscape s) := by
  have joint : Joint text s := .behind rfl suffix
  unfold skipEscape
  split
  · exact .ended
  · exact (readHex_placed suffix).map fun _ => rfl
  · split
    · rename_i known
      obtain ⟨c, known⟩ := Option.isSome_iff_exists.mp known
      exact .behind (utf8Size_of_escaped? known) joint.suffix
    · exact joint.next (by simp)

/-- Inside of a string any character may come before. -/
theorem readString_placed (suffix : s <:+ text) : Placed text Prod.snd (readString s) := by
  fun_induction readString s with
  | case1 => exact .ended
  | case2 r => exact .behind rfl suffix
  | case3 r f escape => exact (readEscape_placed suffix).fault escape
  | case4 r c t escape ih =>
    have behind := (readEscape_placed suffix).joint escape
    exact (ih behind.suffix).map fun _ => rfl
  | case5 c r _ _ control => exact .control suffix control (Nat.le_refl 1)
  | case6 c r _ _ printable ih => exact (ih ((List.suffix_cons c r).trans suffix)).map fun _ => rfl

theorem skipString_placed (suffix : s <:+ text) : Placed text id (skipString s) := by
  fun_induction skipString s with
  | case1 => exact .ended
  | case2 r => exact .behind rfl suffix
  | case3 r f escape => exact (skipEscape_placed suffix).fault escape
  | case4 r t escape ih =>
    have behind := (skipEscape_placed suffix).joint escape
    exact ih behind.suffix
  | case5 c r _ _ control => exact .control suffix control (Nat.zero_le 1)
  | case6 c r _ _ printable ih => exact ih ((List.suffix_cons c r).trans suffix)

end Strings

section Numbers

variable {text s : List Char} {cause : Cause}

theorem scanWhole_placed (joint : Joint text s) (inside : cause ≠ .endInString) :
    Placed text Prod.snd (scanWhole cause s) := by
  unfold scanWhole
  split
  · exact joint.before inside
  · split
    · rename_i r zero
      have behind : Joint text r := .behind (zero ▸ rfl) joint.suffix
      split
      · exact behind.next (by simp)
      · exact behind
    · split
      · rename_i digit
        exact (Grammar.digits_dropWhile digit _).joint joint
      · exact joint.next (by simp)

theorem scanFraction_placed (joint : Joint text s) (inside : cause ≠ .endInString) :
    Placed text Prod.snd (scanFraction cause s) := by
  unfold scanFraction
  split
  · rename_i r
    have behind : Joint text r := .behind rfl joint.suffix
    split
    · exact behind.before inside
    · split
      · rename_i digit
        exact (Grammar.digits_dropWhile digit _).joint behind
      · exact behind.next (by simp)
  · exact joint

theorem Joint.dropSign (joint : Joint text s) : Joint text (dropSign s).2 := by
  unfold Json.dropSign
  split
  · exact .behind rfl joint.suffix
  · exact .behind rfl joint.suffix
  · exact joint

theorem scanExponent_placed (joint : Joint text s) (inside : cause ≠ .endInString) :
    Placed text Prod.snd (scanExponent cause s) := by
  unfold scanExponent
  split
  · exact joint
  · rename_i e r
    split
    · rename_i mark
      have narrow : e.utf8Size = 1 := by rcases mark with rfl | rfl <;> rfl
      have behind := (Joint.behind narrow joint.suffix).dropSign
      split
      · rename_i signed
        rw [signed] at behind
        exact behind.before inside
      · rename_i signed
        rw [signed] at behind
        split
        · rename_i digit
          exact (Grammar.digits_dropWhile digit _).joint behind
        · exact behind.next (by simp)
    · exact joint

theorem scanNumeral_placed (joint : Joint text s) (inside : cause ≠ .endInString) :
    Placed text Prod.snd (scanNumeral cause s) := by
  have whole := scanWhole_placed joint inside
  simp only [scanNumeral, bind, Except.bind, pure, Except.pure]
  split
  · rename_i refused
    exact whole.fault refused
  · rename_i read
    have fraction := scanFraction_placed (whole.joint read) inside
    split
    · rename_i refused
      exact fraction.fault refused
    · rename_i read
      have exponent := scanExponent_placed (fraction.joint read) inside
      split
      · rename_i refused
        exact exponent.fault refused
      · rename_i read
        exact exponent.joint read

end Numbers

end TypeCatalog.Json
