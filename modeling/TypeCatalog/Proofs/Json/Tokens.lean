import Mathlib.Data.List.TakeWhile
import TypeCatalog.Json.Skip
import TypeCatalog.Proofs.Json.Grammar
import TypeCatalog.Proofs.Json.Strings

/-! The parts of a JSON text that hold no other phrase: white space, marks, words and strings. Each
reader of such a part takes exactly what the grammar puts there. -/
namespace TypeCatalog.Json

open Grammar
open Text (hexDigit?)

theorem map_eq_ok_iff {ε α β : Type} {x : Except ε α} {f : α → β} {b : β} :
    x.map f = .ok b ↔ ∃ a, x = .ok a ∧ f a = b := by
  cases x <;> simp [Except.map]

theorem isBlank_iff {c : Char} : isBlank c = true ↔ c ∈ [' ', '\t', '\n', '\r'] := by
  simp [isBlank, or_assoc, or_left_comm]

namespace Grammar.Blanks

variable {s t r : List Char}

theorem refl (s : List Char) : Blanks s s := ⟨[], nofun, rfl⟩

theorem trans (first : Blanks s t) (second : Blanks t r) : Blanks s r := by
  obtain ⟨gap, blank, rfl⟩ := first
  obtain ⟨gap', blank', rfl⟩ := second
  refine ⟨gap ++ gap', fun c member => ?_, (List.append_assoc ..).symm⟩
  rcases List.mem_append.mp member with member | member
  · exact blank c member
  · exact blank' c member

theorem skipped (s : List Char) : Blanks s (skipBlank s) :=
  ⟨s.takeWhile isBlank, fun _ member => isBlank_iff.mp (List.mem_takeWhile_imp member),
    List.takeWhile_append_dropWhile.symm⟩

theorem skipBlank_eq (blanks : Blanks s r) : skipBlank s = skipBlank r := by
  obtain ⟨gap, blank, rfl⟩ := blanks
  exact skipBlank_append (fun c member => isBlank_iff.mpr (blank c member)) r

end Grammar.Blanks

theorem Grammar.Gap.trans {first : Bool} {s t r : List Char} (gap : Gap first s t)
    (blanks : Blanks t r) : Gap first s r := by
  cases first with
  | true => exact Blanks.trans gap blanks
  | false =>
    obtain ⟨u, comma, before⟩ := gap
    exact ⟨u, comma, before.trans blanks⟩

/-- White space ends at a character that is none. -/
theorem skipBlank_eq_cons_iff {s r : List Char} {c : Char} (solid : isBlank c = false) :
    skipBlank s = c :: r ↔ Blanks s (c :: r) := by
  constructor
  · intro skips
    exact skips ▸ Blanks.skipped s
  · intro blanks
    rw [blanks.skipBlank_eq, skipBlank_cons_of_not r solid]

theorem skipBlank_eq_nil_iff {s : List Char} : skipBlank s = [] ↔ Blanks s [] := by
  constructor
  · intro skips
    exact skips ▸ Blanks.skipped s
  · intro blanks
    rw [blanks.skipBlank_eq]
    rfl

theorem readLetters_eq_ok_iff {w s r : List Char} : readLetters w s = .ok r ↔ s = w ++ r := by
  induction w generalizing s with
  | nil => simp [readLetters]
  | cons w ws ih =>
    cases s with
    | nil => simp [readLetters]
    | cons c t =>
      by_cases same : c = w
      · simp [readLetters, same, ih]
      · simp [readLetters, same]

theorem readColon_eq_ok_iff {s r : List Char} : readColon s = .ok r ↔ Blanks s (':' :: r) := by
  rw [← skipBlank_eq_cons_iff rfl, readColon]
  split <;> simp_all

theorem closeList_eq_ok_iff {s r : List Char} : closeList s = .ok r ↔ Blanks s (']' :: r) := by
  rw [← skipBlank_eq_cons_iff rfl, closeList]
  split
  · simp_all
  · split <;> simp_all
  · simp_all
  · simp_all

theorem closeObject_eq_ok_iff {s r : List Char} :
    closeObject s = .ok r ↔ Blanks s ('\x7d' :: r) := by
  rw [← skipBlank_eq_cons_iff rfl, closeObject]
  split <;> simp_all

theorem ascii_of_hexDigit? {c : Char} {n : Nat} (digit : hexDigit? c = some n) :
    c.toNat < 0x80 := by
  unfold hexDigit? at digit
  simp only [Char.isDigit, Char.le_def, UInt32.le_iff_toNat_le] at digit
  have within : ∀ last : Char, last.toNat < 0x80 → c.val.toNat ≤ last.val.toNat → c.toNat < 0x80 :=
    fun last ascii below => Nat.lt_of_le_of_lt below ascii
  split at digit
  · rename_i decimal
    simp only [Bool.and_eq_true, decide_eq_true_eq] at decimal
    exact within '9' (by decide) decimal.2
  · split at digit
    · rename_i lower
      exact within 'f' (by decide) lower.2
    · split at digit
      · rename_i upper
        exact within 'F' (by decide) upper.2
      · cases digit

theorem hexDigit?_eq_some_iff {c : Char} {n : Nat} : hexDigit? c = some n ↔ HexDigit c n := by
  constructor
  · intro digit
    have table : ∀ k : Fin 0x80,
        (hexDigit? (Char.ofNat k)).all (HexDigit (Char.ofNat k) ·) = true := by decide
    have listed := table ⟨c.toNat, ascii_of_hexDigit? digit⟩
    simpa [digit] using listed
  · have table : ∀ p ∈ "0123456789abcdef".toList.zipIdx ++ "0123456789ABCDEF".toList.zipIdx,
        hexDigit? p.1 = some p.2 := by decide
    exact table (c, n)

theorem escaped?_eq_some_iff {l c : Char} : escaped? l = some c ↔ (l, c) ∈ letters := by
  constructor
  · intro known
    unfold escaped? at known
    split at known <;> cases known <;> decide
  · have table : ∀ p ∈ letters, escaped? p.1 = some p.2 := by decide
    exact table (l, c)

theorem ne_u_of_escaped? {l c : Char} (known : escaped? l = some c) : l ≠ 'u' := by
  rintro rfl
  cases known

theorem readHex_eq_ok_iff {s r : List Char} {n : Nat} : readHex s = .ok (n, r) ↔ Hex s n r := by
  constructor
  · intro reads
    unfold readHex at reads
    split at reads
    · split at reads
      · rename_i a b c d
        cases reads
        exact .intro (hexDigit?_eq_some_iff.mp a) (hexDigit?_eq_some_iff.mp b)
          (hexDigit?_eq_some_iff.mp c) (hexDigit?_eq_some_iff.mp d)
      · cases reads
    · cases reads
  · rintro ⟨a, b, c, d⟩
    simp only [readHex, hexDigit?_eq_some_iff.mpr a, hexDigit?_eq_some_iff.mpr b,
      hexDigit?_eq_some_iff.mpr c, hexDigit?_eq_some_iff.mpr d]

theorem readEscape_unit {s r : List Char} {n : Nat} (hex : Hex s n r)
    (whole : n < 0xD800 ∨ 0xDFFF < n) : readEscape ('u' :: s) = .ok (Char.ofNat n, r) := by
  have noTrailing : isTrailing n = false := by simp [isTrailing]; omega
  have noLeading : isLeading n = false := by simp [isLeading]; omega
  simp [readEscape, readHex_eq_ok_iff.mpr hex, noTrailing, noLeading]

theorem readEscape_pair {s t r : List Char} {high low : Nat} (hex : Hex s high ('\\' :: 'u' :: t))
    (leads : 0xD800 ≤ high ∧ high ≤ 0xDBFF) (hex' : Hex t low r)
    (trails : 0xDC00 ≤ low ∧ low ≤ 0xDFFF) :
    readEscape ('u' :: s) = .ok (pairChar high low, r) := by
  have noTrailing : isTrailing high = false := by simp [isTrailing]; omega
  have leading : isLeading high = true := by simp [isLeading]; omega
  have trailing : isTrailing low = true := by simp [isTrailing]; omega
  simp [readEscape, readHex_eq_ok_iff.mpr hex, noTrailing, leading, readTrailing,
    readHex_eq_ok_iff.mpr hex', trailing]

theorem readTrailing_eq_ok {s r : List Char} {high : Nat} {c : Char}
    (reads : readTrailing high s = .ok (c, r)) :
    ∃ t low, s = '\\' :: 'u' :: t ∧ Hex t low r ∧ (0xDC00 ≤ low ∧ low ≤ 0xDFFF) ∧
      c = pairChar high low := by
  unfold readTrailing at reads
  split at reads
  · cases reads
  · cases reads
  · rename_i t
    split at reads
    · cases reads
    · rename_i low u found
      split at reads
      · rename_i trailing
        simp only [Except.ok.injEq, Prod.mk.injEq] at reads
        obtain ⟨same, here⟩ := reads
        subst here
        exact ⟨t, low, rfl, readHex_eq_ok_iff.mp found, by simpa [isTrailing] using trailing,
          same.symm⟩
      · cases reads
  · cases reads
  · cases reads

/-- An escape that is read is one piece, or two if it is a pair. -/
theorem pieces_of_readEscape {s t r : List Char} {c : Char} {pieces : List Piece}
    {chars : List Char} (reads : readEscape s = .ok (c, t)) (others : Pieces t pieces r)
    (denotes : Denotes pieces chars) :
    ∃ all, Pieces ('\\' :: s) all r ∧ Denotes all (c :: chars) := by
  unfold readEscape at reads
  split at reads
  · cases reads
  · split at reads
    · cases reads
    · rename_i n u found
      have hex := readHex_eq_ok_iff.mp found
      split at reads
      · cases reads
      · rename_i noTrailing
        split at reads
        · rename_i leading
          obtain ⟨v, low, rfl, hex', trails, same⟩ := readTrailing_eq_ok reads
          rw [same, pairChar]
          have leads : 0xD800 ≤ n ∧ n ≤ 0xDBFF := by simpa [isLeading] using leading
          exact ⟨_, .unit hex (.unit hex' others), .pair leads trails denotes⟩
        · rename_i noLeading
          cases reads
          refine ⟨_, .unit hex others, .unit ?_ denotes⟩
          simp [isTrailing, isLeading] at noTrailing noLeading
          omega
  · split at reads
    · rename_i known
      cases reads
      exact ⟨_, .letter (escaped?_eq_some_iff.mp known) others, .char denotes⟩
    · cases reads

theorem pieces_of_readString {s r chars : List Char} (reads : readString s = .ok (chars, r)) :
    ∃ pieces, Pieces s pieces ('"' :: r) ∧ Denotes pieces chars := by
  fun_induction readString s generalizing chars r with
  | case1 => cases reads
  | case2 t =>
    cases reads
    exact ⟨[], .nil, .nil⟩
  | case3 => cases reads
  | case4 t c u escape ih =>
    obtain ⟨_, others, ⟨⟩⟩ := map_eq_ok_iff.mp reads
    obtain ⟨pieces, between, denotes⟩ := ih others
    exact pieces_of_readEscape escape between denotes
  | case5 => cases reads
  | case6 c t quote backslash printable ih =>
    obtain ⟨_, others, ⟨⟩⟩ := map_eq_ok_iff.mp reads
    obtain ⟨pieces, between, denotes⟩ := ih others
    exact ⟨_, .plain quote backslash (by omega) between, .char denotes⟩

/-- By induction on what the pieces stand for, as a pair is read in one go. -/
theorem readString_of_pieces {s r chars : List Char} {pieces : List Piece}
    (between : Pieces s pieces ('"' :: r)) (denotes : Denotes pieces chars) :
    readString s = .ok (chars, r) := by
  induction denotes generalizing s with
  | nil =>
    cases between
    exact readString_quote r
  | char _ ih =>
    cases between with
    | plain quote backslash printable others =>
      rw [readString_plain _ quote backslash printable, ih others]
      rfl
    | letter known others =>
      have named := escaped?_eq_some_iff.mpr known
      have notHex := ne_u_of_escaped? named
      rw [readString_escape (readEscape_letter _ named notHex), ih others]
      rfl
  | unit whole _ ih =>
    cases between with
    | unit hex others =>
      rw [readString_escape (readEscape_unit hex whole), ih others]
      rfl
  | pair leads trails _ ih =>
    cases between with
    | unit hex others =>
      cases others with
      | unit hex' others =>
        rw [readString_escape (readEscape_pair hex leads hex' trails), ih others]
        rfl

theorem readString_eq_ok_iff {s r chars : List Char} :
    readString s = .ok (chars, r) ↔
      ∃ pieces, Pieces s pieces ('"' :: r) ∧ Denotes pieces chars :=
  ⟨pieces_of_readString, fun ⟨_, between, denotes⟩ => readString_of_pieces between denotes⟩

theorem pieces_of_skipEscape {s t r : List Char} {pieces : List Piece}
    (skips : skipEscape s = .ok t) (others : Pieces t pieces r) :
    ∃ all, Pieces ('\\' :: s) all r := by
  unfold skipEscape at skips
  split at skips
  · cases skips
  · rename_i u
    obtain ⟨_, found, rfl⟩ := map_eq_ok_iff.mp skips
    exact ⟨_, .unit (readHex_eq_ok_iff.mp found) others⟩
  · split at skips
    · rename_i known
      cases skips
      obtain ⟨c, named⟩ := Option.isSome_iff_exists.mp known
      exact ⟨_, .letter (escaped?_eq_some_iff.mp named) others⟩
    · cases skips

theorem skipString_escape {s t : List Char} (escape : skipEscape s = .ok t) :
    skipString ('\\' :: s) = skipString t := by
  rw [skipString]
  split
  · simp_all
  · rename_i taken
    rw [escape] at taken
    cases taken
    rfl

theorem skipString_eq_ok_iff {s r : List Char} :
    skipString s = .ok r ↔ ∃ pieces, Pieces s pieces ('"' :: r) := by
  constructor
  · intro skips
    fun_induction skipString s with
    | case1 => cases skips
    | case2 t =>
      cases skips
      exact ⟨[], .nil⟩
    | case3 => cases skips
    | case4 t u escape ih =>
      obtain ⟨pieces, between⟩ := ih skips
      exact pieces_of_skipEscape escape between
    | case5 => cases skips
    | case6 c t quote backslash printable ih =>
      obtain ⟨pieces, between⟩ := ih skips
      exact ⟨_, .plain quote backslash (by omega) between⟩
  · rintro ⟨pieces, between⟩
    generalize ends : '"' :: r = closing at between
    induction between with
    | nil =>
      subst ends
      rw [skipString]
    | plain quote backslash printable _ ih =>
      rw [skipString, if_neg (by omega)]
      · exact ih ends
      · exact quote
      · exact backslash
    | @letter l c t _ _ known _ ih =>
      have named := escaped?_eq_some_iff.mpr known
      have notHex := ne_u_of_escaped? named
      have escape : skipEscape (l :: t) = .ok t := by
        rw [skipEscape]
        · simp [named]
        · exact notHex
      rw [skipString_escape escape, ih ends]
    | @unit n u t _ _ hex _ ih =>
      have escape : skipEscape ('u' :: u) = .ok t := by
        simp [skipEscape, readHex_eq_ok_iff.mpr hex, Except.map]
      rw [skipString_escape escape, ih ends]

end TypeCatalog.Json
