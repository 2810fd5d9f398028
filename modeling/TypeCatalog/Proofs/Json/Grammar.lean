/-! The grammar of JSON texts. A phrase is what a text says before anyone asks for its meaning: it
keeps the escapes of strings, the order of members and repeated keys, and of a number only that
there is one. The relations go along the text, so a part that follows is the next relation's
beginning: `Begins s p r` says that `s` begins with the phrase `p` and goes on with `r`. -/
namespace TypeCatalog.Json

inductive Piece where
  /-- The character itself, or the escape that names it by a letter. -/
  | char (c : Char)
  /-- An escape of four hexadecimal digits. -/
  | unit (n : Nat)

inductive Phrase where
  | null
  | boolean (b : Bool)
  | number
  | string (pieces : List Piece)
  | list (items : List Phrase)
  | object (members : List (List Piece × Phrase))

/-- The characters that pieces stand for. An escaped number from the range of the surrogates is
half of a character, and its other half must come next. -/
inductive Denotes : List Piece → List Char → Prop where
  | nil : Denotes [] []
  | char {c : Char} {pieces : List Piece} {chars : List Char} :
      Denotes pieces chars → Denotes (.char c :: pieces) (c :: chars)
  | unit {n : Nat} {pieces : List Piece} {chars : List Char} :
      n < 0xD800 ∨ 0xDFFF < n → Denotes pieces chars →
        Denotes (.unit n :: pieces) (Char.ofNat n :: chars)
  | pair {high low : Nat} {pieces : List Piece} {chars : List Char} :
      0xD800 ≤ high ∧ high ≤ 0xDBFF → 0xDC00 ≤ low ∧ low ≤ 0xDFFF → Denotes pieces chars →
        Denotes (.unit high :: .unit low :: pieces)
          (Char.ofNat (0x10000 + 0x400 * (high - 0xD800) + (low - 0xDC00)) :: chars)

namespace Grammar

/-- Spaces, tabs and line ends, in any number. -/
def Blanks (s r : List Char) : Prop :=
  ∃ gap, (∀ c ∈ gap, c ∈ [' ', '\t', '\n', '\r']) ∧ s = gap ++ r

/-- What stands in front of an item or a member: a comma, unless it is the first. -/
def Gap : Bool → List Char → List Char → Prop
  | true, s, r => Blanks s r
  | false, s, r => ∃ t, Blanks s (',' :: t) ∧ Blanks t r

def Digits (s r : List Char) : Prop :=
  ∃ ds, ds ≠ [] ∧ (∀ d ∈ ds, d.isDigit = true) ∧ s = ds ++ r

inductive Whole : List Char → List Char → Prop where
  | zero {r : List Char} : Whole ('0' :: r) r
  | other {d : Char} {s r : List Char} : d ≠ '0' → Digits (d :: s) r → Whole (d :: s) r

inductive Fraction : List Char → List Char → Prop where
  | none {r : List Char} : Fraction r r
  | some {s r : List Char} : Digits s r → Fraction ('.' :: s) r

inductive Exponent : List Char → List Char → Prop where
  | none {r : List Char} : Exponent r r
  | some {e : Char} {sign s r : List Char} :
      e ∈ ['e', 'E'] → sign ∈ [[], ['+'], ['-']] → Digits s r → Exponent (e :: (sign ++ s)) r

inductive Magnitude : List Char → List Char → Prop where
  | intro {s t u r : List Char} : Whole s t → Fraction t u → Exponent u r → Magnitude s r

def letters : List (Char × Char) :=
  [('"', '"'), ('\\', '\\'), ('/', '/'), ('b', '\x08'), ('f', '\x0c'), ('n', '\n'), ('r', '\r'),
    ('t', '\t')]

/-- Either case will do. -/
def HexDigit (c : Char) (n : Nat) : Prop :=
  (c, n) ∈ ("0123456789abcdef".toList.zipIdx ++ "0123456789ABCDEF".toList.zipIdx)

instance (c : Char) (n : Nat) : Decidable (HexDigit c n) := inferInstanceAs (Decidable (_ ∈ _))

inductive Hex : List Char → Nat → List Char → Prop where
  | intro {a b c d : Char} {w x y z : Nat} {r : List Char} :
      HexDigit a w → HexDigit b x → HexDigit c y → HexDigit d z →
        Hex (a :: b :: c :: d :: r) (4096 * w + 256 * x + 16 * y + z) r

inductive Pieces : List Char → List Piece → List Char → Prop where
  | nil {r : List Char} : Pieces r [] r
  | plain {c : Char} {s r : List Char} {pieces : List Piece} :
      c ≠ '"' → c ≠ '\\' → 0x20 ≤ c.toNat → Pieces s pieces r →
        Pieces (c :: s) (.char c :: pieces) r
  | letter {l c : Char} {s r : List Char} {pieces : List Piece} :
      (l, c) ∈ letters → Pieces s pieces r → Pieces ('\\' :: l :: s) (.char c :: pieces) r
  | unit {n : Nat} {s t r : List Char} {pieces : List Piece} :
      Hex s n t → Pieces t pieces r → Pieces ('\\' :: 'u' :: s) (.unit n :: pieces) r

mutual

inductive Begins : List Char → Phrase → List Char → Prop where
  | null {r : List Char} : Begins ('n' :: 'u' :: 'l' :: 'l' :: r) .null r
  | isTrue {r : List Char} : Begins ('t' :: 'r' :: 'u' :: 'e' :: r) (.boolean true) r
  | isFalse {r : List Char} : Begins ('f' :: 'a' :: 'l' :: 's' :: 'e' :: r) (.boolean false) r
  | number {s r : List Char} : Magnitude s r → Begins s .number r
  | negative {s r : List Char} : Magnitude s r → Begins ('-' :: s) .number r
  | string {s r : List Char} {pieces : List Piece} :
      Pieces s pieces ('"' :: r) → Begins ('"' :: s) (.string pieces) r
  | list {s r : List Char} {items : List Phrase} :
      Items true s items r → Begins ('[' :: s) (.list items) r
  | object {s r : List Char} {members : List (List Piece × Phrase)} :
      Members true s members r → Begins ('\x7b' :: s) (.object members) r

inductive Items : Bool → List Char → List Phrase → List Char → Prop where
  | done {first : Bool} {s r : List Char} : Blanks s (']' :: r) → Items first s [] r
  | item {first : Bool} {s t u r : List Char} {p : Phrase} {items : List Phrase} :
      Gap first s t → Begins t p u → Items false u items r → Items first s (p :: items) r

inductive Members : Bool → List Char → List (List Piece × Phrase) → List Char → Prop where
  | done {first : Bool} {s r : List Char} : Blanks s ('\x7d' :: r) → Members first s [] r
  | member {first : Bool} {s t u v w x r : List Char} {key : List Piece} {p : Phrase}
      {members : List (List Piece × Phrase)} :
      Gap first s ('"' :: t) → Pieces t key ('"' :: u) → Blanks u (':' :: v) → Blanks v w →
        Begins w p x → Members false x members r → Members first s ((key, p) :: members) r

end

/-- One phrase, with nothing but white space around it. -/
def IsText (s : List Char) (p : Phrase) : Prop :=
  ∃ t u, Blanks s t ∧ Begins t p u ∧ Blanks u []

section Extension

variable {s r : List Char} (more : List Char)

theorem Blanks.extend (blanks : Blanks s r) : Blanks (s ++ more) (r ++ more) := by
  obtain ⟨gap, blank, rfl⟩ := blanks
  exact ⟨gap, blank, List.append_assoc ..⟩

theorem Gap.extend {first : Bool} (gap : Gap first s r) : Gap first (s ++ more) (r ++ more) := by
  cases first with
  | true => exact Blanks.extend more gap
  | false =>
    obtain ⟨t, before, after⟩ := gap
    exact ⟨t ++ more, before.extend more, after.extend more⟩

theorem Digits.extend (digits : Digits s r) : Digits (s ++ more) (r ++ more) := by
  obtain ⟨ds, some_digit, all_digits, rfl⟩ := digits
  exact ⟨ds, some_digit, all_digits, List.append_assoc ..⟩

theorem Whole.extend (whole : Whole s r) : Whole (s ++ more) (r ++ more) := by
  cases whole with
  | zero => exact .zero
  | other nonzero digits => exact .other nonzero (digits.extend more)

theorem Fraction.extend (fraction : Fraction s r) : Fraction (s ++ more) (r ++ more) := by
  cases fraction with
  | none => exact .none
  | some digits => exact .some (digits.extend more)

theorem Exponent.extend (exponent : Exponent s r) : Exponent (s ++ more) (r ++ more) := by
  cases exponent with
  | none => exact .none
  | some mark sign digits =>
    rw [List.cons_append, List.append_assoc]
    exact .some mark sign (digits.extend more)

theorem Magnitude.extend (magnitude : Magnitude s r) : Magnitude (s ++ more) (r ++ more) := by
  cases magnitude with
  | intro whole fraction exponent =>
    exact .intro (whole.extend more) (fraction.extend more) (exponent.extend more)

theorem Hex.extend {n : Nat} (hex : Hex s n r) : Hex (s ++ more) n (r ++ more) := by
  cases hex with
  | intro a b c d => exact .intro a b c d

theorem Pieces.extend {pieces : List Piece} (between : Pieces s pieces r) :
    Pieces (s ++ more) pieces (r ++ more) := by
  induction between with
  | nil => exact .nil
  | plain quote backslash printable _ ih => exact .plain quote backslash printable ih
  | letter known _ ih => exact .letter known ih
  | unit hex _ ih => exact .unit (hex.extend more) ih

mutual

theorem Begins.extend {s r : List Char} {p : Phrase} (begins : Begins s p r) :
    Begins (s ++ more) p (r ++ more) := by
  cases begins with
  | null => exact .null
  | isTrue => exact .isTrue
  | isFalse => exact .isFalse
  | number magnitude => exact .number (magnitude.extend more)
  | negative magnitude => exact .negative (magnitude.extend more)
  | string pieces => exact .string (pieces.extend more)
  | list items => exact .list (items.extend)
  | object members => exact .object (members.extend)

theorem Items.extend {first : Bool} {s r : List Char} {items : List Phrase}
    (rest : Items first s items r) : Items first (s ++ more) items (r ++ more) := by
  cases rest with
  | done ends => exact .done (ends.extend more)
  | item gap begins others => exact .item (gap.extend more) begins.extend others.extend

theorem Members.extend {first : Bool} {s r : List Char} {members : List (List Piece × Phrase)}
    (rest : Members first s members r) : Members first (s ++ more) members (r ++ more) := by
  cases rest with
  | done ends => exact .done (ends.extend more)
  | member gap key colon blanks begins others =>
    exact .member (gap.extend more) (key.extend more) (colon.extend more) (blanks.extend more)
      begins.extend others.extend

end

end Extension

section Ends

variable {s r : List Char}

theorem Blanks.suffix (blanks : Blanks s r) : r <:+ s := by
  obtain ⟨gap, -, rfl⟩ := blanks
  exact List.suffix_append gap r

theorem Gap.suffix {first : Bool} (gap : Gap first s r) : r <:+ s := by
  cases first with
  | true => exact Blanks.suffix gap
  | false =>
    obtain ⟨t, before, after⟩ := gap
    exact after.suffix.trans ((List.suffix_cons ',' t).trans before.suffix)

theorem Digits.suffix (digits : Digits s r) : r <:+ s := by
  obtain ⟨ds, -, -, rfl⟩ := digits
  exact List.suffix_append ds r

theorem Whole.suffix (whole : Whole s r) : r <:+ s := by
  cases whole with
  | zero => exact List.suffix_cons '0' r
  | other _ digits => exact digits.suffix

theorem Fraction.suffix (fraction : Fraction s r) : r <:+ s := by
  cases fraction with
  | none => exact List.suffix_rfl
  | some digits => exact digits.suffix.trans (List.suffix_cons '.' _)

theorem Exponent.suffix (exponent : Exponent s r) : r <:+ s := by
  cases exponent with
  | none => exact List.suffix_rfl
  | @some e sign t r _ _ digits =>
    exact digits.suffix.trans ((List.suffix_append sign t).trans (List.suffix_cons e _))

theorem Magnitude.suffix (magnitude : Magnitude s r) : r <:+ s := by
  cases magnitude with
  | intro whole fraction exponent =>
    exact exponent.suffix.trans (fraction.suffix.trans whole.suffix)

theorem Hex.suffix {n : Nat} (hex : Hex s n r) : r <:+ s := by
  cases hex with
  | @intro a b c d => exact List.suffix_append [a, b, c, d] r

theorem Pieces.suffix {pieces : List Piece} (between : Pieces s pieces r) : r <:+ s := by
  induction between with
  | nil => exact List.suffix_rfl
  | @plain c s _ _ _ _ _ _ ih => exact ih.trans (List.suffix_cons c s)
  | @letter l _ s _ _ _ _ ih => exact ih.trans (List.suffix_append ['\\', l] s)
  | @unit _ s _ _ _ hex _ ih =>
    exact ih.trans (hex.suffix.trans (List.suffix_append ['\\', 'u'] s))

mutual

theorem Begins.suffix {s r : List Char} {p : Phrase} (begins : Begins s p r) : r <:+ s := by
  cases begins with
  | null => exact List.suffix_append ['n', 'u', 'l', 'l'] r
  | isTrue => exact List.suffix_append ['t', 'r', 'u', 'e'] r
  | isFalse => exact List.suffix_append ['f', 'a', 'l', 's', 'e'] r
  | number magnitude => exact magnitude.suffix
  | negative magnitude => exact magnitude.suffix.trans (List.suffix_cons '-' _)
  | string pieces =>
    exact (List.suffix_cons '"' r).trans (pieces.suffix.trans (List.suffix_cons '"' _))
  | list items => exact (List.suffix_cons ']' r).trans (items.ends.trans (List.suffix_cons '[' _))
  | object members =>
    exact (List.suffix_cons '\x7d' r).trans (members.ends.trans (List.suffix_cons '\x7b' _))

theorem Items.ends {first : Bool} {s r : List Char} {items : List Phrase}
    (rest : Items first s items r) : (']' :: r) <:+ s := by
  cases rest with
  | done mark => exact mark.suffix
  | item gap begins others => exact others.ends.trans (begins.suffix.trans gap.suffix)

theorem Members.ends {first : Bool} {s r : List Char} {members : List (List Piece × Phrase)}
    (rest : Members first s members r) : ('\x7d' :: r) <:+ s := by
  cases rest with
  | done mark => exact mark.suffix
  | @member _ s t u v w x r _ _ _ gap key colon blanks begins others =>
    have value : x <:+ v := begins.suffix.trans blanks.suffix
    have name : u <:+ t := (List.suffix_cons '"' u).trans key.suffix
    have inside : v <:+ s := ((List.suffix_cons ':' v).trans colon.suffix).trans
      (name.trans ((List.suffix_cons '"' t).trans gap.suffix))
    exact others.ends.trans (value.trans inside)

end

/-- Behind the end mark of a list that is all of a text there is only white space. -/
theorem IsText.ends {items : List Phrase} (isText : IsText s (.list items)) :
    ∃ front gap, s = front ++ ']' :: gap ∧ ∀ c ∈ gap, c ∈ [' ', '\t', '\n', '\r'] := by
  obtain ⟨t, u, before, begins, gap, blank, rfl⟩ := isText
  cases begins with
  | list inside =>
    obtain ⟨front, whole⟩ := inside.ends.trans ((List.suffix_cons '[' _).trans before.suffix)
    exact ⟨front, gap, by simp [← whole], blank⟩

end Ends

end Grammar

end TypeCatalog.Json
