import TypeCatalog.Toml.Draft
import TypeCatalog.Toml.Scalar
import TypeCatalog.Toml.Text

/-! TOML documents, read into a tree of items. Values may be nested eighty deep, and a path may
have eighty keys. -/
namespace TypeCatalog.Toml

open Text (byteCount)

/-- The bytes between two places of a text with `total` bytes, given by what follows them. -/
def Span.between (total : Nat) (start stop : List Char) : Span :=
  ⟨total - byteCount start, total - byteCount stop⟩

def isBareChar (c : Char) : Bool := c.isAlphanum || c == '_' || c == '-'

def readBareKey (s : List Char) : Option (String × List Char) :=
  match s.takeWhile isBareChar with
  | [] => none
  | cs => some (String.ofList cs, s.dropWhile isBareChar)

theorem length_lt_of_readBareKey {s r : List Char} {name : String}
    (h : readBareKey s = some (name, r)) : r.length < s.length := by
  cases s with
  | nil => simp [readBareKey] at h
  | cons c t =>
    have := (List.dropWhile_sublist isBareChar (l := t)).length_le
    by_cases hc : isBareChar c
    · simp only [readBareKey, List.takeWhile_cons, List.dropWhile_cons, hc, if_true,
        Option.some.injEq, Prod.mk.injEq] at h
      rw [← h.2, List.length_cons]; omega
    · simp [readBareKey, hc] at h

def bareKey : Scan String := ⟨readBareKey, length_lt_of_readBareKey⟩

def key (total : Nat) : Scan Key where
  read s :=
    ((lineString.orElse bareKey).read s).map fun (name, r) => (⟨name, .between total s r⟩, r)
  shrinks {s _ r} h := by
    obtain ⟨p, hp, h⟩ := Option.map_eq_some_iff.1 h
    have := (lineString.orElse bareKey).shrinks hp
    simp at h
    rw [← h.2]; exact this

/-- Keys joined by dots, with blanks around each, and the text after them. -/
def readKeys (total : Nat) (s : List Char) : Option (List Key × List Char) :=
  match _h : (key total).read (skipBlank s) with
  | none => none
  | some (k, r) =>
    match _hr : skipBlank r with
    | '.' :: t => (readKeys total t).map fun (ks, r) => (k :: ks, r)
    | t => some ([k], t)
termination_by s.length
decreasing_by
  have := length_skipBlank_le s
  have := (key total).shrinks _h
  have := length_skipBlank_le r
  simp [_hr] at *
  omega

theorem length_lt_of_readKeys {total : Nat} {s r : List Char} {ks : List Key}
    (h : readKeys total s = some (ks, r)) : r.length < s.length := by
  fun_induction readKeys total s generalizing ks r with
  | case1 => simp at h
  | case2 s _ t hk _ hr ih =>
    obtain ⟨p, hp, h⟩ := Option.map_eq_some_iff.1 h
    have := ih hp
    have := length_skipBlank_le s
    have := (key total).shrinks hk
    have := length_skipBlank_le t
    simp only [hr, List.length_cons] at *
    simp at h
    rw [← h.2]; omega
  | case3 s _ t hk =>
    have := length_skipBlank_le s
    have := (key total).shrinks hk
    have := length_skipBlank_le t
    simp at h
    rw [← h.2]; omega

/-- How many containers may be around each other, and how many keys may be in a path. -/
def depthLimit : Nat := 80

def readPath (total : Nat) (s : List Char) : Option (List Key × List Char) :=
  (readKeys total s).filter fun (path, _) => path.length ≤ depthLimit

theorem length_lt_of_readPath {total : Nat} {s r : List Char} {ks : List Key}
    (h : readPath total s = some (ks, r)) : r.length < s.length :=
  length_lt_of_readKeys (Option.filter_eq_some_iff.1 h).1

def readAssigned (multiline : Bool) (value : Scan Item) (s : List Char) :
    Option (Item × List Char) := do
  match ← skipSpace multiline s with
  | '=' :: r => value.read (← skipSpace multiline r)
  | _ => none

theorem length_lt_of_readAssigned {multiline : Bool} {value : Scan Item} {s r : List Char}
    {item : Item} (h : readAssigned multiline value s = some (item, r)) : r.length < s.length := by
  simp only [readAssigned, Option.bind_eq_bind] at h
  obtain ⟨t, ht, h⟩ := Option.bind_eq_some_iff.1 h
  have := length_le_of_skipSpace ht
  split at h
  · obtain ⟨v, hv, h⟩ := Option.bind_eq_some_iff.1 h
    have := length_le_of_skipSpace hv
    have := value.shrinks h
    rw [List.length_cons] at *
    omega
  · cases h

def pair (total : Nat) (multiline : Bool) (value : Scan Item) : Scan (List Key × Item) where
  read s := do
    let (path, r) ← readPath total s
    let (item, r) ← readAssigned multiline value r
    return ((path, item), r)
  shrinks {s _ r} h := by
    simp only [Option.bind_eq_bind] at h
    obtain ⟨⟨path, t⟩, ht, h⟩ := Option.bind_eq_some_iff.1 h
    obtain ⟨⟨item, u⟩, hu, h⟩ := Option.bind_eq_some_iff.1 h
    have := length_lt_of_readPath ht
    have := length_lt_of_readAssigned hu
    simp at h this
    rw [← h.2]; omega

def scalar (total : Nat) : Scan Item where
  read s :=
    match (linesString.orElse lineString).read s with
    | some (text, r) => some (.string (.between total s r) text, r)
    | none =>
      let (word, r) := splitWord s
      if word.isEmpty then none else (Item.ofWord? (.between total s r) word).map (·, r)
  shrinks {s _ r} h := by
    split at h
    · rename_i p hp
      have := (linesString.orElse lineString).shrinks hp
      simp at h
      rw [← h.2]; exact this
    · dsimp only at h
      split at h
      · simp at h
      · rename_i hw
        obtain ⟨p, hp, h⟩ := Option.map_eq_some_iff.1 h
        have := length_lt_of_splitWord_ne (s := s) (by simpa using hw)
        simp at h
        rw [← h.2]; exact this

def inlineEntries (pairs : List (List Key × Item)) : Option (List (Key × Item)) := do
  let entries ← pairs.foldlM
    (fun entries (path, item) => Draft.Entries.assign item false path entries) ([] : Draft.Entries)
  return Draft.finishEntries entries

/-- A list, an inline table or a scalar; the values inside are those of `inner`. Lines may end
between the parts of a list or a table, but not within a path. -/
def container (total : Nat) (inner : Scan Item) : Scan Item where
  read s :=
    match s with
    | '[' :: r => do
      let (items, r) ← inner.separated ']' r
      return (.list (.between total s r) items, r)
    | '\x7b' :: r => do
      let (pairs, r) ← (pair total true inner).separated '\x7d' r
      return (.table (.between total s r) (← inlineEntries pairs), r)
    | s => (scalar total).read s
  shrinks {s _ r} h := by
    simp only [Option.bind_eq_bind] at h
    split at h
    · obtain ⟨⟨items, t⟩, ht, h⟩ := Option.bind_eq_some_iff.1 h
      have := Scan.length_le_of_separated ht
      simp at h
      simp [← h.2]; omega
    · obtain ⟨⟨items, t⟩, ht, h⟩ := Option.bind_eq_some_iff.1 h
      have := Scan.length_le_of_separated ht
      obtain ⟨entries, _, h⟩ := Option.bind_eq_some_iff.1 h
      simp at h
      simp [← h.2]; omega
    · exact (scalar total).shrinks h

/-- Values with at most `depth` containers around each other. -/
def value (total : Nat) : (depth : Nat) → Scan Item
  | 0 => scalar total
  | depth + 1 => container total (value total depth)

structure Progress where
  entries : Draft.Entries := []
  header : List Key := []

/-- The keys of a header between its brackets, with the text after the closing ones. -/
def readHeader (total : Nat) (double : Bool) (s : List Char) : Option (List Key × List Char) := do
  let (path, r) ← readPath total s
  match double, r with
  | true, ']' :: ']' :: r => some (path, r)
  | false, ']' :: r => some (path, r)
  | _, _ => none

theorem length_lt_of_readHeader {total : Nat} {double : Bool} {s r : List Char} {ks : List Key}
    (h : readHeader total double s = some (ks, r)) : r.length < s.length := by
  simp only [readHeader, Option.bind_eq_bind] at h
  obtain ⟨⟨path, t⟩, ht, h⟩ := Option.bind_eq_some_iff.1 h
  have := length_lt_of_readPath ht
  dsimp only at h
  split at h <;> simp at h
  · rw [← h.2]; simp at this; omega
  · rw [← h.2]; simp at this; omega

namespace Progress

/-- Makes a header the one in force, after `start` has made its table. -/
def enter (p : Progress) (start : Key → Span → Draft.Entries → Option Draft.Entries)
    (path : List Key) (span : Span) : Option Progress := do
  let key ← path.getLast?
  return ⟨← p.entries.modify (start key span) path.dropLast, path⟩

def assign (p : Progress) (path : List Key) (item : Item) : Option Progress := do
  return { p with entries := ← p.entries.modify (Draft.Entries.assign item false path) p.header }

end Progress

def statement (total : Nat) (p : Progress) : List Char → Option (Progress × List Char)
  | '[' :: '[' :: r => do
    let (path, t) ← readHeader total true r
    let p ← p.enter Draft.Entries.startNextTable path (.between total ('[' :: '[' :: r) t)
    return (p, t)
  | '[' :: r => do
    let (path, t) ← readHeader total false r
    let p ← p.enter Draft.Entries.startTable path (.between total ('[' :: r) t)
    return (p, t)
  | s => do
    let ((path, item), t) ← (pair total false (value total depthLimit)).read s
    return (← p.assign path item, t)

theorem length_lt_of_statement {total : Nat} {p q : Progress} {s r : List Char}
    (h : statement total p s = some (q, r)) : r.length < s.length := by
  unfold statement at h
  simp only [Option.bind_eq_bind] at h
  split at h
  · obtain ⟨⟨path, t⟩, ht, h⟩ := Option.bind_eq_some_iff.1 h
    have := length_lt_of_readHeader ht
    obtain ⟨_, _, h⟩ := Option.bind_eq_some_iff.1 h
    simp at h
    simp [← h.2]; omega
  · obtain ⟨⟨path, t⟩, ht, h⟩ := Option.bind_eq_some_iff.1 h
    have := length_lt_of_readHeader ht
    obtain ⟨_, _, h⟩ := Option.bind_eq_some_iff.1 h
    simp at h
    simp [← h.2]; omega
  · obtain ⟨⟨⟨path, item⟩, t⟩, ht, h⟩ := Option.bind_eq_some_iff.1 h
    have := Scan.shrinks _ ht
    obtain ⟨_, _, h⟩ := Option.bind_eq_some_iff.1 h
    simp at h
    rw [← h.2]; exact this

def statements (total : Nat) (p : Progress) (s : List Char) : Option Progress :=
  match _hs : skipGap s with
  | none => none
  | some [] => some p
  | some (c :: r) =>
    match _hp : statement total p (c :: r) with
    | none => none
    | some (p, t) =>
      match _ht : endLine t with
      | none => none
      | some u => statements total p u
termination_by s.length
decreasing_by
  have := length_le_of_skipGap _hs
  have := length_lt_of_statement _hp
  have := length_le_of_endLine _ht
  omega

/-- The entries of a document; a byte order mark in front of it does not count. -/
def parse (text : String) : Option (List (Key × Item)) :=
  let s := text.toList
  let body := match s with
    | '\ufeff' :: r => r
    | s => s
  (statements (byteCount s) {} body).map fun p => Draft.finishEntries p.entries

end TypeCatalog.Toml
