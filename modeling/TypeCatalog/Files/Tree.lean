import TypeCatalog.Files.Path
import TypeCatalog.OrderedMap

/-! A tree of directories and files, and what can be done with a path in it. The root is also the
working directory, and it is its own parent. Whatever is in the tree stands in a directory. -/
namespace TypeCatalog

inductive Entry where
  | directory
  | file (content : ByteArray)

instance : DecidableEq Entry
  | .directory, .directory => isTrue rfl
  | .directory, .file _ => isFalse nofun
  | .file _, .directory => isFalse nofun
  | .file a, .file b =>
    if h : a.data = b.data then isTrue (congrArg Entry.file (ByteArray.ext h))
    else isFalse fun e => h (congrArg ByteArray.data (Entry.file.inj e))

abbrev Place := List String

namespace Entry

def find (entries : OrderedMap Place Entry) (place : Place) : Option Entry :=
  if place = [] then some .directory else entries.get? place

theorem find_insert (entries : OrderedMap Place Entry) {place : Place} (h : place ≠ [])
    (entry : Entry) (other : Place) :
    find (entries.insert place entry) other =
      if other = place then some entry else find entries other := by
  unfold find
  by_cases hr : other = []
  · subst hr; simp [h.symm]
  · simp [hr, OrderedMap.get?_insert]

end Entry

structure Tree where
  entries : OrderedMap Place Entry
  placed : ∀ place ∈ entries.keys,
    place ≠ [] ∧ Entry.find entries place.dropLast = some .directory
deriving DecidableEq

namespace Tree

def empty : Tree :=
  ⟨∅, by simp [OrderedMap.keys, EmptyCollection.emptyCollection, OrderedMap.empty]⟩

instance : EmptyCollection Tree := ⟨empty⟩

instance : Inhabited Tree := ⟨empty⟩

def at? (t : Tree) (place : Place) : Option Entry := Entry.find t.entries place

/-- The parts of a path that can be looked up at all. -/
def parts (p : Path) : Except FileError (List String) :=
  if '\x00' ∈ p.text.toList then .error .nulInName
  else if p.text.isEmpty then .error .notFound
  else if 4096 ≤ p.text.utf8ByteSize then .error .nameTooLong
  else .ok p.segments

def isTooLong (name : String) : Bool := 255 < name.utf8ByteSize

def enter (t : Tree) (place : Place) : Except FileError Unit :=
  match t.at? place with
  | none => .error .notFound
  | some (.file _) => .error .notADirectory
  | some .directory => .ok ()

def step (t : Tree) (place : Place) (part : String) : Except FileError Place := do
  t.enter place
  if part = "." then return place
  else if part = ".." then return place.dropLast
  else if isTooLong part then throw .nameTooLong
  else return place ++ [part]

def walk (t : Tree) (parts : List String) : Except FileError Place := parts.foldlM t.step []

/-- The place that a path leads to; all but the place itself has to be there. -/
def resolve (t : Tree) (p : Path) : Except FileError Place := do t.walk (← parts p)

def isDirectory (t : Tree) (p : Path) : Bool :=
  match t.resolve p with
  | .ok place => t.at? place == some .directory
  | .error _ => false

def read (t : Tree) (p : Path) : Except FileError String := do
  match t.at? (← t.resolve p) with
  | none => throw .notFound
  | some .directory => throw .isADirectory
  | some (.file content) =>
    if p.endsInSlash then throw .notADirectory
    else match String.fromUTF8? content with
      | none => throw .notText
      | some text => return text

def readOptional (t : Tree) (p : Path) : Except FileError (Option String) :=
  FileError.orMissing (t.read p)

structure Spot (t : Tree) where
  directory : Place
  name : String
  isThere : t.at? directory = some .directory

def Spot.place {t : Tree} (s : Spot t) : Place := s.directory ++ [s.name]

/-- The spot for something new; none if the path ends in dots or is all slashes. -/
def spot (t : Tree) (p : Path) : Except FileError (Option (Spot t)) := do
  let parts ← parts p
  let directory ← t.walk parts.dropLast
  match h : t.at? directory with
  | none => throw .notFound
  | some (.file _) => throw .notADirectory
  | some .directory =>
    match parts.getLast? with
    | none => return none
    | some name =>
      if name = "." ∨ name = ".." then return none else return some ⟨directory, name, h⟩

/-- A directory stays one. -/
def set (t : Tree) (s : Spot t) (entry : Entry)
    (h : t.at? s.place = some .directory → entry = .directory) : Tree where
  entries := t.entries.insert s.place entry
  placed := by
    have hs : s.place ≠ [] := by simp [Spot.place]
    intro place hp
    rw [Entry.find_insert _ hs]
    have keep : Entry.find t.entries place.dropLast = some .directory →
        (if place.dropLast = s.place then some entry else Entry.find t.entries place.dropLast)
          = some .directory := by
      intro hd
      by_cases e : place.dropLast = s.place
      · simp [e, h (e ▸ hd)]
      · simp [e, hd]
    rw [OrderedMap.keys_insert] at hp
    split at hp
    · exact ⟨(t.placed place hp).1, keep (t.placed place hp).2⟩
    · rcases List.mem_append.1 hp with hp | hp
      · exact ⟨(t.placed place hp).1, keep (t.placed place hp).2⟩
      · obtain rfl : place = s.place := by simpa using hp
        exact ⟨hs, keep (by simpa [Spot.place, at?] using s.isThere)⟩

theorem at?_set (t : Tree) (s : Spot t) (entry : Entry)
    (h : t.at? s.place = some .directory → entry = .directory) (place : Place) :
    (t.set s entry h).at? place = if place = s.place then some entry else t.at? place :=
  Entry.find_insert t.entries (by simp [Spot.place]) entry place

def write (t : Tree) (p : Path) (content : ByteArray) : Except FileError Tree := do
  match ← t.spot p with
  | none => throw .isADirectory
  | some s =>
    if p.endsInSlash then throw .isADirectory
    else if isTooLong s.name then throw .nameTooLong
    else if h : t.at? s.place = some .directory then throw .isADirectory
    else return t.set s (.file content) fun e => absurd e h

def makeDirectory (t : Tree) (p : Path) : Except FileError Tree := do
  match ← t.spot p with
  | none => throw .alreadyExists
  | some s =>
    if isTooLong s.name then throw .nameTooLong
    else if (t.at? s.place).isSome then throw .alreadyExists
    else return t.set s .directory fun _ => rfl

/-- A directory that is there already is as good as a new one. -/
def ensureDirectory (t : Tree) (p : Path) : Except FileError Tree :=
  match t.makeDirectory p with
  | .error .alreadyExists => if t.isDirectory p then .ok t else .error .alreadyExists
  | made => made

/-- Makes the first directory, after those behind it if they are missing. What has been made
stays when the rest fails. -/
def ensureDirectories (t : Tree) : List Path → Except FileError Unit × Tree
  | [] => (.ok (), t)
  | p :: above =>
    match t.ensureDirectory p with
    | .ok t => (.ok (), t)
    | .error .notFound =>
      match t.ensureDirectories above with
      | (.error e, t) => (.error e, t)
      | (.ok (), t) =>
        match t.ensureDirectory p with
        | .ok t => (.ok (), t)
        | .error e => (.error e, t)
    | .error e => (.error e, t)

def writeText (t : Tree) (p : Path) (text : String) : Except FileError Unit × Tree :=
  match t.ensureDirectories p.ancestors with
  | (.error e, t) => (.error e, t)
  | (.ok (), t) =>
    match t.write p text.toUTF8 with
    | .ok t => (.ok (), t)
    | .error e => (.error e, t)

def without (t : Tree) (gone : Place) : Tree where
  entries := t.entries.filterKeys fun place => !gone.isPrefixOf place
  placed := by
    intro place hp
    have hm : place ∈ t.entries.keys ∧ ¬ gone <+: place := by
      obtain ⟨e, he, rfl⟩ := List.mem_map.1 hp
      obtain ⟨he, hk⟩ := List.mem_filter.1 he
      exact ⟨List.mem_map_of_mem he, fun h => by simp [List.isPrefixOf_iff_prefix.2 h] at hk⟩
    obtain ⟨hne, hd⟩ := t.placed place hm.1
    refine ⟨hne, ?_⟩
    have hk : ¬ gone <+: place.dropLast := fun h => hm.2 (h.trans (List.dropLast_prefix place))
    rw [← List.isPrefixOf_iff_prefix, Bool.not_eq_true] at hk
    unfold Entry.find at hd ⊢
    split
    · rfl
    · rename_i hr
      rw [OrderedMap.get?_filterKeys, hk]
      simpa [hr] using hd

def remove (t : Tree) (p : Path) : Except FileError Tree := do
  let place ← t.resolve p
  match t.at? place with
  | none => throw .notFound
  | some .directory => return t.without place
  | some (.file _) => if p.endsInSlash then throw .notADirectory else return t.without place

end Tree

end TypeCatalog
