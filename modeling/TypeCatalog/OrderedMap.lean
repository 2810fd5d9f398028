/-! Maps that remember the order in which their keys came. A key keeps its place when its value
changes. -/
namespace TypeCatalog

structure OrderedMap (κ β : Type) where
  entries : List (κ × β)
  nodup : (entries.map Prod.fst).Nodup
deriving DecidableEq, Repr

namespace OrderedMap

variable {κ β : Type} [DecidableEq κ]

def empty : OrderedMap κ β := ⟨[], List.nodup_nil⟩

instance : EmptyCollection (OrderedMap κ β) := ⟨empty⟩

instance : Inhabited (OrderedMap κ β) := ⟨empty⟩

def keys (m : OrderedMap κ β) : List κ := m.entries.map Prod.fst

def size (m : OrderedMap κ β) : Nat := m.entries.length

def isEmpty (m : OrderedMap κ β) : Bool := m.entries.isEmpty

def get? (m : OrderedMap κ β) (key : κ) : Option β := m.entries.lookup key

def contains (m : OrderedMap κ β) (key : κ) : Bool := decide (key ∈ m.keys)

/-- Replaces the value of a key that is there, and appends one that is not. -/
def upsert (key : κ) (value : β) : List (κ × β) → List (κ × β)
  | [] => [(key, value)]
  | (k, v) :: rest => if k = key then (k, value) :: rest else (k, v) :: upsert key value rest

theorem keys_upsert (key : κ) (value : β) (entries : List (κ × β)) :
    (upsert key value entries).map Prod.fst =
      if key ∈ entries.map Prod.fst then entries.map Prod.fst
      else entries.map Prod.fst ++ [key] := by
  induction entries with
  | nil => simp [upsert]
  | cons e rest ih =>
    obtain ⟨k, v⟩ := e
    by_cases h : k = key
    · simp [upsert, h]
    · have h' : key ≠ k := fun e => h e.symm
      simp only [upsert, if_neg h, List.map_cons, ih, List.mem_cons, h', false_or]
      split <;> simp

theorem nodup_keys_upsert {key : κ} {value : β} {entries : List (κ × β)}
    (h : (entries.map Prod.fst).Nodup) : ((upsert key value entries).map Prod.fst).Nodup := by
  rw [keys_upsert]
  split
  · exact h
  · rename_i hk
    exact List.nodup_append.2 ⟨h, by simp, by rintro a ha b hb rfl; simp_all⟩

def insert (m : OrderedMap κ β) (key : κ) (value : β) : OrderedMap κ β :=
  ⟨upsert key value m.entries, nodup_keys_upsert m.nodup⟩

def filterKeys (m : OrderedMap κ β) (p : κ → Bool) : OrderedMap κ β :=
  ⟨m.entries.filter fun e => p e.1, m.nodup.sublist (List.filter_sublist.map _)⟩

/-- Later pairs win, but a key stays where it came first. -/
def ofList (pairs : List (κ × β)) : OrderedMap κ β :=
  pairs.foldl (fun m pair => m.insert pair.1 pair.2) ∅

/-- The same keys with the same values, in any order. -/
def sameEntries [DecidableEq β] (m n : OrderedMap κ β) : Bool :=
  m.size == n.size && m.entries.all fun e => n.get? e.1 == some e.2

theorem lookup_cons_eq (j : κ) (v : β) (rest : List (κ × β)) (k : κ) :
    ((j, v) :: rest).lookup k = if k = j then some v else rest.lookup k := by
  by_cases h : k = j
  · simp [h]
  · simp [List.lookup_cons, h, beq_eq_false_iff_ne.2 h]

theorem lookup_upsert (key : κ) (value : β) (entries : List (κ × β)) (k : κ) :
    (upsert key value entries).lookup k = if k = key then some value else entries.lookup k := by
  induction entries with
  | nil => simp [upsert, lookup_cons_eq]
  | cons e rest ih =>
    obtain ⟨j, v⟩ := e
    simp only [upsert]
    by_cases hj : j = key
    · by_cases hk : k = j <;> simp_all [lookup_cons_eq]
    · by_cases hk : k = j <;> simp_all [lookup_cons_eq]

theorem get?_insert (m : OrderedMap κ β) (key : κ) (value : β) (k : κ) :
    (m.insert key value).get? k = if k = key then some value else m.get? k :=
  lookup_upsert key value m.entries k

theorem get?_filterKeys (m : OrderedMap κ β) (p : κ → Bool) (k : κ) :
    (m.filterKeys p).get? k = if p k then m.get? k else none := by
  obtain ⟨entries, nodup⟩ := m
  simp only [filterKeys, get?]
  clear nodup
  induction entries with
  | nil => simp
  | cons e rest ih =>
    obtain ⟨j, v⟩ := e
    by_cases hk : k = j
    · subst hk
      by_cases hj : p k
      · simp [hj]
      · simpa only [List.filter_cons, hj, Bool.false_eq_true, if_false] using ih
    · by_cases hj : p j <;> simp only [List.filter_cons, hj, Bool.false_eq_true, if_true, if_false,
        lookup_cons_eq, hk, ih]

theorem keys_insert (m : OrderedMap κ β) (key : κ) (value : β) :
    (m.insert key value).keys = if key ∈ m.keys then m.keys else m.keys ++ [key] :=
  keys_upsert key value m.entries

end OrderedMap

end TypeCatalog
